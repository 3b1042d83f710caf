import DocTree.Command.Console
import DocTree.Text.Blank
import DocTree.Text.Case

/-!
# A simple console

A mark stands between brackets and starts with a small letter or one of the signs `#`, `/` and `@`;
anything else between brackets is text. A backslash in front of a mark makes it text, and two backslashes
stand for one. A mark that starts with `/` closes the style of its name, or the innermost one if it has no
name, and closing a style that is not open is a fault.

The simple console knows a style by the name that is written, without blanks and in small letters. Marks
may mean more elsewhere: one style may have several names, a mark may name an action, and a text between
colons may stand for a picture. The command line needs some console to say what it does, and this one is
enough for the marks that it writes; what is proved about commands does not depend on it.
-/

namespace DocTree.Command

/-- A part of a text with marks. -/
inductive Piece where
  | text (cs : List Char)
  /-- What stands between the brackets of a mark, and how many characters stand before the mark. -/
  | mark (body : List Char) (position : Nat)
  deriving DecidableEq, Repr

/-- A character that can start a mark. -/
def startsMark (c : Char) : Bool := ('a' ≤ c && c ≤ 'z') || c == '#' || c == '/' || c == '@'

/-- The mark behind an opening bracket, and what follows its closing bracket. -/
def mark? (s : List Char) : Option (List Char × List Char) :=
  match s with
  | c :: rest =>
    if startsMark c then
      let body := rest.takeWhile fun ch => ch != ']' && ch != '['
      match rest.drop body.length with
      | ']' :: after => some (c :: body, after)
      | _ => none
    else none
  | [] => none

/-- A piece of text without the backslashes that protect a bracket. -/
def bareBrackets : List Char → List Char
  | '\\' :: '[' :: rest => '[' :: bareBrackets rest
  | c :: rest => c :: bareBrackets rest
  | [] => []

/-- The pieces of a text that stands at `position`; `pending` holds text that has not become a piece yet,
last first. -/
def piecesFrom : Nat → Nat → List Char → List Char → List Piece
  | 0, _, pending, s => [.text (bareBrackets (pending.reverse ++ s))]
  | fuel + 1, position, pending, s =>
    let slashes := s.takeWhile (· == '\\')
    let plain := Piece.text (bareBrackets pending.reverse)
    match s.drop slashes.length with
    | [] => [.text (bareBrackets (pending.reverse ++ s))]
    | '[' :: inner =>
      match mark? inner with
      | some (body, after) =>
        let kept := Piece.text (List.replicate (slashes.length / 2) '\\')
        let marked :=
          if slashes.length % 2 == 1 then .text ('[' :: body ++ [']'])
          else Piece.mark body (position + slashes.length)
        let behind := position + slashes.length + body.length + 2
        plain :: kept :: marked :: piecesFrom fuel behind [] after
      | none => piecesFrom fuel (position + slashes.length + 1) ('[' :: slashes ++ pending) inner
    | c :: rest => piecesFrom fuel (position + slashes.length + 1) (c :: slashes ++ pending) rest

/-- The name of a style: what stands before an equals sign, in lower case and without blanks. -/
def styleName (body : List Char) : List Char :=
  Text.lower (Text.trim (body.takeWhile (· != '=')))

/-- Why a mark closes nothing. -/
def closingFault (body : List Char) (position : Nat) : String :=
  if (styleName (body.drop 1)).isEmpty then
    "closing tag '[/]' at position " ++ toString position ++ " has nothing to close"
  else
    "closing tag '[" ++ String.ofList body ++ "]' at position " ++ toString position ++
      " doesn't match any open tag"

/-- The styles that are left open by a mark that closes one, the innermost first. -/
def closeStyle? (styles : List (List Char)) (name : List Char) : Option (List (List Char)) :=
  if name.isEmpty then styles.tail? else if styles.contains name then some (styles.erase name) else none

/-- The text that pieces show, given the styles that are open, the innermost first. -/
def shownText : List (List Char) → List Piece → Except String (List Char)
  | _, [] => .ok []
  | styles, .text cs :: rest => (shownText styles rest).map (cs ++ ·)
  | styles, .mark body position :: rest =>
    if body.head? == some '/' then
      match closeStyle? styles (styleName (body.drop 1)) with
      | some styles => shownText styles rest
      | none => .error (closingFault body position)
    else shownText (styleName body :: styles) rest

/-- The text that is shown for a text with marks. -/
def shownMarkup (s : String) : Except String String :=
  (shownText [] (piecesFrom (s.length + 1) 0 [] s.toList)).map String.ofList

/-- A console that knows styles by their names. -/
def Console.simple : Console := ⟨shownMarkup⟩

/-- A mark that closes nothing is refused, and a backslash makes it text. -/
example : shownMarkup "a [red]b[/red] \\[/x]" = .ok "a b [/x]" ∧
    shownMarkup "a [/x]" = .error "closing tag '[/x]' at position 2 doesn't match any open tag" :=
  ⟨rfl, rfl⟩

end DocTree.Command
