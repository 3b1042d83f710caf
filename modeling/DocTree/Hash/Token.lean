import DocTree.Tag.Registry
import DocTree.Text.Blank
import DocTree.Text.Word

/-!
# Tokens of a hash

The text between the outer braces of a hash is divided into *lexemes*, and adjacent lexemes that are
mere text are joined into one token.

* A brace that opens a block is followed by a blank or by nothing; it may be attached to the word
  before it.
* A brace that closes a block is preceded by a blank or by nothing.
* An annotation stands after a blank, is a marker of the registry and ends at a blank.
* A backslash before a brace makes the brace text and is dropped.
* An inline `{@…}` is text up to its first closing brace, whatever it holds.

Each lexeme knows the text it was read from (`Lexeme.source`), so the sources of all lexemes, one
after another, are the text.
-/

namespace DocTree.Hash

/-! ## Lexemes -/

/-- The smallest parts of a hash. -/
inductive Lexeme where
  /-- A brace that opens a block. -/
  | opening
  /-- A brace that closes a block. -/
  | closing
  /-- An annotation that announces an entry. -/
  | marker (name : List Char)
  /-- A brace after a backslash. -/
  | escaped (brace : Char)
  /-- An inline annotation in braces. -/
  | inline (text : List Char)
  /-- Any other character. -/
  | plain (c : Char)
  deriving DecidableEq, Repr

namespace Lexeme

/-- The text from which a lexeme is read. -/
def source : Lexeme → List Char
  | opening => ['{']
  | closing => ['}']
  | marker name => '@' :: name
  | escaped brace => ['\\', brace]
  | inline text => text
  | plain c => [c]

/-- The text for which a lexeme stands, if it stands for text. -/
def text? : Lexeme → Option (List Char)
  | escaped brace => some [brace]
  | inline text => some text
  | plain c => some [c]
  | _ => none

end Lexeme

/-- A blank, or nothing at all. -/
def atBoundary : Option Char → Bool
  | none => true
  | some c => Text.isBlank c

/-- A character of an annotation name. -/
def isNameChar (c : Char) : Bool := Text.isWord c || c == '-'

/-- The part up to and including the first closing brace, and what follows it. -/
def cutInline : List Char → List Char × List Char
  | [] => ([], [])
  | c :: rest =>
    if c == '}' then ([c], rest)
    else
      let (text, after) := cutInline rest
      (c :: text, after)

/-- The lexeme that starts with `c`, the character before `c` being `before`, and what follows it. -/
def firstLexeme (r : Registry) (before : Option Char) (c : Char) (rest : List Char) :
    Lexeme × List Char :=
  if c == '\\' then
    match rest with
    | b :: after => if b == '{' || b == '}' then (.escaped b, after) else (.plain c, rest)
    | [] => (.plain c, rest)
  else if c == '{' then
    if rest.head? == some '@' then
      let (text, after) := cutInline rest
      (.inline (c :: text), after)
    else if atBoundary rest.head? then (.opening, rest)
    else (.plain c, rest)
  else if c == '}' then
    if atBoundary before then (.closing, rest) else (.plain c, rest)
  else if c == '@' && atBoundary before then
    let name := rest.takeWhile isNameChar
    let after := rest.dropWhile isNameChar
    if !name.isEmpty && r.isMarker (String.ofList name) && atBoundary after.head? then
      (.marker name, after)
    else (.plain c, rest)
  else (.plain c, rest)

/-- Cutting an inline annotation leaves no more than there was. -/
theorem length_cutInline_snd_le (s : List Char) : (cutInline s).2.length ≤ s.length := by
  induction s with
  | nil => simp [cutInline]
  | cons c rest ih =>
    simp only [cutInline]
    split
    · simp
    · simp
      omega

/-- What follows the first lexeme is no longer than what follows its first character. -/
theorem length_firstLexeme_snd_le (r : Registry) (before : Option Char) (c : Char)
    (rest : List Char) : (firstLexeme r before c rest).2.length ≤ rest.length := by
  have hcut := length_cutInline_snd_le rest
  have hdrop := (List.dropWhile_suffix (l := rest) isNameChar).length_le
  unfold firstLexeme
  split
  · repeat' split
    all_goals simp
  · split
    · split
      · exact hcut
      · split <;> simp
    · split
      · split <;> simp
      · split
        · dsimp only
          split
          · exact hdrop
          · simp
        · simp

/-- The lexemes of a text, the character before it being `before`. -/
def lexemes (r : Registry) (before : Option Char) : List Char → List Lexeme
  | [] => []
  | c :: rest =>
    let first := firstLexeme r before c rest
    first.1 :: lexemes r first.1.source.getLast? first.2
termination_by s => s.length
decreasing_by
  have := length_firstLexeme_snd_le r before c rest
  simp only [List.length_cons]
  omega

/-! ## Tokens -/

/-- What a token is. -/
inductive TokenKind where
  | opening
  | closing
  | marker
  | text
  deriving DecidableEq, Repr

/-- A structural part of a hash, or a stretch of text between two of them. -/
structure Token where
  kind : TokenKind
  /-- The name of a marker, the text of a stretch of text, the brace itself otherwise. -/
  value : List Char
  /-- How many characters of the text stand before the token. -/
  position : Nat
  deriving DecidableEq, Repr

/-- Put the text of a lexeme at `position` in front of tokens: a stretch of text that follows grows. -/
def joinText (text : List Char) (position : Nat) : List Token → List Token
  | [] => [⟨.text, text, position⟩]
  | t :: rest =>
    if t.kind = .text then ⟨.text, text ++ t.value, position⟩ :: rest
    else ⟨.text, text, position⟩ :: t :: rest

/-- The tokens of lexemes of which the first stands at `position`. -/
def tokensAt (position : Nat) : List Lexeme → List Token
  | [] => []
  | l :: rest =>
    let others := tokensAt (position + l.source.length) rest
    match l with
    | .opening => ⟨.opening, ['{'], position⟩ :: others
    | .closing => ⟨.closing, ['}'], position⟩ :: others
    | .marker name => ⟨.marker, name, position⟩ :: others
    | .escaped brace => joinText [brace] position others
    | .inline text => joinText text position others
    | .plain c => joinText [c] position others

/-- The tokens of a text. -/
def tokenize (r : Registry) (text : List Char) : List Token := tokensAt 0 (lexemes r none text)

end DocTree.Hash
