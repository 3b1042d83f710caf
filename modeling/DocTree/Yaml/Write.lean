import DocTree.Text.Quoted
import DocTree.Yaml.Plain

/-!
# Documents written as YAML

Mappings and sequences are written as blocks, an entry or item a line, two columns further in for each
mapping inside a mapping; a sequence in a mapping starts at the column of its key. Empty ones are
written as `[]` and in braces.

A text is written plainly if it then reads back as itself, between single quotes if its characters are
printable ASCII, and between double quotes with escapes otherwise. A line goes on to about eighty
columns: beyond that a single space, or in double quotes any place after an escape, ends it, and the
text continues on the next line, two columns inside the entry.
-/

namespace DocTree.Yaml

/-- The column after which a line is broken. -/
def lineWidth : Nat := 80

/-- A line break and the indentation of the next line. -/
def newLine (indent : Nat) : List Char := '\n' :: List.replicate indent ' '

/-- Printable ASCII. -/
def isPlainChar (c : Char) : Bool := ' ' ≤ c && c ≤ '~'

/-- Two neighbours satisfy `p`. -/
def hasNeighbours (p : Char → Char → Bool) : List Char → Bool
  | a :: b :: rest => p a b || hasNeighbours p (b :: rest)
  | _ => false

/-! ## The choice of a form -/

/-- A text that starts with a sign of the format. -/
def startsWithSign : List Char → Bool
  | c :: rest =>
    "#,[]\x7b\x7d&*!|>'\"%@`".toList.contains c ||
      ((c == '?' || c == ':' || c == '-') && (rest.head?.getD ' ' == ' '))
  | [] => false

/-- A text inside which a comment or a value would start. -/
def containsSign (s : List Char) : Bool :=
  hasNeighbours (fun a b => (a == ' ' && b == '#') || (a == ':' && b == ' ')) s ||
    s.getLast? == some ':'

/-- A text that starts like the mark of a document. -/
def startsLikeMark : List Char → Bool
  | '-' :: '-' :: '-' :: _ => true
  | '.' :: '.' :: '.' :: _ => true
  | _ => false

/-- A text can be written without quotes. -/
def canBePlain (s : List Char) : Bool :=
  isText s && s.all isPlainChar && s.head? != some ' ' && s.getLast? != some ' ' &&
    !startsWithSign s && !containsSign s && !startsLikeMark s

/-- A text can be written between single quotes. -/
def canBeSingle (s : List Char) : Bool :=
  s.all (fun c => isPlainChar c || c == '\n') &&
    !hasNeighbours (fun a b => (a == ' ' && b == '\n') || (a == '\n' && b == ' ')) s

/-! ## Plain and single-quoted texts -/

/-- A part of a text: a run of spaces, of line feeds, or of other characters. -/
inductive Run where
  | spaces (n : Nat)
  | breaks (n : Nat)
  | word (cs : List Char)
  deriving DecidableEq, Repr

/-- Put a character in front of runs. -/
def addToRuns (c : Char) (runs : List Run) : List Run :=
  if c == ' ' then match runs with
    | .spaces n :: rest => .spaces (n + 1) :: rest
    | _ => .spaces 1 :: runs
  else if c == '\n' then match runs with
    | .breaks n :: rest => .breaks (n + 1) :: rest
    | _ => .breaks 1 :: runs
  else match runs with
    | .word cs :: rest => .word (c :: cs) :: rest
    | _ => .word [c] :: runs

/-- The runs of a text. -/
def runsOf (s : List Char) : List Run := s.foldr addToRuns []

/-- Write runs from a column on. Where lines may be broken, a space that is neither first nor last is
replaced by a new line if it stands beyond the width. -/
def writeRuns (indent : Nat) (split : Bool) : Bool → Nat → List Run → List Char
  | _, _, [] => []
  | first, column, .spaces n :: rest =>
    if n == 1 && lineWidth < column && split && !first && !rest.isEmpty then
      newLine indent ++ writeRuns indent split false indent rest
    else List.replicate n ' ' ++ writeRuns indent split false (column + n) rest
  | _, _, .breaks n :: rest =>
    List.replicate n '\n' ++ newLine indent ++ writeRuns indent split false indent rest
  | _, column, .word cs :: rest => cs ++ writeRuns indent split false (column + cs.length) rest

/-- A text with its single quotes doubled. -/
def doubleQuotes (s : List Char) : List Char :=
  s.flatMap fun c => if c == '\'' then ['\'', '\''] else [c]

/-! ## Double-quoted texts -/

/-- The letters that stand for characters after a backslash. -/
def escapeLetters : List (Char × Char) :=
  [(Char.ofNat 0, '0'), ('\x07', 'a'), ('\x08', 'b'), ('\t', 't'), ('\n', 'n'), ('\x0b', 'v'),
   ('\x0c', 'f'), ('\r', 'r'), ('\x1b', 'e'), ('"', '"'), ('\\', '\\'), ('\u0085', 'N'),
   ('\u00a0', '_'), ('\u2028', 'L'), ('\u2029', 'P')]

/-- Capital hexadecimal digits. -/
def capitalHex (width n : Nat) : List Char := (Text.hexDigits width n).map Char.toUpper

/-- How a character is written with a backslash, if it needs one. -/
def escapeOf? (c : Char) : Option (List Char) :=
  match escapeLetters.find? (·.1 == c) with
  | some e => some ['\\', e.2]
  | none =>
    if isPlainChar c then none
    else if c.toNat ≤ 0xFF then some ('\\' :: 'x' :: capitalHex 2 c.toNat)
    else if c.toNat ≤ 0xFFFF then some ('\\' :: 'u' :: capitalHex 4 c.toNat)
    else some ('\\' :: 'U' :: capitalHex 8 c.toNat)

/-- A backslash in front of a space that starts a line. -/
def guardSpace (c : Option Char) : List Char := if c == some ' ' then ['\\'] else []

/-- Write the inside of double quotes. The characters that have no escape wait in `pending`, last
first, until a place is reached where the line may be broken. -/
def writeEscaped (indent : Nat) (split : Bool) :
    Bool → Nat → List Char → List Char → List Char
  | _, _, pending, [] => pending.reverse
  | first, column, pending, c :: rest =>
    let inside := split && !first && !rest.isEmpty
    match escapeOf? c with
    | some e =>
      let written := pending.reverse ++ e
      let column := column + written.length
      if inside && lineWidth + 1 < column then
        let guarded := guardSpace rest.head?
        written ++ '\\' :: newLine indent ++ guarded ++
          writeEscaped indent split false (indent + guarded.length) [] rest
      else written ++ writeEscaped indent split false column [] rest
    | none =>
      if inside && (c == ' ' || pending.isEmpty) && lineWidth < column + pending.length then
        let guarded := guardSpace (some c)
        pending.reverse ++ '\\' :: newLine indent ++ guarded ++
          writeEscaped indent split false (indent + guarded.length) [c] rest
      else writeEscaped indent split false column (c :: pending) rest

/-! ## Scalars -/

/-- A text, written from a column on; its further lines are indented. -/
def writeText (indent : Nat) (split : Bool) (column : Nat) (s : List Char) : List Char :=
  if canBePlain s then writeRuns indent split true column (runsOf s)
  else if canBeSingle s then
    '\'' :: writeRuns indent split true (column + 1) (runsOf (doubleQuotes s)) ++ ['\'']
  else '"' :: writeEscaped indent split true (column + 1) [] s ++ ['"']

/-- A scalar, written from a column on. -/
def writeScalar (indent : Nat) (split : Bool) (column : Nat) : Scalar → List Char
  | .null => "null".toList
  | .bool b => (if b then "true" else "false").toList
  | .int n => (toString n).toList
  | .float .nan => ".nan".toList
  | .float (.infinite negative) => (if negative then "-.inf" else ".inf").toList
  | .float x => x.text.toList
  | .time m => m.text.toList
  | .str s => writeText indent split column s.toList

/-- A key that stands in front of its colon: a text of one line that is neither empty nor long. -/
def isSimpleKey : Scalar → Bool
  | .str s => s != "" && !s.toList.contains '\n' && s.length < 123
  | _ => true

/-! ## Collections -/

/-- Pieces of text, each one on lines of its own. -/
def onLines (indent : Nat) (pieces : List (List Char)) : List Char := (newLine indent).intercalate pieces

/-- An empty mapping. -/
def emptyMapping : List Char := ['{', '}']

mutual

/-- A value behind a key at the column `indent`, written from the column `column` on. -/
def writeValue (indent column : Nat) : Value → List Char
  | .scalar s => ' ' :: writeScalar (indent + 2) true (column + 1) s
  | .list items =>
    if items.isEmpty then " []".toList
    else newLine indent ++ onLines indent (writeItems indent items)
  | .map entries =>
    if entries.isEmpty then ' ' :: emptyMapping
    else newLine (indent + 2) ++ onLines (indent + 2) (writeEntries (indent + 2) entries)

/-- A value behind a sign at the column `indent`, on the same line. -/
def writeInline (indent : Nat) : Value → List Char
  | .scalar s => ' ' :: writeScalar (indent + 2) true (indent + 2) s
  | .list items =>
    if items.isEmpty then " []".toList
    else ' ' :: onLines (indent + 2) (writeItems (indent + 2) items)
  | .map entries =>
    if entries.isEmpty then ' ' :: emptyMapping
    else ' ' :: onLines (indent + 2) (writeEntries (indent + 2) entries)

/-- The items of a sequence, each behind a hyphen at the column `indent`. -/
def writeItems (indent : Nat) : List Value → List (List Char)
  | [] => []
  | v :: rest => ('-' :: writeInline indent v) :: writeItems indent rest

/-- The entries of a mapping, each at the column `indent`. A key that is not simple stands behind a
question mark, and its value behind a colon on a line of its own. -/
def writeEntries (indent : Nat) : List (Scalar × Value) → List (List Char)
  | [] => []
  | (k, v) :: rest =>
    let entry :=
      if isSimpleKey k then
        let key := writeScalar (indent + 2) false indent k
        key ++ ':' :: writeValue indent (indent + key.length + 1) v
      else
        '?' :: ' ' :: writeScalar (indent + 2) true (indent + 2) k ++ newLine indent ++
          ':' :: writeInline indent v
    entry :: writeEntries indent rest

end

/-- A mapping as a document. -/
def write (entries : Entries) : String :=
  String.ofList
    ((if entries.isEmpty then emptyMapping else onLines 0 (writeEntries 0 entries)) ++ ['\n'])

end DocTree.Yaml
