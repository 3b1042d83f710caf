import DocTree.Text.Alphabet
import DocTree.Yaml.Cursor
import DocTree.Yaml.Error

/-!
# The written forms of a scalar

A scalar is written plainly, between quotes, or as a block of lines below its indicator. In the first
two forms one line break counts as a space, and of several the first is dropped; a block keeps its line
breaks (`|`) or folds them in the same way (`>`).

Each reader takes the cursor at the start of the scalar and returns the text and the cursor behind it.
Loops over lines take the length of the remaining text as their fuel, since each round reads at least
one character.
-/

namespace DocTree.Yaml

/-- What one line break and the breaks after it stand for inside folded text. -/
def folded (first more : List Char) : List Char :=
  if first != ['\n'] then first ++ more
  else if more.isEmpty then [' ']
  else more

/-! ## Quoted -/

/-- The characters that a backslash and a letter stand for. -/
def escapes : List (Char × Char) :=
  [('0', nul), ('a', '\x07'), ('b', '\x08'), ('t', '\t'), ('\t', '\t'), ('n', '\n'), ('v', '\x0b'),
   ('f', '\x0c'), ('r', '\r'), ('e', '\x1b'), (' ', ' '), ('"', '"'), ('\\', '\\'), ('/', '/'),
   ('N', '\u0085'), ('_', '\u00a0'), ('L', '\u2028'), ('P', '\u2029')]

/-- The letters after which a code point is written with that many hexadecimal digits. -/
def codeWidths : List (Char × Nat) := [('x', 2), ('u', 4), ('U', 8)]

/-- The breaks of the empty lines after a line break inside quotes; no document may start or end
there. -/
def emptyLines : Nat → List Char → Cursor → Option (List Char × Cursor)
  | 0, _, _ => none
  | fuel + 1, done, c =>
    if c.atDocumentMark then none
    else
      let c := c.skip fun ch => ch == ' ' || ch == '\t'
      if isBreak c.head then
        let (b, c) := c.takeBreak
        emptyLines fuel (done ++ b) c
      else some (done, c)

/-- The code point written in hexadecimal digits behind a letter, and the cursor behind them. -/
def codePoint? (c : Cursor) : Option (Nat × Cursor) := do
  let (_, width) ← codeWidths.find? (·.1 == c.head)
  let ds := (c.rest.drop 1).take width
  if ds.length == width && ds.all (digitIn 16) then some (ofRadix 16 ds, c.advance (width + 1)) else none

/-- The low half that is written next, behind a backslash, and the cursor behind it. -/
def lowHalf? (c : Cursor) : Option (Nat × Cursor) :=
  if c.head == '\\' then (codePoint? c.next).filter fun r => Text.isLowHalf r.1 else none

/-- What is written by a backslash, from the character after it on. Two halves of a pair are read as the
character that they write together, and a half on its own as the replacement character. -/
def escaped (c : Cursor) : Except Error (List Char × Cursor) :=
  match escapes.find? (·.1 == c.head), codePoint? c with
  | some e, _ => if c.rest.isEmpty then .error .malformed else .ok ([e.2], c.next)
  | none, some (n, after) =>
    match if Text.isHighHalf n then lowHalf? after else none with
    | some (low, behind) => .ok ([Text.Alphabet.unicode.letter (Text.joinHalves n low)], behind)
    | none =>
      if n < 0x110000 then .ok ([Text.Alphabet.unicode.letter n], after) else .error (.noCharacter n)
  | none, none =>
    if isBreak c.head then orMalformed (emptyLines (c.left + 1) [] c.takeBreak.2) else .error .malformed

/-- A quoted scalar after its opening quote; `done` holds what was read. -/
def quotedFrom (quote : Char) : Nat → List Char → Cursor → Except Error (List Char × Cursor)
  | 0, _, _ => .error .malformed
  | fuel + 1, done, c =>
    let ch := c.head
    if c.rest.isEmpty then .error .malformed
    else if ch == ' ' || ch == '\t' || isBreak ch then
      let gap := c.run fun ch => ch == ' ' || ch == '\t'
      let c := c.advance gap.length
      if isBreak c.head then
        let (b, c) := c.takeBreak
        match emptyLines (c.left + 1) [] c with
        | some (more, c) => quotedFrom quote fuel (done ++ folded b more) c
        | none => .error .malformed
      else quotedFrom quote fuel (done ++ gap) c
    else if ch == quote then
      if quote == '\'' && c.ahead 1 == '\'' then quotedFrom quote fuel (done ++ ['\'']) (c.advance 2)
      else .ok (done, c.next)
    else if quote == '"' && ch == '\\' then
      match escaped c.next with
      | .ok (cs, c) => quotedFrom quote fuel (done ++ cs) c
      | .error e => .error e
    else quotedFrom quote fuel (done ++ [ch]) c.next

/-- A quoted scalar. -/
def quotedScalar (c : Cursor) : Except Error (List Char × Cursor) :=
  quotedFrom c.head (c.left + 1) [] c.next

/-! ## Plain -/

/-- A character that only flow collections use. -/
def isFlowMark (c : Char) : Bool := c == ',' || c == '[' || c == ']' || c == '{' || c == '}'

/-- A plain scalar ends before the character `ch`, given the one after it. -/
def endsPlain (inFlow : Bool) (ch after : Char) : Bool :=
  endsWord ch || (ch == ':' && (endsWord after || (inFlow && isFlowMark after))) ||
    (inFlow && (isFlowMark ch || ch == '?'))

/-- The characters of a plain scalar up to a blank or to its end. -/
def plainRun (inFlow : Bool) : List Char → List Char
  | [] => []
  | ch :: rest =>
    if endsPlain inFlow ch (rest.head?.getD nul) then [] else ch :: plainRun inFlow rest

/-- What stands between two runs of a plain scalar. -/
structure PlainGap where
  /-- The characters that the gap stands for; nothing if the scalar ends here. -/
  text : List Char
  cursor : Cursor
  /-- The gap goes over the end of a line. -/
  broken : Bool

/-- The empty lines in a gap; the end of the document is marked by `none`. -/
def gapLines : Nat → List Char → Cursor → Option (List Char) × Cursor
  | 0, done, c => (some done, c)
  | fuel + 1, done, c =>
    if c.head == ' ' then gapLines fuel done c.next
    else if isBreak c.head then
      let (b, c) := c.takeBreak
      if c.atDocumentMark then (none, c) else gapLines fuel (done ++ b) c
    else (some done, c)

/-- The gap after a run of a plain scalar. -/
def plainGap (c : Cursor) : PlainGap :=
  let spaces := c.run (· == ' ')
  let c := c.advance spaces.length
  if isBreak c.head then
    let (b, c) := c.takeBreak
    if c.atDocumentMark then ⟨[], c, true⟩
    else match gapLines (c.left + 1) [] c with
      | (some more, c) => ⟨folded b more, c, true⟩
      | (none, c) => ⟨[], c, true⟩
  else ⟨spaces, c, false⟩

/-- A plain scalar; also whether its end goes over the end of a line. -/
def plainFrom (inFlow : Bool) (indent : Int) :
    Nat → Bool → List Char → List Char → Cursor → List Char × Cursor × Bool
  | 0, broken, _, done, c => (done, c, broken)
  | fuel + 1, broken, gap, done, c =>
    let run := plainRun inFlow c.rest
    if c.head == '#' || run.isEmpty then (done, c, broken)
    else
      let done := done ++ gap ++ run
      let g := plainGap (c.advance run.length)
      if g.text.isEmpty || g.cursor.head == '#' || (!inFlow && (g.cursor.column : Int) < indent) then
        (done, g.cursor, g.broken)
      else plainFrom inFlow indent fuel g.broken g.text done g.cursor

/-- A plain scalar whose further lines are indented at least to the column `indent`. -/
def plainScalar (inFlow : Bool) (indent : Int) (c : Cursor) : List Char × Cursor × Bool :=
  plainFrom inFlow indent (c.left + 1) false [] [] c

/-! ## Blocks -/

/-- What becomes of the line breaks at the end of a block. -/
inductive Chomping where
  /-- None is kept. -/
  | strip
  /-- One is kept. -/
  | clip
  /-- All are kept. -/
  | keep
  deriving DecidableEq, Repr

/-- How a character changes the end of a block. -/
def chomping? (c : Char) : Option Chomping :=
  if c == '-' then some .strip else if c == '+' then some .keep else none

/-- The indentation that a digit asks for. -/
def indentDigit? (c : Char) : Option Nat := if isAsciiDigit c then some (c.toNat - 48) else none

/-- The indicators behind the one that starts a block. -/
def blockHeader? (c : Cursor) : Option (Chomping × Option Nat × Cursor) :=
  let (chomp, digit, c) := match chomping? c.head, indentDigit? c.head with
    | some k, _ => match indentDigit? (c.ahead 1) with
      | some n => (k, some n, c.advance 2)
      | none => (k, none, c.next)
    | none, some n => match chomping? (c.ahead 1) with
      | some k => (k, some n, c.advance 2)
      | none => (.clip, some n, c.next)
    | none, none => (.clip, none, c)
  if digit == some 0 || !endsPart c.head then none
  else c.finishLine?.map fun c => (chomp, digit, c)

/-- The empty lines in front of a block, and the greatest column that their spaces reach. -/
def blockIndent : Nat → List Char → Nat → Cursor → List Char × Nat × Cursor
  | 0, done, deepest, c => (done, deepest, c)
  | fuel + 1, done, deepest, c =>
    if c.head == ' ' then
      let c := c.next
      blockIndent fuel done (max deepest c.column) c
    else if isBreak c.head then
      let (b, c) := c.takeBreak
      blockIndent fuel (done ++ b) deepest c
    else (done, deepest, c)

/-- The empty lines inside a block; ends at the start of the next line's text. -/
def blockBreaks (indent : Nat) : Nat → List Char → Cursor → List Char × Cursor
  | 0, done, c => (done, c)
  | fuel + 1, done, c =>
    let c := c.skipIndent indent
    if isBreak c.head then
      let (b, c) := c.takeBreak
      blockBreaks indent fuel (done ++ b) c
    else (done, c)

/-- The lines of a block: its text, the last line break and the empty lines after it. -/
def blockLines (fold : Bool) (indent : Nat) :
    Nat → List Char → List Char → Cursor → List Char × List Char × List Char × Cursor
  | 0, done, breaks, c => (done, [], breaks, c)
  | fuel + 1, done, breaks, c =>
    let indented (ch : Char) : Bool := ch == ' ' || ch == '\t'
    let flush := !indented c.head
    let line := c.run fun ch => !endsLine ch
    let done := done ++ breaks ++ line
    let (b, c) := (c.advance line.length).takeBreak
    let (breaks, c) := blockBreaks indent (c.left + 1) [] c
    if c.column == indent && !c.rest.isEmpty then
      let joint :=
        if fold && b == ['\n'] && flush && !indented c.head then
          (if breaks.isEmpty then [' '] else [])
        else b
      blockLines fold indent fuel (done ++ joint) breaks c
    else (done, b, breaks, c)

/-- A block below its indicator, inside a collection that is indented to the column `indent`. -/
def blockScalar? (indent : Int) (c : Cursor) : Option (List Char × Cursor) := do
  let fold := c.head == '>'
  let (chomp, digit, c) ← blockHeader? c.next
  let least := (max (indent + 1) 1).toNat
  let (breaks, column, c) := match digit with
    | some n =>
      let column := least + n - 1
      let (breaks, c) := blockBreaks column (c.left + 1) [] c
      (breaks, column, c)
    | none =>
      let (breaks, deepest, c) := blockIndent (c.left + 1) [] 0 c
      (breaks, max least deepest, c)
  let (text, last, breaks, c) :=
    if c.column == column && !c.rest.isEmpty then
      blockLines fold column (c.left + 1) [] breaks c
    else ([], [], breaks, c)
  return match chomp with
    | .strip => (text, c)
    | .clip => (text ++ last, c)
    | .keep => (text ++ last ++ breaks, c)

end DocTree.Yaml
