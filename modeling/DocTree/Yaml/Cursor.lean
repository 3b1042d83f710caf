/-!
# A place in a text

A cursor is what is left of a text together with the line and the column where it starts. Columns
count from the last line break; the byte order mark takes none. Past the end of the text the cursor
sees the character NUL, which no text contains.
-/

namespace DocTree.Yaml

/-- What a cursor sees past the end of the text. -/
def nul : Char := Char.ofNat 0

/-- A character that ends a line. -/
def isBreak (c : Char) : Bool := c == '\n' || c == '\u0085' || c == '\u2028' || c == '\u2029'

/-- A line break, or the end of the text. -/
def endsLine (c : Char) : Bool := isBreak c || c == nul

/-- A space, a line break or the end of the text. -/
def endsPart (c : Char) : Bool := endsLine c || c == ' '

/-- A blank, a line break or the end of the text. -/
def endsWord (c : Char) : Bool := endsPart c || c == '\t'

/-- A place in a text. -/
structure Cursor where
  rest : List Char
  index : Nat
  line : Nat
  column : Nat
  deriving Repr

namespace Cursor

/-- The start of a text. -/
def start (text : List Char) : Cursor := ⟨text, 0, 0, 0⟩

/-- The character that many places ahead. -/
def ahead (c : Cursor) (k : Nat) : Char := (c.rest[k]?).getD nul

/-- The next character. -/
def head (c : Cursor) : Char := c.rest.head?.getD nul

/-- Move past the next character. -/
def next (c : Cursor) : Cursor :=
  match c.rest with
  | [] => c
  | ch :: rest =>
    if isBreak ch then ⟨rest, c.index + 1, c.line + 1, 0⟩
    else ⟨rest, c.index + 1, c.line, if ch == '\ufeff' then c.column else c.column + 1⟩

/-- Move past a number of characters. -/
def advance : Nat → Cursor → Cursor
  | 0, c => c
  | n + 1, c => advance n c.next

/-- The characters up to the first one that does not satisfy `p`. -/
def run (p : Char → Bool) (c : Cursor) : List Char := c.rest.takeWhile p

/-- Move past the characters up to the first one that does not satisfy `p`. -/
def skip (p : Char → Bool) (c : Cursor) : Cursor := c.advance (c.run p).length

/-- Move past spaces, but not beyond a column. -/
def skipIndent (column : Nat) (c : Cursor) : Cursor :=
  c.advance (min (column - c.column) (c.run (· == ' ')).length)

/-- Move past a line break, if there is one; what it stands for in a scalar. -/
def takeBreak (c : Cursor) : List Char × Cursor :=
  let ch := c.head
  if ch == '\n' || ch == '\u0085' then (['\n'], c.next)
  else if ch == '\u2028' || ch == '\u2029' then ([ch], c.next)
  else ([], c)

/-- The text goes on with three times the same character and then a word ends. -/
def atMark (mark : Char) (c : Cursor) : Bool :=
  c.ahead 0 == mark && c.ahead 1 == mark && c.ahead 2 == mark && endsWord (c.ahead 3)

/-- The text goes on with the mark that starts or the one that ends a document. -/
def atDocumentMark (c : Cursor) : Bool := c.atMark '-' || c.atMark '.'

/-- Move past spaces and a comment. -/
def skipComment (c : Cursor) : Cursor :=
  let c := c.skip (· == ' ')
  if c.head == '#' then c.skip (fun ch => !endsLine ch) else c

/-- Move past the rest of a line that holds nothing but a comment. -/
def finishLine? (c : Cursor) : Option Cursor :=
  let c := c.skipComment
  if endsLine c.head then some c.takeBreak.2 else none

/-- How much is left of the text. -/
def left (c : Cursor) : Nat := c.rest.length

end Cursor

end DocTree.Yaml
