import DocTree.Number.Radix
import DocTree.Text.Alphabet
import DocTree.Value.Basic

/-!
# Documents read from JSON

The reader accepts the JSON grammar and the three names `NaN`, `Infinity` and `-Infinity` for numbers
that JSON cannot write. A number without fraction and exponent is an integer of any size, and a document
may be nested to any depth: limits that a platform sets on either are left out. Where a field is
written twice, it keeps its first place and its last value. What a string holds is code points, and the
alphabet says which characters stand for them; `read?` reads texts in which every character stands for
itself.

Each function takes the text from where it stands and returns what it read together with the rest.
The amount of fuel is twice the length of the text, which no reading can exceed, because of two steps
one after another at least one reads a character.
-/

namespace DocTree.Json

/-- White space between the parts of a JSON text. -/
def isSpace (c : Char) : Bool := c == ' ' || c == '\t' || c == '\n' || c == '\r'

/-- Skip white space. -/
def skipSpace (s : List Char) : List Char := s.dropWhile isSpace

/-- The number that four hexadecimal digits write. -/
def hex4? : List Char → Option (Nat × List Char)
  | a :: b :: c :: d :: rest =>
    if [a, b, c, d].all (digitIn 16) then some (ofRadix 16 [a, b, c, d], rest) else none
  | _ => none

/-- What follows `word`, if the text starts with it. -/
def after? : List Char → List Char → Option (List Char)
  | [], s => some s
  | _ :: _, [] => none
  | a :: w, c :: s => if a == c then after? w s else none

/-! ## Strings -/

/-- The unit that a text starts with, if it starts with one that is spelled out. -/
def unit? (s : List Char) : Option (Nat × List Char) := (after? ['\\', 'u'] s).bind hex4?

/-- The code point that starts with the unit `n`: two halves that follow one another are one. -/
def joinUnits (n : Nat) (rest : List Char) : Nat × List Char :=
  if Text.isHighHalf n then
    match unit? rest with
    | some (low, rest') => if Text.isLowHalf low then (Text.joinHalves n low, rest') else (n, rest)
    | none => (n, rest)
  else (n, rest)

/-- The code point written by the letter after a backslash. -/
def escape? (c : Char) : Option Nat :=
  match c with
  | '"' => some 0x22
  | '\\' => some 0x5C
  | '/' => some 0x2F
  | 'b' => some 0x08
  | 'f' => some 0x0C
  | 'n' => some 0x0A
  | 'r' => some 0x0D
  | 't' => some 0x09
  | _ => none

section

variable (a : Text.Alphabet)

/-- The rest of a string, after its opening quote; `done` holds what was read, last first. -/
def readString : Nat → List Char → List Char → Option (String × List Char)
  | 0, _, _ => none
  | fuel + 1, done, s =>
    match s with
    | '"' :: rest => some (String.ofList done.reverse, rest)
    | '\\' :: 'u' :: rest => do
      let (n, rest) ← hex4? rest
      let (n, rest) := joinUnits n rest
      readString fuel (a.letter n :: done) rest
    | '\\' :: e :: rest => do
      let n ← escape? e
      readString fuel (a.letter n :: done) rest
    | c :: rest => if c.toNat < 0x20 then none else readString fuel (a.letter c.toNat :: done) rest
    | [] => none

end

/-! ## Numbers -/

/-- The digits before the point: a zero, or digits that do not start with one. -/
def readWhole : List Char → Option (List Char × List Char)
  | '0' :: rest => some (['0'], rest)
  | s =>
    let ds := s.takeWhile isAsciiDigit
    if ds.isEmpty then none else some (ds, s.dropWhile isAsciiDigit)

/-- The digits after the point, if there are any. -/
def readFraction (s : List Char) : List Char × List Char :=
  match s with
  | '.' :: rest =>
    let ds := rest.takeWhile isAsciiDigit
    if ds.isEmpty then ([], s) else (ds, rest.dropWhile isAsciiDigit)
  | _ => ([], s)

/-- The exponent, if there is one. -/
def readExponent (s : List Char) : Option Int × List Char :=
  match s with
  | e :: rest =>
    if e == 'e' || e == 'E' then
      let (negative, digits) := match rest with
        | '-' :: r => (true, r)
        | '+' :: r => (false, r)
        | r => (false, r)
      let ds := digits.takeWhile isAsciiDigit
      if ds.isEmpty then (none, s)
      else
        let n : Int := ofDigits ds
        (some (if negative then -n else n), digits.dropWhile isAsciiDigit)
    else (none, s)
  | [] => (none, s)

/-- A number after its sign. -/
def readUnsigned (negative : Bool) (s : List Char) : Option (Value × List Char) := do
  let (whole, rest) ← readWhole s
  let (fraction, rest) := readFraction rest
  let (exponent?, rest) := readExponent rest
  if fraction.isEmpty && exponent?.isNone then
    let n : Int := ofDigits whole
    return (.int (if negative then -n else n), rest)
  else
    let power := exponent?.getD 0 - fraction.length
    return (.float (Binary64.ofDecimal negative (ofDigits (whole ++ fraction)) power), rest)

/-- A number or the name of one. -/
def readNumber (s : List Char) : Option (Value × List Char) :=
  match s with
  | '-' :: rest =>
    match after? "Infinity".toList rest with
    | some rest => some (.float (.infinite true), rest)
    | none => readUnsigned true rest
  | _ => readUnsigned false s

/-! ## Values -/

/-- The words of JSON and their values. -/
def words : List (String × Value) :=
  [("null", .null), ("true", .bool true), ("false", .bool false), ("NaN", .float .nan),
   ("Infinity", .float (.infinite false))]

/-- A word of JSON. -/
def readWord (s : List Char) : Option (Value × List Char) :=
  words.findSome? fun w => (after? w.1.toList s).map fun rest => (w.2, rest)

section

variable (a : Text.Alphabet)

mutual

/-- A value, after white space. -/
def readValue : Nat → List Char → Option (Value × List Char)
  | 0, _ => none
  | fuel + 1, s =>
    match s with
    | '"' :: rest => do
      let (t, rest) ← readString a (fuel + 1) [] rest
      return (.str t, rest)
    | '[' :: rest =>
      match skipSpace rest with
      | ']' :: rest => some (.list [], rest)
      | rest => readItems fuel [] rest
    | '\x7b' :: rest =>
      match skipSpace rest with
      | '\x7d' :: rest => some (.map [], rest)
      | rest => readFields fuel [] rest
    | c :: _ => if c == '-' || isAsciiDigit c then readNumber s else readWord s
    | [] => none

/-- The rest of a list, from its next item on. -/
def readItems : Nat → List Value → List Char → Option (Value × List Char)
  | 0, _, _ => none
  | fuel + 1, done, s => do
    let (v, rest) ← readValue fuel s
    match skipSpace rest with
    | ',' :: rest => readItems fuel (v :: done) (skipSpace rest)
    | ']' :: rest => some (.list (v :: done).reverse, rest)
    | _ => none

/-- The rest of a mapping, from its next field on. -/
def readFields : Nat → List (Scalar × Value) → List Char → Option (Value × List Char)
  | 0, _, _ => none
  | fuel + 1, done, s =>
    match s with
    | '"' :: rest => do
      let (name, rest) ← readString a (fuel + 1) [] rest
      match skipSpace rest with
      | ':' :: rest =>
        let (v, rest) ← readValue fuel (skipSpace rest)
        let done := (.str name, v) :: done
        match skipSpace rest with
        | ',' :: rest => readFields fuel done (skipSpace rest)
        | '\x7d' :: rest => some (.map (Entries.ofList done.reverse), rest)
        | _ => none
      | _ => none
    | _ => none

end

/-- The document over an alphabet that a whole text writes. -/
def readIn? (text : List Char) : Option Value :=
  match readValue a (2 * text.length + 2) (skipSpace text) with
  | some (v, rest) => if (skipSpace rest).isEmpty then some v else none
  | none => none

end

/-- The document that a whole text writes. -/
def read? (text : List Char) : Option Value := readIn? .unicode text

end DocTree.Json
