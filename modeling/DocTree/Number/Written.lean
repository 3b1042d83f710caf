import DocTree.Number.Binary64
import DocTree.Number.Radix
import DocTree.Text.Blank
import DocTree.Text.Digit

/-!
# Numbers as people write them

A number in a setting may have white space around it, a sign, decimal digits of any script, and single
underscores between the digits. An integer has at most `maxDigits` digits: a text with more of them is no
integer, and a setting keeps it as a text. The limit is part of how settings are read; where numbers are
shown, or read and written as documents, limits on digits are left out. A number with a fraction has digits
before or after its point, and may have an exponent.
-/

namespace DocTree

/-- The greatest number of digits of a written integer. -/
def maxDigits : Nat := 4300

/-- Digits of any script with single underscores between them, as ASCII digits. -/
def digitGroups? (s : List Char) : Option (List Char) :=
  let groups := Text.splitWhere (· == '_') s
  if groups.all fun g => !g.isEmpty && g.all Text.isDigit then
    some (groups.flatten.map fun c => Char.ofNat (48 + (Text.digitValue? c).getD 0))
  else none

/-- As `digitGroups?`, where no digits at all are fine too. -/
def optionalGroups? (s : List Char) : Option (List Char) :=
  if s.isEmpty then some [] else digitGroups? s

/-- A sign, if there is one: whether it is a minus, and what follows it. -/
def takeSign : List Char → Bool × List Char
  | '-' :: rest => (true, rest)
  | '+' :: rest => (false, rest)
  | s => (false, s)

/-- The integer that a text writes. -/
def writtenInteger? (s : List Char) : Option Int := do
  let (negative, body) := takeSign (Text.stripSpace s)
  let ds ← digitGroups? body
  if maxDigits < ds.length then none
  else
    let n : Int := ofDigits ds
    return if negative then -n else n

/-- The exponent that a text writes. -/
def writtenExponent? (s : List Char) : Option Int := do
  let (negative, body) := takeSign s
  let ds ← digitGroups? body
  let n : Int := ofDigits ds
  return if negative then -n else n

/-- The number with a fraction that a text writes. -/
def writtenDecimal? (s : List Char) : Option Binary64 := do
  let (negative, body) := takeSign (Text.stripSpace s)
  let isExponentMark (c : Char) : Bool := c == 'e' || c == 'E'
  let mantissa := body.takeWhile fun c => !isExponentMark c
  let exponent ← match body.dropWhile fun c => !isExponentMark c with
    | [] => some 0
    | _ :: rest => writtenExponent? rest
  let whole ← optionalGroups? (mantissa.takeWhile (· != '.'))
  let fraction ← optionalGroups? ((mantissa.dropWhile (· != '.')).drop 1)
  if whole.isEmpty && fraction.isEmpty then none
  else return Binary64.ofDecimal negative (ofDigits (whole ++ fraction)) (exponent - fraction.length)

end DocTree
