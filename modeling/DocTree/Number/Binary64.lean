import DocTree.Number.Radix

/-!
# Binary floating-point numbers

Numbers with a fraction are those of the 64-bit binary format. A finite one is stored as its
significand and exponent, so that its value is `± significand * 2 ^ exponent` and every question
about it is one about natural numbers.

* `ofDecimal` reads a decimal: the nearest number, a tie going to the even significand.
* `shortest` writes one: the fewest digits that read back. For one digit, two digits and so on it
  tries the two neighbours of the value among the decimals with that many digits; the first length
  with a decimal that reads back wins, of two decimals the nearer one, of two equally near ones the
  even one. Seventeen digits always read back.
* `text` lays the digits out: positional from `0.0001` up to sixteen digits before the point, with an
  exponent elsewhere.
-/

namespace DocTree

/-- A number of the 64-bit binary format. -/
inductive Binary64 where
  | nan
  | infinite (negative : Bool)
  /-- The number `± significand * 2 ^ exponent`. -/
  | finite (negative : Bool) (significand : Nat) (exponent : Int)
  deriving DecidableEq, Repr

namespace Binary64

/-- A quotient rounded to the nearest natural number, a tie going to the even one. -/
def roundDiv (a b : Nat) : Nat :=
  let q := a / b
  let r := a % b
  if 2 * r < b then q
  else if 2 * r > b then q + 1
  else if q % 2 == 0 then q else q + 1

/-- The quotient `a / b`, multiplied by `2 ^ -e` and rounded. -/
def scaled (a b : Nat) (e : Int) : Nat :=
  if e < 0 then roundDiv (a * powTwo (-e).toNat) b else roundDiv a (b * powTwo e.toNat)

/-- The quotient `a / b` is less than `2 ^ e`. -/
def below (a b : Nat) (e : Int) : Bool :=
  if e < 0 then a * powTwo (-e).toNat < b else a < b * powTwo e.toNat

/-- The least exponent of the format. -/
def minExponent : Int := -1074

/-- The greatest exponent of the format. -/
def maxExponent : Int := 971

/-- The number nearest to the positive quotient `a / b`. -/
def ofQuotient (negative : Bool) (a b : Nat) : Binary64 :=
  let guess : Int := (a.log2 : Int) - (b.log2 : Int) - 52
  let exact := if below a b (guess + 52) then guess - 1 else guess
  let e := max exact minExponent
  let m := scaled a b e
  let (m, e) := if m == powTwo 53 then (powTwo 52, e + 1) else (m, e)
  if e > maxExponent then infinite negative else finite negative m e

/-- The zero with a sign. -/
def zero (negative : Bool) : Binary64 := finite negative 0 minExponent

/-- How many decimal digits a natural number has. -/
def digitCount (n : Nat) : Nat := (Nat.toDigits 10 n).length

/-- The number nearest to the decimal `± digits * 10 ^ power`. -/
def ofDecimal (negative : Bool) (digits : Nat) (power : Int) : Binary64 :=
  if digits == 0 then zero negative
  else
    let magnitude := (digitCount digits : Int) + power
    if magnitude > 400 then infinite negative
    else if magnitude < -400 then zero negative
    else if power < 0 then ofQuotient negative digits (powTen (-power).toNat)
    else ofQuotient negative (digits * powTen power.toNat) 1

/-- The integer that a number equals, if it has no fraction. -/
def toInt? : Binary64 → Option Int
  | finite negative m e =>
    let magnitude? : Option Nat :=
      if 0 ≤ e then some (m * powTwo e.toNat)
      else if m % powTwo (-e).toNat == 0 then some (m / powTwo (-e).toNat)
      else none
    magnitude?.map fun n => if negative then -(n : Int) else n
  | _ => none

/-- Neither infinite nor undefined. -/
def isFinite : Binary64 → Bool
  | finite .. => true
  | _ => false

/-! ## Writing -/

/-- Numerator and denominator of `m * 2 ^ e`. -/
def quotient (m : Nat) (e : Int) : Nat × Nat :=
  if 0 ≤ e then (m * powTwo e.toNat, 1) else (m, powTwo (-e).toNat)

/-- The quotient `a / b` is less than `10 ^ k`. -/
def belowTen (a b : Nat) (k : Int) : Bool :=
  if k < 0 then a * powTen (-k).toNat < b else a < b * powTen k.toNat

/-- The power of ten just above a positive quotient: `10 ^ (k - 1) ≤ a / b < 10 ^ k`. -/
def decimalPoint (a b : Nat) : Int :=
  let d : Int := (digitCount a : Int) - (digitCount b : Int)
  if belowTen a b d then d else d + 1

/-- The quotient `a / b` divided by `10 ^ x`, as numerator and denominator. -/
def overTen (a b : Nat) (x : Int) : Nat × Nat :=
  if x < 0 then (a * powTen (-x).toNat, b) else (a, b * powTen x.toNat)

/-- Among the two decimals `c * 10 ^ x` around `m * 2 ^ e`, the nearest one that reads back. -/
def neighbour? (m : Nat) (e : Int) (x : Int) : Option Nat :=
  let (a, b) := quotient m e
  let (p, q) := overTen a b x
  let low := p / q
  let readsBack (c : Nat) : Bool := c != 0 && ofDecimal false c x == finite false m e
  let nearLow := 2 * (p % q) < q || (2 * (p % q) == q && low % 2 == 0)
  match readsBack low, readsBack (low + 1) with
  | true, true => some (if nearLow then low else low + 1)
  | true, false => some low
  | false, true => some (low + 1)
  | false, false => none

/-- Try the lengths from `n` digits on, `left` of them, for a value just below `10 ^ k`. -/
def shortestFrom (m : Nat) (e k : Int) : Nat → Nat → Nat × Int
  | _, 0 => (0, 0)
  | n, left + 1 =>
    let x := k - n
    match neighbour? m e x with
    | some c => (c, x)
    | none => shortestFrom m e k (n + 1) left

/-- Digits and power of ten of the shortest decimal that reads back as `m * 2 ^ e`. -/
def shortest (m : Nat) (e : Int) : Nat × Int :=
  let (a, b) := quotient m e
  shortestFrom m e (decimalPoint a b) 1 17

/-- Digits laid out so that the point stands after `point` of them. -/
def layOut (digits : List Char) (point : Int) : List Char :=
  let n := digits.length
  if -4 < point && point ≤ 16 then
    if point ≤ 0 then '0' :: '.' :: (List.replicate (-point).toNat '0' ++ digits)
    else if (n : Int) ≤ point then
      digits ++ List.replicate (point.toNat - n) '0' ++ ['.', '0']
    else digits.take point.toNat ++ '.' :: digits.drop point.toNat
  else
    let mantissa := match digits with
      | [] => []
      | [d] => [d]
      | d :: ds => d :: '.' :: ds
    let power := point - 1
    let ds := Nat.toDigits 10 power.natAbs
    mantissa ++ 'e' :: (if power < 0 then '-' else '+') ::
      (List.replicate (2 - ds.length) '0' ++ ds)

/-- A number as text. -/
def text : Binary64 → String
  | nan => "nan"
  | infinite negative => if negative then "-inf" else "inf"
  | finite negative m e =>
    let body :=
      if m == 0 then ['0', '.', '0']
      else
        let (c, x) := shortest m e
        let ds := Nat.toDigits 10 c
        layOut ((ds.reverse.dropWhile (· == '0')).reverse) (ds.length + x)
    String.ofList (if negative then '-' :: body else body)

end Binary64

end DocTree
