/-!
# Natural numbers written in a radix

Digits above nine are the letters from `a`, in either case. `ofRadix` reads digits from the most
significant one on, and `digitIn` is the class of digits of a radix.
-/

namespace DocTree

/-- The value of an ASCII digit or letter as a digit. -/
def digitValueOf? (c : Char) : Option Nat :=
  if '0' ≤ c && c ≤ '9' then some (c.toNat - 48)
  else if 'a' ≤ c && c ≤ 'z' then some (c.toNat - 87)
  else if 'A' ≤ c && c ≤ 'Z' then some (c.toNat - 55)
  else none

/-- A digit of a radix. -/
def digitIn (radix : Nat) (c : Char) : Bool :=
  match digitValueOf? c with
  | some d => d < radix
  | none => false

/-- A power of two. -/
def powTwo (k : Nat) : Nat := Nat.pow 2 k

/-- A power of ten. -/
def powTen (k : Nat) : Nat := Nat.pow 10 k

/-- An ASCII digit. -/
def isAsciiDigit (c : Char) : Bool := '0' ≤ c && c ≤ '9'

/-- The number that digits write, the most significant one first. -/
def ofRadix (radix : Nat) (ds : List Char) : Nat :=
  ds.foldl (fun n d => radix * n + (digitValueOf? d).getD 0) 0

/-- The number that decimal digits write. -/
def ofDigits (ds : List Char) : Nat := ofRadix 10 ds

@[simp] theorem ofRadix_nil (radix : Nat) : ofRadix radix [] = 0 := rfl

@[simp] theorem ofRadix_append_singleton (radix : Nat) (ds : List Char) (d : Char) :
    ofRadix radix (ds ++ [d]) = radix * ofRadix radix ds + (digitValueOf? d).getD 0 := by
  simp [ofRadix]

end DocTree
