import DocTree.Text.Blank
import DocTree.Text.Word

/-!
# Code points

A text is a row of code points. Those from U+D800 to U+DFFF are halves: a high half and a low half
together write one code point beyond U+FFFF, and neither is a character. A document may still spell a
half on its own, and so a text may hold one.

Characters are all that texts are made of here. A text with halves in it is a row of characters, some of
which, that it has no other use for, stand for the halves; the `Alphabet` says what each character stands
for. Blanks, word characters and ASCII stand for themselves in every alphabet, and they are all that the
parser of a hash tells apart.
-/

namespace DocTree.Text

/-- The code points that are first halves of pairs. -/
def isHighHalf (n : Nat) : Bool := 0xD800 ≤ n && n < 0xDC00

/-- The code points that are second halves of pairs. -/
def isLowHalf (n : Nat) : Bool := 0xDC00 ≤ n && n < 0xE000

/-- The code point that two halves write together. -/
def joinHalves (high low : Nat) : Nat := 0x10000 + (high - 0xD800) * 0x400 + (low - 0xDC00)

/-- The first half of a code point beyond U+FFFF. -/
def highHalf (n : Nat) : Nat := 0xD800 + (n - 0x10000) / 0x400

/-- The second half of a code point beyond U+FFFF. -/
def lowHalf (n : Nat) : Nat := 0xDC00 + (n - 0x10000) % 0x400

/-- A character that stands for itself in every alphabet. -/
def isFixed (c : Char) : Bool := c.toNat < 0x80 || isBlank c || isWord c

/-- What the characters of a text stand for: each for a code point of its own. -/
structure Alphabet where
  point : Char → Nat
  /-- The character that stands for a code point, or another one if there is none. -/
  letter : Nat → Char
  letter_point : ∀ c, letter (point c) = c
  point_lt : ∀ c, point c < 0x110000
  point_of_fixed : ∀ c, isFixed c = true → point c = c.toNat

/-- The alphabet in which every character stands for itself; a half is replaced. -/
def Alphabet.unicode : Alphabet where
  point := Char.toNat
  letter n := if n.isValidChar then Char.ofNat n else '\ufffd'
  letter_point c := by
    have hvalid : c.toNat.isValidChar := c.valid
    rw [if_pos hvalid, Char.ofNat_toNat]
  point_lt c := by
    have hvalid : c.toNat.isValidChar := c.valid
    rw [Nat.isValidChar] at hvalid
    omega
  point_of_fixed _ _ := rfl

end DocTree.Text
