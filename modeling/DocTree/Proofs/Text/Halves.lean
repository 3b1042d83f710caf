import DocTree.Text.Alphabet
import Mathlib.Data.List.Chain

/-!
# Halves that stand side by side

Where a text is spelled in halves, a high half and the low half behind it are taken for one code point,
even if they are two characters of the text. `Alphabet.joined` is what is left of a text then. A text
without such halves is left as it is (`Alphabet.joined_eq_self_iff`), and the characters that have a
meaning of their own are no halves.

An alphabet in which all halves have a character is `Alphabet.withHalves`: any text without the characters
that it uses up for them is a text over it (`Alphabet.point_letter_withHalves`).
-/

namespace DocTree.Text

/-! ## Code points -/

theorem isHighHalf_iff {n : Nat} : isHighHalf n = true ↔ 0xD800 ≤ n ∧ n < 0xDC00 := by
  simp only [isHighHalf, Bool.and_eq_true, decide_eq_true_eq]

theorem isLowHalf_iff {n : Nat} : isLowHalf n = true ↔ 0xDC00 ≤ n ∧ n < 0xE000 := by
  simp only [isLowHalf, Bool.and_eq_true, decide_eq_true_eq]

/-- A code point beyond U+FFFF is written by a high half and a low half. -/
theorem halves_of_le {n : Nat} (h : 0x10000 ≤ n) (hlt : n < 0x110000) :
    isHighHalf (highHalf n) = true ∧ isLowHalf (lowHalf n) = true ∧
      joinHalves (highHalf n) (lowHalf n) = n := by
  have hremainder : (n - 0x10000) % 0x400 < 0x400 := Nat.mod_lt _ (by decide)
  refine ⟨isHighHalf_iff.2 ?_, isLowHalf_iff.2 ?_, ?_⟩
  · unfold highHalf
    omega
  · unfold lowHalf
    omega
  · unfold joinHalves highHalf lowHalf
    omega

/-- The code points with each pair of halves joined. -/
def joinPairs : List Nat → List Nat
  | [] => []
  | [n] => [n]
  | n :: m :: rest =>
    if isHighHalf n && isLowHalf m then joinHalves n m :: joinPairs rest
    else n :: joinPairs (m :: rest)

/-- No high half stands directly before a low half. -/
def Unpaired (ns : List Nat) : Prop :=
  ns.IsChain fun n m => (isHighHalf n && isLowHalf m) = false

instance (ns : List Nat) : Decidable (Unpaired ns) :=
  inferInstanceAs (Decidable (ns.IsChain _))

theorem length_joinPairs_le (ns : List Nat) : (joinPairs ns).length ≤ ns.length := by
  fun_induction joinPairs ns with
  | case1 | case2 => exact Nat.le_refl _
  | case3 n m rest _ ih =>
    rw [List.length_cons, List.length_cons, List.length_cons]
    omega
  | case4 n m rest _ ih =>
    rw [List.length_cons, List.length_cons]
    exact Nat.succ_le_succ ih

/-- Only pairs are joined. -/
theorem joinPairs_of_unpaired {ns : List Nat} (h : Unpaired ns) : joinPairs ns = ns := by
  fun_induction joinPairs ns with
  | case1 | case2 => rfl
  | case3 n m rest hpair _ =>
    rw [(List.isChain_cons_cons.1 h).1] at hpair
    exact absurd hpair Bool.false_ne_true
  | case4 n m rest _ ih => rw [ih (List.isChain_cons_cons.1 h).2]

/-- A pair makes one code point of two. -/
theorem unpaired_of_length {ns : List Nat} (h : (joinPairs ns).length = ns.length) : Unpaired ns := by
  fun_induction joinPairs ns with
  | case1 => exact .nil
  | case2 n => exact .singleton n
  | case3 n m rest _ _ =>
    have hle := length_joinPairs_le rest
    rw [List.length_cons, List.length_cons, List.length_cons] at h
    omega
  | case4 n m rest hpair ih =>
    rw [List.length_cons, List.length_cons, Nat.add_right_cancel_iff] at h
    exact List.isChain_cons_cons.2 ⟨by simpa using hpair, ih h⟩

/-! ## Texts -/

theorem toNat_ofNat {n : Nat} (h : n.isValidChar) : (Char.ofNat n).toNat = n := by
  rw [Char.ofNat, dif_pos h]
  rfl

/-- A character is no half. -/
theorem isHighHalf_toNat (c : Char) : isHighHalf c.toNat = false := by
  have hvalid : c.toNat.isValidChar := c.valid
  rw [Nat.isValidChar] at hvalid
  rw [Bool.eq_false_iff, Ne, isHighHalf_iff]
  omega

namespace Alphabet

variable (a : Alphabet) {s : List Char}

/-- The text with each pair of halves joined. -/
def joined (s : List Char) : List Char := (joinPairs (s.map a.point)).map a.letter

/-- The string with each pair of halves joined. -/
def joinedText (s : String) : String := String.ofList (a.joined s.toList)

theorem map_letter_point (s : List Char) : (s.map a.point).map a.letter = s := by
  rw [List.map_map]
  exact (List.map_congr_left fun c _ => a.letter_point c).trans s.map_id

/-- **A text is left as it is exactly if it has no pairs.** -/
theorem joined_eq_self_iff : a.joined s = s ↔ Unpaired (s.map a.point) := by
  constructor
  · intro h
    have hlength := congrArg List.length h
    rw [joined, List.length_map] at hlength
    exact unpaired_of_length (by rw [hlength, List.length_map])
  · intro h
    rw [joined, joinPairs_of_unpaired h, a.map_letter_point]

variable {a} in
theorem unpaired_of_noHalf (h : ∀ c ∈ s, isHighHalf (a.point c) = false) :
    Unpaired (s.map a.point) := by
  rw [Unpaired, List.isChain_map]
  refine List.Pairwise.isChain (List.pairwise_of_forall_mem_list fun c hc d _ => ?_)
  rw [h c hc, Bool.false_and]

/-- Where every character stands for itself, there are no pairs. -/
theorem unpaired_unicode (s : List Char) : Unpaired (s.map unicode.point) :=
  unpaired_of_noHalf fun c _ => isHighHalf_toNat c

/-- Characters that have a meaning of their own are no halves. -/
theorem joined_of_fixed (h : ∀ c ∈ s, isFixed c = true) : a.joined s = s := by
  refine a.joined_eq_self_iff.2 (unpaired_of_noHalf fun c hc => ?_)
  rw [a.point_of_fixed c (h c hc), isHighHalf_toNat]

theorem joinedText_of_fixed {s : String} (h : ∀ c ∈ s.toList, isFixed c = true) :
    a.joinedText s = s := by
  rw [joinedText, a.joined_of_fixed h, String.ofList_toList]

/-! ## An alphabet with halves -/

/-- The first 2048 characters for private use. -/
def isPrivate (c : Char) : Bool := 0xE000 ≤ c.toNat && c.toNat < 0xE800

theorem isPrivate_iff {c : Char} : isPrivate c = true ↔ 0xE000 ≤ c.toNat ∧ c.toNat < 0xE800 := by
  simp only [isPrivate, Bool.and_eq_true, decide_eq_true_eq]

/-- Characters for private use have no meaning of their own. -/
theorem isFixed_of_isPrivate {c : Char} (hc : isPrivate c = true) : isFixed c = false := by
  have hranges : ∀ r ∈ wordRanges, r.2 < 0xE000 ∨ 0xE800 ≤ r.1 := by decide +kernel
  rw [isPrivate_iff] at hc
  have hword : isWord c = false := by
    rw [isWord, inRanges, List.any_eq_false]
    intro r hr hin
    rw [Bool.and_eq_true, decide_eq_true_eq, decide_eq_true_eq] at hin
    have hapart := hranges r hr
    omega
  have hblank : isBlank c = false := by
    rw [Bool.eq_false_iff, Ne, isBlank]
    simp only [Bool.or_eq_true, Bool.and_eq_true, decide_eq_true_eq, beq_iff_eq]
    omega
  rw [isFixed, hword, hblank, Bool.or_false, Bool.or_false, decide_eq_false_iff_not]
  omega

/-- The alphabet in which characters for private use stand for the halves, and all others for themselves. -/
def withHalves : Alphabet where
  point c := if isPrivate c then c.toNat - 0x800 else c.toNat
  letter n := if 0xD800 ≤ n ∧ n < 0xE000 then Char.ofNat (n + 0x800) else unicode.letter n
  letter_point c := by
    have hchar : c.toNat < 0xD800 ∨ 0xDFFF < c.toNat ∧ c.toNat < 0x110000 := c.valid
    cases hc : isPrivate c with
    | true =>
      rw [isPrivate_iff] at hc
      rw [if_pos rfl, if_pos (by omega), Nat.sub_add_cancel (by omega), Char.ofNat_toNat]
    | false =>
      rw [if_neg Bool.false_ne_true, if_neg (by omega)]
      exact unicode.letter_point c
  point_lt c := by
    have hlt := unicode.point_lt c
    split
    · exact Nat.lt_of_le_of_lt (Nat.sub_le _ _) hlt
    · exact hlt
  point_of_fixed c hc := by
    refine if_neg fun hprivate => ?_
    rw [isFixed_of_isPrivate hprivate] at hc
    cases hc

theorem point_withHalves {c : Char} :
    withHalves.point c = if isPrivate c then c.toNat - 0x800 else c.toNat := rfl

/-- **Each code point has a character in that alphabet**, but for those of the characters that stand for the
halves. -/
theorem point_letter_withHalves {n : Nat} (hlt : n < 0x110000) (hn : ¬(0xE000 ≤ n ∧ n < 0xE800)) :
    withHalves.point (withHalves.letter n) = n := by
  by_cases hhalf : 0xD800 ≤ n ∧ n < 0xE000
  · have hletter : withHalves.letter n = Char.ofNat (n + 0x800) := if_pos hhalf
    have hchar : (Char.ofNat (n + 0x800)).toNat = n + 0x800 := toNat_ofNat (.inr (by omega))
    have hprivate : isPrivate (Char.ofNat (n + 0x800)) = true := isPrivate_iff.2 (by omega)
    rw [hletter, point_withHalves, if_pos hprivate, hchar]
    exact Nat.add_sub_cancel n 0x800
  · have hvalid : n.isValidChar := by
      rw [Nat.isValidChar]
      omega
    have hletter : withHalves.letter n = Char.ofNat n := (if_neg hhalf).trans (if_pos hvalid)
    have hchar : (Char.ofNat n).toNat = n := toNat_ofNat hvalid
    have hprivate : ¬isPrivate (Char.ofNat n) = true := by rwa [isPrivate_iff, hchar]
    rw [hletter, point_withHalves, if_neg hprivate, hchar]

end Alphabet

end DocTree.Text
