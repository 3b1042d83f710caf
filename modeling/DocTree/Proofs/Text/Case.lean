import DocTree.Text.Case
import Mathlib.Data.Char

/-!
# Lower case is a normal form

A text in lower case stays as it is (`lower_lower`): no small letter of the table of capitals is a
capital again (`capitalRuns_clear`), and the two letters that need more than the table become letters
that do not. Lower-casing makes no `@` of another character (`head?_lower_eq_at_iff`), so a text starts
with `@` whether its case is changed or not.
-/

namespace DocTree.Text

/-! ## The table of capitals -/

/-- The small letter of the first capital of a run. -/
def CapitalRun.firstSmall (r : CapitalRun) : Nat := (r.first + r.shift).toNat

/-- The small letter of the last capital of a run. -/
def CapitalRun.lastSmall (r : CapitalRun) : Nat := (r.last + r.shift).toNat

/-- The small letters of the run `r` lie on one side of the run `q`, or between its members. -/
def CapitalRun.clears (r q : CapitalRun) : Bool :=
  Nat.blt r.lastSmall q.first || Nat.blt q.last r.firstSmall ||
    (q.stride == 2 && (r.stride == 2 || r.first == r.last) && (r.firstSmall - q.first) % 2 == 1)

/-- No small letter is a capital. -/
theorem capitalRuns_clear : (capitalRuns.all fun r => capitalRuns.all r.clears) = true := by
  decide +kernel

/-- The small letters of a run of capitals are characters behind the ASCII capitals, and the dotted
capital is none of them. -/
theorem capitalRuns_small : ∀ r ∈ capitalRuns,
    (0x61 : Int) ≤ r.first + r.shift ∧
      (r.last + r.shift < 0x130 ∨ 0x130 < r.first + r.shift) ∧
      (r.last + r.shift < 0xD800 ∨ 0xDFFF < r.first + r.shift ∧ r.last + r.shift < 0x110000) := by
  decide +kernel

theorem CapitalRun.holds_iff {r : CapitalRun} {n : Nat} :
    r.holds n = true ↔ r.first ≤ n ∧ n ≤ r.last ∧ (n - r.first) % r.stride = 0 := by
  rw [holds, Bool.and_eq_true, Bool.and_eq_true, decide_eq_true_eq, decide_eq_true_eq, beq_iff_eq,
    and_assoc]

section Images

variable {r : CapitalRun} {n : Nat}

/-- The small letter of a capital is no capital. -/
theorem not_holds_small (hr : r ∈ capitalRuns) (h : r.holds n = true) :
    ∀ q ∈ capitalRuns, q.holds (n + r.shift).toNat = false := by
  intro q hq
  obtain ⟨hfirst, hlast, hstride⟩ := CapitalRun.holds_iff.1 h
  obtain ⟨hsmall, -⟩ := capitalRuns_small r hr
  have hclear := List.all_eq_true.1 (List.all_eq_true.1 capitalRuns_clear r hr) q hq
  simp only [CapitalRun.clears, CapitalRun.firstSmall, CapitalRun.lastSmall, Bool.or_eq_true,
    Bool.and_eq_true, Nat.blt_eq, beq_iff_eq] at hclear
  rw [← Bool.not_eq_true, CapitalRun.holds_iff]
  rintro ⟨hfirst', hlast', hstride'⟩
  rcases hclear with (hleft | hright) | ⟨⟨htwo, hone⟩, hodd⟩
  · omega
  · omega
  · rw [htwo] at hstride'
    rcases hone with htwo' | hone
    · rw [htwo'] at hstride
      omega
    · omega

theorem toNat_small (hr : r ∈ capitalRuns) (h : r.holds n = true) :
    (Char.ofNat (n + r.shift).toNat).toNat = (n + r.shift).toNat := by
  obtain ⟨hfirst, hlast, -⟩ := CapitalRun.holds_iff.1 h
  obtain ⟨hsmall, -, hvalid⟩ := capitalRuns_small r hr
  have hchar : (n + r.shift).toNat.isValidChar := by
    rw [Nat.isValidChar]
    omega
  rw [Char.ofNat, dif_pos hchar]
  rfl

end Images

/-! ## Small letters -/

/-- Lower-casing leaves the character as it is, wherever it stands. -/
structure Small (c : Char) : Prop where
  not_sigma : c ≠ 'Σ'
  not_dotted : c ≠ 'İ'
  lower : lowerChar c = c

instance (c : Char) : Decidable (Small c) :=
  decidable_of_iff (c ≠ 'Σ' ∧ c ≠ 'İ' ∧ lowerChar c = c)
    ⟨fun ⟨h, h', h''⟩ => ⟨h, h', h''⟩, fun h => ⟨h.1, h.2, h.3⟩⟩

/-- What holds of the ASCII characters one by one holds of them all. -/
theorem ascii_forall {P : Char → Prop} (h : ∀ n, n < 0x80 → P (Char.ofNat n)) {c : Char}
    (hc : c.toNat < 0x80) : P c := by
  rw [← Char.ofNat_toNat c]
  exact h c.toNat hc

/-- A character is mapped to itself, to another ASCII character, or to the small letter of a run. -/
theorem lowerChar_cases (c : Char) : c.toNat < 0x80 ∨ lowerChar c = c ∨
    ∃ r ∈ capitalRuns, r.holds c.toNat = true ∧
      lowerChar c = Char.ofNat (c.toNat + r.shift).toNat := by
  by_cases hc : c.toNat < 0x80
  · exact .inl hc
  · rw [lowerChar, if_neg hc]
    cases hfind : capitalRuns.find? fun r => r.holds c.toNat with
    | none => exact .inr (.inl rfl)
    | some r =>
      have hholds : r.holds c.toNat = true := List.find?_some (p := (CapitalRun.holds · c.toNat)) hfind
      exact .inr (.inr ⟨r, List.mem_of_find?_eq_some hfind, hholds, rfl⟩)

/-- The letter to which a character is mapped is small. -/
theorem small_lowerChar {c : Char} (hsigma : c ≠ 'Σ') (hdotted : c ≠ 'İ') : Small (lowerChar c) := by
  rcases lowerChar_cases c with hascii | hself | ⟨r, hr, hholds, hsmall⟩
  · exact ascii_forall (P := fun c => Small (lowerChar c)) (by decide +kernel) hascii
  · exact hself.symm ▸ ⟨hsigma, hdotted, hself⟩
  · obtain ⟨hfirst, hlast, -⟩ := CapitalRun.holds_iff.1 hholds
    obtain ⟨hletter, hnotdotted, -⟩ := capitalRuns_small r hr
    have hnat := toNat_small hr hholds
    have hnot := not_holds_small hr hholds
    rw [hsmall]
    generalize Char.ofNat (c.toNat + r.shift).toNat = d at hnat
    rw [← hnat] at hnot
    refine ⟨?_, ?_, ?_⟩
    · -- the sigma is itself a capital of the table
      rintro rfl
      obtain ⟨q, hq, hsigma⟩ : ∃ q ∈ capitalRuns, q.holds ('Σ').toNat = true := by decide
      rw [hnot q hq] at hsigma
      exact Bool.false_ne_true hsigma
    · rintro rfl
      have hcode : ('İ').toNat = 0x130 := rfl
      omega
    · by_cases hascii : d.toNat < 0x80
      · refine ascii_forall (P := fun d => 0x61 ≤ d.toNat → lowerChar d = d) (by decide +kernel)
          hascii ?_
        omega
      · have hnone : capitalRuns.find? (fun q => q.holds d.toNat) = none :=
          List.find?_eq_none.2 fun q hq => by rw [hnot q hq]; exact Bool.false_ne_true
        rw [lowerChar, if_neg hascii, hnone]

/-! ## Texts -/

/-- Every character of a text in lower case is small. -/
theorem small_of_mem_lowerAfter {before s : List Char} {c : Char} (h : c ∈ lowerAfter before s) :
    Small c := by
  induction s generalizing before with
  | nil => exact absurd h List.not_mem_nil
  | cons d rest ih =>
    rw [lowerAfter] at h
    rcases List.mem_append.1 h with h | h
    · split at h
      · split at h
        · rw [List.mem_singleton.1 h]
          decide +kernel
        · rw [List.mem_singleton.1 h]
          decide +kernel
      · next hsigma =>
        split at h
        · rcases List.mem_cons.1 h with rfl | h
          · decide +kernel
          · rw [List.mem_singleton.1 h]
            decide +kernel
        · next hdotted =>
          rw [List.mem_singleton.1 h]
          exact small_lowerChar hsigma hdotted
    · exact ih h

theorem lowerAfter_eq_self (before : List Char) {s : List Char} (h : ∀ c ∈ s, Small c) :
    lowerAfter before s = s := by
  induction s generalizing before with
  | nil => rfl
  | cons c rest ih =>
    obtain ⟨hsigma, hdotted, hlower⟩ := h c List.mem_cons_self
    rw [lowerAfter, if_neg hsigma, if_neg hdotted, hlower, ih _ fun d hd => h d (List.mem_cons_of_mem c hd)]
    rfl

/-- **A text in lower case stays as it is.** -/
theorem lower_lower (s : List Char) : lower (lower s) = lower s :=
  lowerAfter_eq_self [] fun _ => small_of_mem_lowerAfter

/-! ## At signs -/

theorem lowerChar_eq_at_iff {c : Char} : lowerChar c = '@' ↔ c = '@' := by
  constructor
  · intro h
    rcases lowerChar_cases c with hascii | hself | ⟨r, hr, hholds, hsmall⟩
    · exact ascii_forall (P := fun c => lowerChar c = '@' → c = '@') (by decide +kernel) hascii h
    · exact hself.symm.trans h
    · obtain ⟨hfirst, -⟩ := CapitalRun.holds_iff.1 hholds
      obtain ⟨hletter, -⟩ := capitalRuns_small r hr
      have hnat := toNat_small hr hholds
      rw [← hsmall, h] at hnat
      have hcode : ('@').toNat = 0x40 := rfl
      omega
  · rintro rfl
    decide

/-- A text starts with `@` in lower case exactly if it does as it is. -/
theorem head?_lower_eq_at_iff {s : List Char} :
    (lower s).head? = some '@' ↔ s.head? = some '@' := by
  cases s with
  | nil => rfl
  | cons c rest =>
    rw [lower, lowerAfter, List.head?_cons, Option.some.injEq]
    split
    · next hsigma =>
      rw [hsigma]
      split
      · show some 'ς' = some '@' ↔ 'Σ' = '@'
        decide
      · show some 'σ' = some '@' ↔ 'Σ' = '@'
        decide
    · split
      · next hdotted =>
        rw [hdotted]
        show some 'i' = some '@' ↔ 'İ' = '@'
        decide
      · exact (Option.some.injEq _ _).to_iff.trans lowerChar_eq_at_iff

end DocTree.Text
