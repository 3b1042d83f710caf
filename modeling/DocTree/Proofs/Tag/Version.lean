import DocTree.Proofs.Text.Words
import DocTree.Tag.Build

/-!
# Versions

A version is written as groups of digits with dots between them, perhaps with a suffix behind a sign
(`VersionForm`). Reading takes each run of digits as far as it goes and never has to go back: what
follows a group starts with no digit. So exactly the versions are read, with a line feed behind them or
without (`isVersion_iff`).
-/

namespace DocTree

open Text (isBlank isDigit isWord takeWhile_run dropWhile_run)

/-! ## What a version is -/

/-- At least one digit, and nothing else. -/
def Digits (s : List Char) : Prop := s ≠ [] ∧ ∀ c ∈ s, isDigit c = true

/-- A character of the suffix of a version. -/
def SuffixChar (c : Char) : Prop := isWord c = true ∨ c = '.'

/-- A sign, and at least one word character or dot behind it. -/
def VersionSuffix (s : List Char) : Prop :=
  ∃ sign tail, s = sign :: tail ∧ (sign = '-' ∨ sign = '+') ∧ tail ≠ [] ∧ ∀ c ∈ tail, SuffixChar c

/-- Digits, further digits each behind a dot, and perhaps a suffix. -/
def VersionForm (s : List Char) : Prop :=
  ∃ (digits : List Char) (groups : List (List Char)) (suffix : List Char),
    s = digits ++ (groups.flatMap ('.' :: ·) ++ suffix) ∧ Digits digits ∧
      (∀ g ∈ groups, Digits g) ∧ (suffix = [] ∨ VersionSuffix suffix)

/-- No run of digits meets a blank. -/
theorem digitZeros_blank : ∀ z ∈ Text.digitZeros,
    (z + 9 < 9 ∨ 32 < z) ∧ (z + 9 < 0x85 ∨ 0x85 < z) ∧ (z + 9 < 0xA0 ∨ 0xA0 < z) ∧
      (z + 9 < 0x1680 ∨ 0x1680 < z) ∧ (z + 9 < 0x2000 ∨ 0x205F < z) ∧
      (z + 9 < 0x3000 ∨ 0x3000 < z) := by
  decide +kernel

theorem isBlank_of_isDigit {c : Char} (h : isDigit c = true) : isBlank c = false := by
  rw [isDigit, Text.digitValue?, Option.isSome_map, List.find?_isSome] at h
  obtain ⟨z, hz, hc⟩ := h
  have hz := digitZeros_blank z hz
  rw [Bool.and_eq_true, decide_eq_true_eq, decide_eq_true_eq] at hc
  rw [← Bool.not_eq_true, isBlank]
  simp only [Bool.or_eq_true, Bool.and_eq_true, decide_eq_true_eq, beq_iff_eq]
  omega

theorem SuffixChar.isBlank {c : Char} (h : SuffixChar c) : Text.isBlank c = false := by
  rcases h with h | rfl
  · rw [← Bool.not_eq_true]
    intro hblank
    rw [Text.isWord_eq_false_of_isBlank hblank] at h
    exact Bool.false_ne_true h
  · decide

/-- A version is one word. -/
theorem VersionForm.isBlank {v : List Char} (h : VersionForm v) : ∀ c ∈ v, Text.isBlank c = false := by
  obtain ⟨digits, groups, suffix, rfl, hdigits, hgroups, hsuffix⟩ := h
  intro c hc
  rcases List.mem_append.1 hc with hc | hc
  · exact isBlank_of_isDigit (hdigits.2 c hc)
  rcases List.mem_append.1 hc with hc | hc
  · obtain ⟨g, hg, hc⟩ := List.mem_flatMap.1 hc
    rcases List.mem_cons.1 hc with rfl | hc
    · decide
    · exact isBlank_of_isDigit ((hgroups g hg).2 c hc)
  · rcases hsuffix with rfl | ⟨sign, tail, rfl, hsign, -, htail⟩
    · exact absurd hc List.not_mem_nil
    · rcases List.mem_cons.1 hc with rfl | hc
      · rcases hsign with rfl | rfl <;> decide
      · exact (htail c hc).isBlank

theorem VersionForm.ne_nil {v : List Char} (h : VersionForm v) : v ≠ [] := by
  obtain ⟨digits, groups, suffix, rfl, hdigits, -⟩ := h
  exact List.append_ne_nil_of_left_ne_nil hdigits.1 _

/-! ## Reading a version -/

theorem digits_takeWhile {s : List Char} (h : s.takeWhile isDigit ≠ []) :
    Digits (s.takeWhile isDigit) :=
  ⟨h, fun c hc => List.all_eq_true.1 List.all_takeWhile c hc⟩

/-- What may stand behind the groups of a version starts with neither a digit nor a dot. -/
def EndsGroups (rest : List Char) : Prop := ∀ c ∈ rest.head?, isDigit c = false ∧ c ≠ '.'

theorem isDigit_of_head?_groups (groups : List (List Char)) {rest : List Char}
    (hrest : EndsGroups rest) :
    ∀ c ∈ (groups.flatMap ('.' :: ·) ++ rest).head?, isDigit c = false := by
  cases groups with
  | nil => exact fun c hc => (hrest c hc).1
  | cons g groups =>
    intro c hc
    obtain rfl := Option.some.inj hc
    decide

/-- All groups are dropped, given as many steps as there are groups. -/
theorem dropVersionGroups_groups {groups : List (List Char)} (hgroups : ∀ g ∈ groups, Digits g)
    {rest : List Char} (hrest : EndsGroups rest) {fuel : Nat} (hfuel : groups.length ≤ fuel) :
    dropVersionGroups fuel (groups.flatMap ('.' :: ·) ++ rest) = rest := by
  induction groups generalizing fuel with
  | nil =>
    rw [List.flatMap_nil, List.nil_append]
    cases fuel with
    | zero => rfl
    | succ fuel =>
      rw [dropVersionGroups]
      rintro d rest' rfl
      exact (hrest '.' rfl).2 rfl
  | cons g groups ih =>
    obtain ⟨fuel, rfl⟩ := Nat.exists_eq_add_of_le' (Nat.one_le_of_lt hfuel)
    obtain ⟨hne, hdigits⟩ := hgroups g List.mem_cons_self
    obtain ⟨d, g, rfl⟩ := List.exists_cons_of_ne_nil hne
    rw [List.flatMap_cons, List.append_assoc, List.cons_append, List.cons_append, dropVersionGroups,
      if_pos (hdigits d List.mem_cons_self),
      dropWhile_run (fun c hc => hdigits c (List.mem_cons_of_mem d hc))
        (isDigit_of_head?_groups groups hrest)]
    exact ih (fun g hg => hgroups g (List.mem_cons_of_mem _ hg)) (Nat.le_of_succ_le_succ hfuel)

/-- There are no more groups than characters. -/
theorem length_le_flatMap_dot (groups : List (List Char)) :
    groups.length ≤ (groups.flatMap ('.' :: ·)).length := by
  induction groups with
  | nil => exact Nat.le_refl 0
  | cons g groups ih =>
    rw [List.flatMap_cons, List.length_append, List.length_cons, List.length_cons]
    omega

/-- What is dropped are groups. -/
theorem exists_groups (fuel : Nat) (s : List Char) : ∃ groups : List (List Char),
    s = groups.flatMap ('.' :: ·) ++ dropVersionGroups fuel s ∧ ∀ g ∈ groups, Digits g := by
  induction fuel generalizing s with
  | zero => exact ⟨[], rfl, fun g hg => absurd hg List.not_mem_nil⟩
  | succ fuel ih =>
    rw [dropVersionGroups.eq_def]
    dsimp only
    split
    · next d rest =>
      split
      · next hd =>
        obtain ⟨groups, hsplit, hgroups⟩ := ih (rest.dropWhile isDigit)
        refine ⟨(d :: rest.takeWhile isDigit) :: groups, ?_, ?_⟩
        · rw [List.flatMap_cons, List.append_assoc, ← hsplit, List.cons_append, List.cons_append,
            List.takeWhile_append_dropWhile]
        · intro g hg
          rcases List.mem_cons.1 hg with rfl | hg
          · refine ⟨List.cons_ne_nil _ _, fun c hc => ?_⟩
            rcases List.mem_cons.1 hc with rfl | hc
            · exact hd
            · exact List.all_eq_true.1 List.all_takeWhile c hc
          · exact hgroups g hg
      · exact ⟨[], rfl, fun g hg => absurd hg List.not_mem_nil⟩
    · exact ⟨[], rfl, fun g hg => absurd hg List.not_mem_nil⟩

theorem isLineEnd_iff {s : List Char} : isLineEnd s = true ↔ s = [] ∨ s = ['\n'] := by
  rw [isLineEnd, Bool.or_eq_true, beq_iff_eq, beq_iff_eq]

theorem isVersionSuffix_iff {s : List Char} :
    isVersionSuffix s = true ↔ ∃ suffix e, s = suffix ++ e ∧ VersionSuffix suffix ∧
      (e = [] ∨ e = ['\n']) := by
  have hchar : ∀ c, (isWord c || c == '.') = true ↔ SuffixChar c := fun c => by
    rw [Bool.or_eq_true, beq_iff_eq, SuffixChar]
  constructor
  · intro h
    cases s with
    | nil => exact absurd h Bool.false_ne_true
    | cons sign rest =>
      simp only [isVersionSuffix, Bool.and_eq_true, Bool.or_eq_true, beq_iff_eq] at h
      obtain ⟨⟨hsign, hne⟩, hend⟩ := h
      refine ⟨sign :: rest.takeWhile fun c => isWord c || c == '.', _, ?_, ⟨sign, _, rfl, hsign, ?_, ?_⟩,
        isLineEnd_iff.1 hend⟩
      · rw [List.cons_append, List.takeWhile_append_dropWhile]
      · simpa using hne
      · exact fun c hc => (hchar c).1 (List.all_eq_true.1 List.all_takeWhile c hc)
  · rintro ⟨suffix, e, rfl, ⟨sign, tail, rfl, hsign, hne, htail⟩, he⟩
    have hrun : ∀ c ∈ tail, (isWord c || c == '.') = true := fun c hc => (hchar c).2 (htail c hc)
    have hstop : ∀ c ∈ e.head?, (isWord c || c == '.') = false := by
      rcases he with rfl | rfl
      · exact fun c hc => absurd hc (Option.not_mem_none c)
      · intro c hc
        obtain rfl := Option.some.inj hc
        decide +kernel
    rw [List.cons_append]
    simp only [isVersionSuffix, Bool.and_eq_true, Bool.or_eq_true, beq_iff_eq,
      takeWhile_run hrun hstop, dropWhile_run hrun hstop]
    exact ⟨⟨hsign, by simpa using hne⟩, isLineEnd_iff.2 he⟩

/-- **Exactly the versions are read**, with a line feed behind them or without. -/
theorem isVersion_iff {s : List Char} :
    isVersion s = true ↔ ∃ v e, s = v ++ e ∧ VersionForm v ∧ (e = [] ∨ e = ['\n']) := by
  constructor
  · intro h
    rw [isVersion] at h
    split at h
    · exact absurd h Bool.false_ne_true
    · next hdigits =>
      obtain ⟨groups, hsplit, hgroups⟩ := exists_groups s.length (s.dropWhile isDigit)
      have hs : s = s.takeWhile isDigit ++ (groups.flatMap ('.' :: ·) ++
          dropVersionGroups s.length (s.dropWhile isDigit)) := by
        rw [← hsplit, List.takeWhile_append_dropWhile]
      have hdigits : Digits (s.takeWhile isDigit) := digits_takeWhile (by simpa using hdigits)
      rw [Bool.or_eq_true, isLineEnd_iff, isVersionSuffix_iff] at h
      rcases h with hend | ⟨suffix, e, hrest, hsuffix, he⟩
      · refine ⟨s.takeWhile isDigit ++ (groups.flatMap ('.' :: ·) ++ []), _, ?_,
          ⟨_, groups, [], rfl, hdigits, hgroups, .inl rfl⟩, hend⟩
        rw [List.append_nil, List.append_assoc, ← hs]
      · refine ⟨s.takeWhile isDigit ++ (groups.flatMap ('.' :: ·) ++ suffix), e, ?_,
          ⟨_, groups, suffix, rfl, hdigits, hgroups, .inr hsuffix⟩, he⟩
        rw [List.append_assoc, List.append_assoc, ← hrest, ← hs]
  · rintro ⟨v, e, rfl, ⟨digits, groups, suffix, rfl, hdigits, hgroups, hsuffix⟩, he⟩
    have hends : EndsGroups (suffix ++ e) := by
      rcases hsuffix with rfl | ⟨sign, tail, rfl, rfl | rfl, -⟩
      · rcases he with rfl | rfl
        · exact fun c hc => absurd hc (Option.not_mem_none c)
        · intro c hc
          obtain rfl := Option.some.inj hc
          decide
      all_goals
        intro c hc
        obtain rfl := Option.some.inj hc
        decide
    have hfuel : groups.length ≤
        (digits ++ (groups.flatMap ('.' :: ·) ++ (suffix ++ e))).length := by
      have := length_le_flatMap_dot groups
      simp only [List.length_append]
      omega
    have hempty : ¬digits.isEmpty = true := by simpa using hdigits.1
    have hstop := isDigit_of_head?_groups groups hends
    rw [List.append_assoc, List.append_assoc, isVersion, takeWhile_run hdigits.2 hstop,
      dropWhile_run hdigits.2 hstop, if_neg hempty, dropVersionGroups_groups hgroups hends hfuel,
      Bool.or_eq_true, isLineEnd_iff, isVersionSuffix_iff]
    rcases hsuffix with rfl | hsuffix
    · exact .inl he
    · exact .inr ⟨suffix, e, rfl, hsuffix, he⟩

end DocTree
