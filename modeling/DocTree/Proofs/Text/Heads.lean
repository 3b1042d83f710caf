import DocTree.Proofs.Text.Words

/-!
# Heads and first words

The head of a text is what stands before its first space (`splitHead`), and its first word what stands
before its first blank of any kind (`firstWord`). Words that are joined by spaces are taken off one by
one as heads (`splitHead_joinSpaced`). In any other text the head starts with the first word, and goes on
with what stands behind it up to the next space (`exists_head_eq`); so it is the first word exactly if
the first blank of the trimmed text is a space (`SpacedHead`).
-/

namespace DocTree.Text

/-! ## Cuts of a list -/

section Cuts

variable {α : Type} {p : α → Bool}

/-- Cutting a list is cutting it as the library does. -/
theorem splitWhere_eq_splitOnP (s : List α) : splitWhere p s = s.splitOnP p := by
  induction s with
  | nil => rw [splitWhere, List.splitOnP_nil]
  | cons a s ih =>
    rw [splitWhere, ih, List.splitOnP_cons_eq_if_modifyHead]
    split
    · rfl
    · cases h : s.splitOnP p with
      | nil => exact absurd h (List.splitOnP_ne_nil p s)
      | cons w ws => rfl

/-- An element at which a list is not cut is in one of the parts. -/
theorem exists_mem_splitWhere {s : List α} {a : α} (ha : a ∈ s) (hp : p a = false) :
    ∃ w ∈ splitWhere p s, a ∈ w := by
  induction s with
  | nil => exact absurd ha List.not_mem_nil
  | cons b s ih =>
    obtain ⟨v, vs, hv⟩ := List.exists_cons_of_ne_nil (splitWhere_ne_nil (p := p) s)
    rw [splitWhere, hv]
    rw [hv] at ih
    by_cases hb : p b = true
    · have hmem : a ∈ s := by
        rcases List.mem_cons.1 ha with rfl | hmem
        · rw [hp] at hb
          cases hb
        · exact hmem
      obtain ⟨w, hw, haw⟩ := ih hmem
      rw [if_pos hb]
      exact ⟨w, List.mem_cons_of_mem _ hw, haw⟩
    · rw [if_neg hb]
      rcases List.mem_cons.1 ha with rfl | hmem
      · exact ⟨a :: v, List.mem_cons_self, List.mem_cons_self⟩
      · obtain ⟨w, hw, haw⟩ := ih hmem
        rcases List.mem_cons.1 hw with rfl | hw
        · exact ⟨b :: w, List.mem_cons_self, List.mem_cons_of_mem b haw⟩
        · exact ⟨w, List.mem_cons_of_mem _ hw, haw⟩

theorem exists_mem_pieces {s : List α} {a : α} (ha : a ∈ s) (hp : p a = false) :
    ∃ w ∈ pieces p s, a ∈ w := by
  obtain ⟨w, hw, haw⟩ := exists_mem_splitWhere ha hp
  have hne : (!w.isEmpty) = true := by simpa using List.ne_nil_of_mem haw
  exact ⟨w, List.mem_filter.2 ⟨hw, hne⟩, haw⟩

end Cuts

/-! ## Joined words -/

section Joined

variable {w : List Char} {ws : List (List Char)}

theorem squeeze_joinSpaced (h : ∀ v ∈ ws, v ≠ [] ∧ ∀ c ∈ v, isBlank c = false) :
    squeeze (joinSpaced ws) = joinSpaced ws := by
  rw [squeeze, words_joinSpaced h]

theorem trim_joinSpaced (h : ∀ v ∈ ws, v ≠ [] ∧ ∀ c ∈ v, isBlank c = false) :
    trim (joinSpaced ws) = joinSpaced ws := by
  rw [← squeeze_joinSpaced h, trim_squeeze]

/-- Of joined words, the first one is the head and the others are the rest. -/
theorem splitHead_joinSpaced (h : ∀ v ∈ w :: ws, v ≠ [] ∧ ∀ c ∈ v, isBlank c = false) :
    splitHead (joinSpaced (w :: ws)) = (w, joinSpaced ws) := by
  have hspace : ∀ c ∈ w, (c != ' ') = true := by
    intro c hc
    rw [bne_iff_ne]
    rintro rfl
    exact absurd ((h w List.mem_cons_self).2 _ hc) (by decide)
  have hrest : trim (joinSpaced ws) = joinSpaced ws :=
    trim_joinSpaced fun v hv => h v (List.mem_cons_of_mem w hv)
  rw [splitHead, trim_joinSpaced h]
  cases ws with
  | nil =>
    rw [joinSpaced, List.intercalate_singleton, List.takeWhile_eq_self_iff.2 hspace, List.dropWhile_eq_nil_iff.2 hspace]
    rfl
  | cons v ws =>
    rw [joinSpaced_cons_cons, List.takeWhile_append_of_pos hspace, List.dropWhile_append_of_pos hspace,
      List.takeWhile_cons_of_neg (by decide), List.dropWhile_cons_of_neg (by decide), List.append_nil,
      List.drop_one, List.tail_cons, hrest]

end Joined

/-! ## Any text -/

/-- The first word of a text; nothing if the text has no words. -/
def firstWord (s : List Char) : List Char := (words s).headD []

/-- The first blank of the trimmed text, if there is one, is a space. -/
def SpacedHead (s : List Char) : Prop := ∀ c ∈ (trim s).find? isBlank, c = ' '

instance (s : List Char) : Decidable (SpacedHead s) := inferInstanceAs (Decidable (∀ c ∈ _, _))

/-- The first word ends at the first blank of the trimmed text. -/
theorem firstWord_eq (s : List Char) : firstWord s = (trim s).takeWhile fun c => !isBlank c := by
  rw [firstWord, ← words_trim]
  cases htrim : trim s with
  | nil => rfl
  | cons c t =>
    have hc : isBlank c = false := isBlank_of_head?_trim (s := s) (by rw [htrim]; rfl)
    have hne : (c :: t).takeWhile (fun c => !isBlank c) ≠ [] := by
      rw [List.takeWhile_cons_of_pos (by simpa using hc)]
      exact List.cons_ne_nil _ _
    have hword : ∀ d ∈ (c :: t).takeWhile (fun c => !isBlank c), isBlank d = false := fun d hd => by
      simpa using List.all_eq_true.1 List.all_takeWhile d hd
    have hrest : startsNoWord ((c :: t).dropWhile fun c => !isBlank c) = true := by
      rw [startsNoWord, ← List.find?_eq_head?_dropWhile_not]
      cases hfind : (c :: t).find? isBlank with
      | none => rfl
      | some d =>
        show isBlank d = true
        exact List.find?_some hfind
    conv_lhs => rw [← List.takeWhile_append_dropWhile (p := fun c => !isBlank c) (l := c :: t),
      words_word_boundary hne hword hrest]
    rfl

/-- The head starts with the first word. What else it has starts with a blank, and there is something
else unless the first blank is a space. -/
theorem exists_head_eq (s : List Char) : ∃ tail, (splitHead s).1 = firstWord s ++ tail ∧
    (tail = [] ↔ SpacedHead s) ∧ ∀ c ∈ tail.head?, isBlank c = true := by
  have hword : ∀ c ∈ (trim s).takeWhile (fun c => !isBlank c), (c != ' ') = true := by
    intro c hc
    rw [bne_iff_ne]
    rintro rfl
    exact absurd (List.all_eq_true.1 List.all_takeWhile _ hc) (by decide)
  have hhead : (splitHead s).1 = (trim s).takeWhile (fun c => !isBlank c) ++
      ((trim s).dropWhile fun c => !isBlank c).takeWhile (· != ' ') := by
    rw [← List.takeWhile_append_of_pos hword, List.takeWhile_append_dropWhile]
    rfl
  refine ⟨_, firstWord_eq s ▸ hhead, ?_, ?_⟩
  · -- the tail is cut at the first blank, and empty if the cut is there
    rw [SpacedHead, List.find?_eq_head?_dropWhile_not]
    cases (trim s).dropWhile fun c => !isBlank c with
    | nil => simp
    | cons c rest => by_cases hc : c = ' ' <;> simp [hc]
  · intro c hc
    have hfirst : (trim s).find? isBlank = some c := by
      rw [List.find?_eq_head?_dropWhile_not]
      cases hrest : (trim s).dropWhile fun c => !isBlank c with
      | nil => rw [hrest] at hc; cases hc
      | cons d rest =>
        rw [hrest, List.takeWhile_cons] at hc
        split at hc
        · exact hc
        · cases hc
    exact List.find?_some hfirst

end DocTree.Text
