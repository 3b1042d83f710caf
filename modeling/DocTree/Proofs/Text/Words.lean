import DocTree.Text.Blank
import DocTree.Text.Word
import Mathlib.Data.List.Chain
import Mathlib.Data.List.DropRight

/-!
# What splitting, trimming and spacing do to the words of a text

Everything about `splitWhere` follows from one equation: a list cut at an element is the cuts of what
stands before it followed by the cuts of what stands after it (`splitWhere_append_cons`). From it,
joining and splitting are inverse (`pieces_intercalate`), and blanks at the ends of a text or between
its words do not change the words. The words are the maximal parts without blanks (`mem_words_iff`).

`spaced` writes one space for each run of blanks. A text that is squeezed is the trimmed text so
spaced (`squeeze_eq_spaced_trim`), and `spaced` acts on each side of a character that is no blank
separately (`spaced_append_cons`), so a reader that cuts a text at such characters can be followed
through it. What is left has single spaces and nothing else between its words (`SingleSpaced`).
-/

namespace DocTree.Text

/-- What is said of the members of a list is decided member by member, also where their type is finite
and instances would try all of it. -/
instance (priority := 2000) decidableForallMem {α : Type} (s : List α) (P : α → Prop)
    [DecidablePred P] : Decidable (∀ a ∈ s, P a) :=
  List.decidableBAll P s

/-! ## Runs -/

section Runs

variable {α : Type} {p : α → Bool} {run rest : List α}

/-- A run goes as far as an element that stops it. -/
theorem takeWhile_run (hrun : ∀ a ∈ run, p a = true) (hrest : ∀ a ∈ rest.head?, p a = false) :
    (run ++ rest).takeWhile p = run := by
  rw [List.takeWhile_append_of_pos hrun]
  cases rest with
  | nil => exact List.append_nil run
  | cons a rest =>
    rw [List.takeWhile_cons_of_neg (by rw [hrest a rfl]; exact Bool.false_ne_true), List.append_nil]

theorem dropWhile_run (hrun : ∀ a ∈ run, p a = true) (hrest : ∀ a ∈ rest.head?, p a = false) :
    (run ++ rest).dropWhile p = rest := by
  rw [List.dropWhile_append_of_pos hrun]
  cases rest with
  | nil => rfl
  | cons a rest =>
    exact List.dropWhile_cons_of_neg (by rw [hrest a rfl]; exact Bool.false_ne_true)

/-- A list is a run and what an element that stops it begins. -/
theorem exists_run (p : α → Bool) (s : List α) : ∃ rest, s = s.takeWhile p ++ rest ∧
    (∀ a ∈ s.takeWhile p, p a = true) ∧ ∀ a ∈ rest.head?, p a = false := by
  refine ⟨s.dropWhile p, List.takeWhile_append_dropWhile.symm, fun a ha => List.mem_takeWhile_imp ha,
    fun a ha => ?_⟩
  have hstop := List.head?_dropWhile_not p s
  rw [ha] at hstop
  simpa using hstop

end Runs

/-! ## Pieces -/

section Pieces

variable {α : Type} {p : α → Bool}

theorem splitWhere_ne_nil (s : List α) : splitWhere p s ≠ [] := by
  cases s with
  | nil => exact List.cons_ne_nil _ _
  | cons a s =>
    rw [splitWhere]
    split
    · exact List.cons_ne_nil _ _
    · split <;> exact List.cons_ne_nil _ _

/-- A list is cut independently on the two sides of an element at which it is cut. -/
theorem splitWhere_append_cons {a : α} (ha : p a = true) (s t : List α) :
    splitWhere p (s ++ a :: t) = splitWhere p s ++ splitWhere p t := by
  induction s with
  | nil =>
    show splitWhere p (a :: t) = [] :: splitWhere p t
    rw [splitWhere, if_pos ha]
  | cons b s ih =>
    rw [List.cons_append, splitWhere, splitWhere, ih]
    by_cases hb : p b = true
    · rw [if_pos hb, if_pos hb]; rfl
    · rw [if_neg hb, if_neg hb]
      -- `b` goes to the first cut of `s`, and there is one
      obtain ⟨w, ws, hw⟩ := List.exists_cons_of_ne_nil (splitWhere_ne_nil (p := p) s)
      rw [hw]; rfl

theorem splitWhere_eq_singleton {s : List α} (h : ∀ a ∈ s, p a = false) :
    splitWhere p s = [s] := by
  induction s with
  | nil => rfl
  | cons a s ih =>
    rw [splitWhere, h a List.mem_cons_self, ih fun b hb => h b (List.mem_cons_of_mem a hb)]
    rfl

/-- No part of a cut list has an element at which the list is cut. -/
theorem eq_false_of_mem_splitWhere {s w : List α} (hw : w ∈ splitWhere p s) :
    ∀ a ∈ w, p a = false := by
  induction s generalizing w with
  | nil =>
    rw [splitWhere, List.mem_singleton] at hw
    rw [hw]
    exact fun a ha => absurd ha List.not_mem_nil
  | cons b s ih =>
    obtain ⟨v, vs, hv⟩ := List.exists_cons_of_ne_nil (splitWhere_ne_nil (p := p) s)
    rw [splitWhere, hv] at hw
    rw [hv] at ih
    by_cases hb : p b = true
    · rw [if_pos hb, List.mem_cons] at hw
      rcases hw with rfl | hw
      · exact fun a ha => absurd ha List.not_mem_nil
      · exact ih hw
    · rw [if_neg hb, List.mem_cons] at hw
      rcases hw with rfl | hw
      · intro a ha
        rcases List.mem_cons.1 ha with rfl | ha
        · exact Bool.eq_false_iff.2 hb
        · exact ih List.mem_cons_self a ha
      · exact ih (List.mem_cons_of_mem v hw)

/-- The parts of a cut list are made of its elements. -/
theorem mem_of_mem_splitWhere {s w : List α} (hw : w ∈ splitWhere p s) {a : α} (ha : a ∈ w) :
    a ∈ s := by
  induction s generalizing w with
  | nil =>
    rw [splitWhere, List.mem_singleton] at hw
    rw [hw] at ha
    exact absurd ha List.not_mem_nil
  | cons b s ih =>
    obtain ⟨v, vs, hv⟩ := List.exists_cons_of_ne_nil (splitWhere_ne_nil (p := p) s)
    rw [splitWhere, hv] at hw
    rw [hv] at ih
    by_cases hb : p b = true
    · rw [if_pos hb, List.mem_cons] at hw
      rcases hw with rfl | hw
      · exact absurd ha List.not_mem_nil
      · exact List.mem_cons_of_mem b (ih hw ha)
    · rw [if_neg hb, List.mem_cons] at hw
      rcases hw with rfl | hw
      · rcases List.mem_cons.1 ha with rfl | ha
        · exact List.mem_cons_self
        · exact List.mem_cons_of_mem b (ih List.mem_cons_self ha)
      · exact List.mem_cons_of_mem b (ih (List.mem_cons_of_mem v hw) ha)

theorem pieces_append_cons {a : α} (ha : p a = true) (s t : List α) :
    pieces p (s ++ a :: t) = pieces p s ++ pieces p t := by
  rw [pieces, splitWhere_append_cons ha, List.filter_append]; rfl

theorem pieces_cons {a : α} (ha : p a = true) (s : List α) : pieces p (a :: s) = pieces p s :=
  pieces_append_cons ha [] s

theorem pieces_eq_singleton {w : List α} (hne : w ≠ []) (h : ∀ a ∈ w, p a = false) :
    pieces p w = [w] := by
  rw [pieces, splitWhere_eq_singleton h]
  simp [hne]

theorem mem_pieces {s w : List α} (hw : w ∈ pieces p s) : w ≠ [] ∧ ∀ a ∈ w, p a = false := by
  obtain ⟨hmem, hne⟩ := List.mem_filter.1 hw
  exact ⟨by simpa using hne, eq_false_of_mem_splitWhere hmem⟩

theorem mem_of_mem_pieces {s w : List α} (hw : w ∈ pieces p s) {a : α} (ha : a ∈ w) : a ∈ s :=
  mem_of_mem_splitWhere (List.mem_filter.1 hw).1 ha

theorem mem_intercalate {a b : α} : ∀ {ws : List (List α)}, b ∈ [a].intercalate ws →
    b = a ∨ ∃ w ∈ ws, b ∈ w
  | [], h => absurd h List.not_mem_nil
  | [w], h => by
    rw [List.intercalate_singleton] at h
    exact .inr ⟨w, List.mem_singleton_self w, h⟩
  | w :: v :: ws, h => by
    rw [List.intercalate_cons_cons, List.mem_append, List.mem_append, List.mem_singleton] at h
    rcases h with (h | h) | h
    · exact .inr ⟨w, List.mem_cons_self, h⟩
    · exact .inl h
    · obtain h | ⟨u, hu, h⟩ := mem_intercalate h
      · exact .inl h
      · exact .inr ⟨u, List.mem_cons_of_mem w hu, h⟩

/-- Pieces that are joined by an element at which lists are cut are read back. -/
theorem pieces_intercalate {a : α} (ha : p a = true) :
    ∀ {ws : List (List α)}, (∀ w ∈ ws, w ≠ [] ∧ ∀ b ∈ w, p b = false) →
      pieces p ([a].intercalate ws) = ws
  | [], _ => rfl
  | [w], h => by
    obtain ⟨hne, hw⟩ := h w List.mem_cons_self
    rw [List.intercalate_singleton, pieces_eq_singleton hne hw]
  | w :: v :: ws, h => by
    obtain ⟨hne, hw⟩ := h w List.mem_cons_self
    have ih := pieces_intercalate ha fun u hu => h u (List.mem_cons_of_mem w hu)
    rw [List.intercalate_cons_cons, List.append_assoc, List.singleton_append,
      pieces_append_cons ha, pieces_eq_singleton hne hw, ih]
    rfl

end Pieces

/-! ## Words -/

@[simp] theorem words_nil : words [] = [] := rfl

theorem words_cons {c : Char} (hc : isBlank c = true) (s : List Char) : words (c :: s) = words s :=
  pieces_cons hc s

theorem words_append_cons {c : Char} (hc : isBlank c = true) (s t : List Char) :
    words (s ++ c :: t) = words s ++ words t :=
  pieces_append_cons hc s t

/-- A word is not empty and has no blank. -/
theorem mem_words {s w : List Char} (hw : w ∈ words s) : w ≠ [] ∧ ∀ c ∈ w, isBlank c = false :=
  mem_pieces hw

theorem isBlank_space : isBlank ' ' = true := by decide

theorem words_joinSpaced {ws : List (List Char)}
    (h : ∀ w ∈ ws, w ≠ [] ∧ ∀ c ∈ w, isBlank c = false) : words (joinSpaced ws) = ws :=
  pieces_intercalate isBlank_space h

theorem words_squeeze (s : List Char) : words (squeeze s) = words s :=
  words_joinSpaced fun _ => mem_words

/-- Blanks in front of a text belong to no word. -/
theorem words_append_left {a : List Char} (ha : allBlank a = true) (s : List Char) :
    words (a ++ s) = words s := by
  induction a with
  | nil => rfl
  | cons c a ih =>
    rw [allBlank, List.all_cons, Bool.and_eq_true] at ha
    rw [List.cons_append, words_cons ha.1, ih ha.2]

/-- Blanks at the end of a text belong to no word. -/
theorem words_append_right (s : List Char) {b : List Char} (hb : allBlank b = true) :
    words (s ++ b) = words s := by
  cases b with
  | nil => rw [List.append_nil]
  | cons c b =>
    have hnil : words b = [] := by
      rw [allBlank, List.all_cons, Bool.and_eq_true] at hb
      simpa using words_append_left hb.2 []
    rw [allBlank, List.all_cons, Bool.and_eq_true] at hb
    rw [words_append_cons hb.1, hnil, List.append_nil]

/-- A word in front of a blank is the first word. -/
theorem words_word_append {w : List Char} (hne : w ≠ []) (hw : ∀ c ∈ w, isBlank c = false)
    {c : Char} (hc : isBlank c = true) (s : List Char) : words (w ++ c :: s) = w :: words s := by
  rw [words_append_cons hc, words, pieces_eq_singleton hne hw]; rfl

/-- A word in front of a gap is the first word. -/
theorem words_word_gap {w gap : List Char} (hne : w ≠ []) (hw : ∀ c ∈ w, isBlank c = false)
    (hgap : gap ≠ []) (hblank : allBlank gap = true) (s : List Char) :
    words (w ++ gap ++ s) = w :: words s := by
  obtain ⟨c, gap, rfl⟩ := List.exists_cons_of_ne_nil hgap
  rw [allBlank, List.all_cons, Bool.and_eq_true] at hblank
  rw [List.append_assoc, List.cons_append, words_word_append hne hw hblank.1,
    words_append_left hblank.2]

/-- The first word goes on if the text is continued in front. -/
theorem words_cons_cons {c d : Char} (hc : isBlank c = false) (hd : isBlank d = false)
    (s : List Char) : ∃ w ws, words (d :: s) = w :: ws ∧ words (c :: d :: s) = (c :: w) :: ws := by
  obtain ⟨v, vs, hv⟩ := List.exists_cons_of_ne_nil (splitWhere_ne_nil (p := isBlank) s)
  refine ⟨d :: v, vs.filter fun w => !w.isEmpty, ?_, ?_⟩
  · rw [words, pieces, splitWhere, if_neg (by rw [hd]; exact Bool.false_ne_true), hv]; rfl
  · rw [words, pieces, splitWhere, splitWhere, if_neg (by rw [hc]; exact Bool.false_ne_true),
      if_neg (by rw [hd]; exact Bool.false_ne_true), hv]
    rfl

/-- A text that starts with a character that is no blank has a first word that starts with it. -/
theorem exists_words_cons {c : Char} (hc : isBlank c = false) (s : List Char) :
    ∃ w ws, words (c :: s) = (c :: w) :: ws := by
  obtain ⟨v, vs, hv⟩ := List.exists_cons_of_ne_nil (splitWhere_ne_nil (p := isBlank) s)
  refine ⟨v, vs.filter fun w => !w.isEmpty, ?_⟩
  rw [words, pieces, splitWhere, if_neg (by rw [hc]; exact Bool.false_ne_true), hv]
  rfl

/-- Only a blank text has no words. -/
theorem words_eq_nil_iff {s : List Char} : words s = [] ↔ allBlank s = true := by
  constructor
  · intro h
    induction s with
    | nil => rfl
    | cons c s ih =>
      by_cases hc : isBlank c = true
      · rw [words_cons hc] at h
        rw [allBlank, List.all_cons, hc, Bool.true_and]
        exact ih h
      · obtain ⟨w, ws, hw⟩ := exists_words_cons (Bool.eq_false_iff.2 hc) s
        rw [hw] at h
        cases h
  · intro h
    simpa using words_append_left h []

theorem squeeze_eq_nil_iff {s : List Char} : squeeze s = [] ↔ allBlank s = true := by
  rw [← words_eq_nil_iff]
  constructor
  · intro h
    rw [← words_squeeze, h, words_nil]
  · intro h
    rw [squeeze, h]; rfl

/-- Squeezing keeps a first character that is no blank. -/
theorem head?_squeeze_cons {c : Char} (hc : isBlank c = false) (s : List Char) :
    (squeeze (c :: s)).head? = some c := by
  obtain ⟨w, ws, hw⟩ := exists_words_cons hc s
  rw [squeeze, hw, joinSpaced]
  cases ws with
  | nil => rfl
  | cons v ws => rw [List.intercalate_cons_cons]; rfl

/-- Texts of the same words are squeezed to the same text. -/
theorem squeeze_congr {s t : List Char} (h : words s = words t) : squeeze s = squeeze t := by
  rw [squeeze, squeeze, h]

/-! ## Word characters -/

/-- No range of word characters meets a blank. -/
theorem wordRanges_blank : ∀ r ∈ wordRanges,
    (r.2 < 9 ∨ 32 < r.1) ∧ (r.2 < 0x85 ∨ 0x85 < r.1) ∧ (r.2 < 0xA0 ∨ 0xA0 < r.1) ∧
      (r.2 < 0x1680 ∨ 0x1680 < r.1) ∧ (r.2 < 0x2000 ∨ 0x205F < r.1) ∧
      (r.2 < 0x3000 ∨ 0x3000 < r.1) := by
  decide +kernel

theorem isWord_eq_false_of_isBlank {c : Char} (h : isBlank c = true) : isWord c = false := by
  rw [isWord, inRanges, List.any_eq_false]
  intro r hr hc
  -- a blank lies on one side of every range, a word character in one of them
  have hr := wordRanges_blank r hr
  simp only [isBlank, Bool.or_eq_true, Bool.and_eq_true, decide_eq_true_eq, beq_iff_eq] at h
  simp only [Bool.and_eq_true, decide_eq_true_eq] at hc
  omega

/-! ## Trimming -/

theorem dropEndWhile_eq (p : Char → Bool) (s : List Char) : dropEndWhile p s = s.rdropWhile p := rfl

/-- A text is its trimmed form between blanks. -/
theorem exists_trim (s : List Char) :
    ∃ a b, s = a ++ trim s ++ b ∧ allBlank a = true ∧ allBlank b = true := by
  refine ⟨s.takeWhile isBlank, ((trimLeft s).reverse.takeWhile isBlank).reverse, ?_,
    List.all_takeWhile, ?_⟩
  · have hright : trim s ++ ((trimLeft s).reverse.takeWhile isBlank).reverse = trimLeft s := by
      rw [trim, dropEndWhile, ← List.reverse_append, List.takeWhile_append_dropWhile,
        List.reverse_reverse]
    rw [List.append_assoc, hright, trimLeft, List.takeWhile_append_dropWhile]
  · rw [allBlank, List.all_reverse]
    exact List.all_takeWhile

theorem words_trim (s : List Char) : words (trim s) = words s := by
  obtain ⟨a, b, hs, ha, hb⟩ := exists_trim s
  have h : words (a ++ trim s ++ b) = words (trim s) := by
    rw [words_append_right _ hb, words_append_left ha]
  rw [← h, ← hs]

/-- A trimmed text does not end with a blank. -/
theorem isBlank_of_getLast?_trim {s : List Char} {c : Char} (h : (trim s).getLast? = some c) :
    isBlank c = false := by
  rw [trim, dropEndWhile, List.getLast?_reverse] at h
  have hnot := List.head?_dropWhile_not isBlank (trimLeft s).reverse
  rw [h] at hnot
  simpa using hnot

/-- A trimmed text does not start with a blank. -/
theorem isBlank_of_head?_trim {s : List Char} {c : Char} (h : (trim s).head? = some c) :
    isBlank c = false := by
  obtain ⟨u, hu⟩ := List.rdropWhile_prefix (p := isBlank) (l := trimLeft s)
  have hhead : (trimLeft s).head? = some c := by
    rw [← hu, List.head?_append, ← dropEndWhile_eq, ← trim, h]; rfl
  have hnot := List.head?_dropWhile_not isBlank s
  rw [← trimLeft, hhead] at hnot
  simpa using hnot

/-- A text that neither starts nor ends with a blank is trimmed. -/
theorem trim_eq_self {s : List Char} (hhead : ∀ c, s.head? = some c → isBlank c = false)
    (hlast : ∀ c, s.getLast? = some c → isBlank c = false) : trim s = s := by
  have hleft : trimLeft s = s := by
    cases s with
    | nil => rfl
    | cons c s =>
      exact List.dropWhile_cons_of_neg (by rw [hhead c rfl]; exact Bool.false_ne_true)
  rw [trim, hleft, dropEndWhile_eq, List.rdropWhile_eq_self_iff]
  intro hne
  rw [hlast _ (List.getLast?_eq_some_getLast hne)]
  exact Bool.false_ne_true

theorem trim_trim (s : List Char) : trim (trim s) = trim s :=
  trim_eq_self (fun _ => isBlank_of_head?_trim) fun _ => isBlank_of_getLast?_trim

/-! ## Spacing -/

/-- The text starts with a blank. -/
def startsBlank (s : List Char) : Bool := s.head?.any isBlank

/-- Each run of blanks becomes one space. -/
def spaced : List Char → List Char
  | [] => []
  | c :: s =>
    if isBlank c then if startsBlank s then spaced s else ' ' :: spaced s else c :: spaced s

@[simp] theorem spaced_nil : spaced [] = [] := rfl

/-- A character that is no blank stays. -/
theorem spaced_cons {c : Char} (hc : isBlank c = false) (s : List Char) :
    spaced (c :: s) = c :: spaced s := by
  rw [spaced, hc]; rfl

/-- A blank in front of a blank goes. -/
theorem spaced_cons_blank {c : Char} (hc : isBlank c = true) {s : List Char}
    (hs : startsBlank s = true) : spaced (c :: s) = spaced s := by
  rw [spaced, if_pos hc, if_pos hs]

/-- The last blank of a run becomes a space. -/
theorem spaced_cons_last {c : Char} (hc : isBlank c = true) {s : List Char}
    (hs : startsBlank s = false) : spaced (c :: s) = ' ' :: spaced s := by
  rw [spaced, if_pos hc, hs]; rfl

/-- A single blank becomes a space. -/
theorem spaced_singleton {c : Char} (hc : isBlank c = true) : spaced [c] = [' '] :=
  spaced_cons_last hc rfl

theorem startsBlank_append_cons (s : List Char) {c : Char} (hc : isBlank c = false) (t : List Char) :
    startsBlank (s ++ c :: t) = startsBlank s := by
  cases s with
  | nil => exact hc
  | cons d s => rfl

/-- What follows a character that is no blank is spaced on its own. -/
theorem spaced_append_cons (s : List Char) {c : Char} (hc : isBlank c = false) (t : List Char) :
    spaced (s ++ c :: t) = spaced s ++ c :: spaced t := by
  induction s with
  | nil => exact spaced_cons hc t
  | cons d s ih =>
    rw [List.cons_append, spaced, spaced, startsBlank_append_cons s hc, ih]
    split
    · split
      · rfl
      · rfl
    · rfl

/-- A character as it shows at the start of a text that is spaced. -/
def spacedChar (c : Char) : Char := if isBlank c then ' ' else c

theorem isBlank_spacedChar (c : Char) : isBlank (spacedChar c) = isBlank c := by
  rw [spacedChar]
  split
  · next h => rw [h]; decide
  · rfl

theorem head?_spaced (s : List Char) : (spaced s).head? = s.head?.map spacedChar := by
  induction s with
  | nil => rfl
  | cons c s ih =>
    by_cases hc : isBlank c = true
    · by_cases hs : startsBlank s = true
      · rw [spaced_cons_blank hc hs, ih]
        cases s with
        | nil => exact absurd hs Bool.false_ne_true
        | cons d s =>
          have hd : isBlank d = true := hs
          simp [spacedChar, hc, hd]
      · rw [spaced_cons_last hc (Bool.eq_false_iff.2 hs)]
        simp [spacedChar, hc]
    · rw [spaced_cons (Bool.eq_false_iff.2 hc)]
      simp [spacedChar, hc]

/-- A text without blanks stays. -/
theorem spaced_eq_self {s : List Char} (h : ∀ c ∈ s, isBlank c = false) : spaced s = s := by
  induction s with
  | nil => rfl
  | cons c s ih =>
    rw [spaced_cons (h c List.mem_cons_self), ih fun d hd => h d (List.mem_cons_of_mem c hd)]

theorem spaced_ne_nil {s : List Char} (hs : s ≠ []) : spaced s ≠ [] := by
  obtain ⟨c, t, rfl⟩ := List.exists_cons_of_ne_nil hs
  intro hnil
  have hhead := head?_spaced (c :: t)
  rw [hnil] at hhead
  cases hhead

theorem getLast?_spaced (s : List Char) : (spaced s).getLast? = s.getLast?.map spacedChar := by
  induction s with
  | nil => rfl
  | cons c s ih =>
    by_cases hs : s = []
    · rw [hs]
      by_cases hc : isBlank c = true
      · rw [spaced_cons_last hc rfl]
        simp [spacedChar, hc]
      · rw [spaced_cons (Bool.eq_false_iff.2 hc)]
        simp [spacedChar, hc]
    · rw [List.getLast?_cons_of_ne_nil hs, ← ih, spaced]
      have hne := spaced_ne_nil hs
      split
      · split
        · rfl
        · rw [List.getLast?_cons_of_ne_nil hne]
      · rw [List.getLast?_cons_of_ne_nil hne]

/-- What follows a text that ends with no blank is spaced on its own. -/
theorem spaced_append {s : List Char} (hne : s ≠ [])
    (hlast : ∀ c, s.getLast? = some c → isBlank c = false) (t : List Char) :
    spaced (s ++ t) = spaced s ++ spaced t := by
  obtain ⟨u, c, rfl⟩ := List.eq_nil_or_concat' s |>.resolve_left hne
  have hc := hlast c List.getLast?_concat
  have hone := spaced_append_cons u hc []
  rw [spaced_nil] at hone
  rw [hone, List.append_assoc, List.append_assoc, List.singleton_append, spaced_append_cons u hc]
  rfl

/-- The text has no word that goes on from its start: it is empty or starts with a blank. -/
def startsNoWord (s : List Char) : Bool := s.head?.all isBlank

@[simp] theorem startsNoWord_nil : startsNoWord [] = true := rfl

theorem startsNoWord_spaced (s : List Char) : startsNoWord (spaced s) = startsNoWord s := by
  rw [startsNoWord, head?_spaced, startsNoWord]
  cases s with
  | nil => rfl
  | cons c s => exact isBlank_spacedChar c

/-- A word that does not go on is the first word. -/
theorem words_word_boundary {w : List Char} (hne : w ≠ []) (hw : ∀ c ∈ w, isBlank c = false)
    {s : List Char} (hs : startsNoWord s = true) : words (w ++ s) = w :: words s := by
  cases s with
  | nil =>
    rw [List.append_nil]
    exact pieces_eq_singleton hne hw
  | cons c s =>
    have hc : isBlank c = true := hs
    rw [words_word_append hne hw hc, words_cons hc]

/-- A word stands somewhere in the text between blanks or the ends of the text. -/
theorem exists_of_mem_words {s w : List Char} (hw : w ∈ words s) :
    ∃ pre post, s = pre ++ (w ++ post) ∧ (∀ c ∈ pre.getLast?, isBlank c = true) ∧
      startsNoWord post = true := by
  induction hlength : s.length using Nat.strong_induction_on generalizing s with
  | _ n ih =>
    -- the text is cut at its first blank, and what follows that is shorter
    obtain ⟨rest, hs, hrun, hstop⟩ := exists_run (fun c => !isBlank c) s
    generalize s.takeWhile (fun c => !isBlank c) = v at hs hrun
    subst hs
    have hv : ∀ c ∈ v, isBlank c = false := fun c hc => by simpa using hrun c hc
    have hfirst : ∀ u ∈ words v, u = v := by
      intro u hu
      rcases eq_or_ne v [] with rfl | hne
      · exact absurd hu List.not_mem_nil
      · rw [words, pieces_eq_singleton hne hv] at hu
        exact List.mem_singleton.1 hu
    cases rest with
    | nil =>
      rw [List.append_nil] at hw
      exact ⟨[], [], by rw [hfirst w hw]; rfl, nofun, rfl⟩
    | cons b rest =>
      have hb : isBlank b = true := by simpa using hstop b rfl
      rw [words_append_cons hb, List.mem_append] at hw
      rcases hw with hw | hw
      · exact ⟨[], b :: rest, by rw [hfirst w hw]; rfl, nofun, hb⟩
      · have hshorter : rest.length < n := by
          rw [← hlength, List.length_append, List.length_cons]
          omega
        obtain ⟨pre, post, rfl, hpre, hpost⟩ := ih rest.length hshorter hw rfl
        refine ⟨v ++ b :: pre, post, by simp, ?_, hpost⟩
        intro c hc
        rw [List.getLast?_append_cons, List.getLast?_cons] at hc
        cases hlast : pre.getLast? with
        | none =>
          rw [hlast] at hc
          cases hc
          exact hb
        | some d =>
          rw [hlast] at hc
          cases hc
          exact hpre d hlast

/-- The words of what stands behind a blank, or at the start, are words of the whole text. -/
theorem mem_words_append {pre s w : List Char} (hpre : ∀ c ∈ pre.getLast?, isBlank c = true)
    (hw : w ∈ words s) : w ∈ words (pre ++ s) := by
  rcases List.eq_nil_or_concat' pre with rfl | ⟨pre, b, rfl⟩
  · exact hw
  · have hb : isBlank b = true := hpre b List.getLast?_concat
    rw [List.append_assoc, List.singleton_append, words_append_cons hb]
    exact List.mem_append_right _ hw

/-- **A word is a maximal part without blanks.** -/
theorem mem_words_iff {s w : List Char} : w ∈ words s ↔ w ≠ [] ∧ (∀ c ∈ w, isBlank c = false) ∧
    ∃ pre post, s = pre ++ (w ++ post) ∧ (∀ c ∈ pre.getLast?, isBlank c = true) ∧
      startsNoWord post = true := by
  constructor
  · exact fun hw => ⟨(mem_words hw).1, (mem_words hw).2, exists_of_mem_words hw⟩
  · rintro ⟨hne, hblank, pre, post, rfl, hpre, hpost⟩
    refine mem_words_append hpre ?_
    rw [words_word_boundary hne hblank hpost]
    exact List.mem_cons_self

/-- What follows it decides whether a character that is no blank is a word on its own. -/
theorem words_cons_eq {c : Char} (hc : isBlank c = false) (s : List Char) :
    words (c :: s) =
      if startsNoWord s then [c] :: words s else (words s).modifyHead (c :: ·) := by
  have hne : [c] ≠ [] := List.cons_ne_nil c []
  have hw : ∀ d ∈ [c], isBlank d = false := by simpa using hc
  cases s with
  | nil => exact pieces_eq_singleton hne hw
  | cons d s =>
    by_cases hd : isBlank d = true
    · rw [if_pos (show startsNoWord (d :: s) = true from hd), words_cons hd]
      exact words_word_append hne hw hd s
    · rw [if_neg (show ¬startsNoWord (d :: s) = true from hd)]
      obtain ⟨w, ws, hw, hcw⟩ := words_cons_cons hc (Bool.eq_false_iff.2 hd) s
      rw [hcw, hw]; rfl

/-- Spacing keeps the words. -/
theorem words_spaced (s : List Char) : words (spaced s) = words s := by
  induction s with
  | nil => rfl
  | cons c s ih =>
    by_cases hc : isBlank c = true
    · by_cases hs : startsBlank s = true
      · rw [spaced_cons_blank hc hs, ih, words_cons hc]
      · rw [spaced_cons_last hc (Bool.eq_false_iff.2 hs), words_cons isBlank_space, ih, words_cons hc]
    · have hc := Bool.eq_false_iff.2 hc
      rw [spaced_cons hc, words_cons_eq hc, words_cons_eq hc, ih, startsNoWord_spaced]

theorem joinSpaced_cons_cons (w v : List Char) (ws : List (List Char)) :
    joinSpaced (w :: v :: ws) = w ++ ' ' :: joinSpaced (v :: ws) := by
  rw [joinSpaced, List.intercalate_cons_cons, List.append_assoc]; rfl

/-- A text that ends with no blank has a word. -/
theorem words_ne_nil {s : List Char} (hne : s ≠ [])
    (hlast : ∀ c, s.getLast? = some c → isBlank c = false) : words s ≠ [] := by
  intro hnil
  have hd := List.getLast?_eq_some_getLast hne
  have hblank := List.all_eq_true.1 (words_eq_nil_iff.1 hnil) _ (List.mem_of_getLast? hd)
  rw [hlast _ hd] at hblank
  exact Bool.false_ne_true hblank

/-- Spacing a text that does not end with a blank joins its words, after a space if it starts with a
blank. -/
theorem spaced_eq_joinSpaced {s : List Char} (hne : s ≠ [])
    (hlast : ∀ c, s.getLast? = some c → isBlank c = false) :
    spaced s = (if startsBlank s then [' '] else []) ++ joinSpaced (words s) := by
  induction s with
  | nil => exact absurd rfl hne
  | cons c s ih =>
    by_cases hs : s = []
    · subst hs
      have hc := hlast c rfl
      rw [spaced_cons hc, words_cons_eq hc, show startsBlank [c] = false from hc]
      simp [startsNoWord, joinSpaced]
    · have hlast' : ∀ d, s.getLast? = some d → isBlank d = false := fun d hd =>
        hlast d (by rw [List.getLast?_cons_of_ne_nil hs, hd])
      have ih := ih hs hlast'
      by_cases hc : isBlank c = true
      · -- the run of blanks at the start shows as one space, written for its last blank
        rw [words_cons hc, show startsBlank (c :: s) = true from hc, if_pos rfl]
        by_cases hb : startsBlank s = true
        · rw [spaced_cons_blank hc hb, ih, if_pos hb]
        · rw [spaced_cons_last hc (Bool.eq_false_iff.2 hb), ih, if_neg hb]; rfl
      · have hc := Bool.eq_false_iff.2 hc
        rw [spaced_cons hc, ih, words_cons_eq hc, show startsBlank (c :: s) = false from hc]
        -- `c` is a word on its own, or it goes on with the first word `w` of what follows
        obtain ⟨d, u, rfl⟩ := List.exists_cons_of_ne_nil hs
        obtain ⟨w, ws, hw⟩ := List.exists_cons_of_ne_nil (words_ne_nil hs hlast')
        rw [show startsNoWord (d :: u) = isBlank d from rfl,
          show startsBlank (d :: u) = isBlank d from rfl, hw]
        by_cases hd : isBlank d = true
        · rw [if_pos hd, if_pos hd, joinSpaced_cons_cons]; rfl
        · rw [if_neg hd, if_neg hd]
          cases ws with
          | nil => simp [joinSpaced]
          | cons v ws => simp [joinSpaced_cons_cons]

/-- **Squeezing is trimming and spacing.** -/
theorem squeeze_eq_spaced_trim (s : List Char) : squeeze s = spaced (trim s) := by
  by_cases hne : trim s = []
  · rw [hne, spaced_nil, squeeze_eq_nil_iff, ← words_eq_nil_iff, ← words_trim, hne, words_nil]
  · have hstart : startsBlank (trim s) = false := by
      rw [startsBlank]
      cases h : (trim s).head? with
      | none => rfl
      | some c => exact isBlank_of_head?_trim h
    rw [spaced_eq_joinSpaced hne fun c => isBlank_of_getLast?_trim, hstart, words_trim]
    rfl

/-- The only blanks of a squeezed text are spaces. -/
theorem mem_squeeze {s : List Char} {c : Char} (hc : c ∈ squeeze s) :
    c = ' ' ∨ isBlank c = false := by
  obtain h | ⟨w, hw, h⟩ := mem_intercalate hc
  · exact .inl h
  · exact .inr ((mem_words hw).2 c h)

/-- A text on one line stays. -/
theorem collapseBreaks_eq_self {s : List Char} (h : ∀ c ∈ s, isLineBreak c = false) :
    collapseBreaks s = s := by
  induction s with
  | nil => rfl
  | cons c s ih =>
    unfold collapseBreaks
    rw [h c List.mem_cons_self, if_neg Bool.false_ne_true,
      ih fun d hd => h d (List.mem_cons_of_mem c hd)]

/-- A text whose line breaks are collapsed has none. -/
theorem isLineBreak_of_mem_collapseBreaks {s : List Char} {c : Char}
    (hc : c ∈ collapseBreaks s) : isLineBreak c = false := by
  have hspace : isLineBreak ' ' = false := by decide
  fun_induction collapseBreaks s with
  | case1 => exact absurd hc List.not_mem_nil
  | case2 => exact List.mem_singleton.1 hc ▸ hspace
  | case3 _ _ _ _ _ ih => exact ih hc
  | case4 _ _ _ _ _ ih =>
    rcases List.mem_cons.1 hc with rfl | hc
    · exact hspace
    · exact ih hc
  | case5 d _ hd ih =>
    rcases List.mem_cons.1 hc with rfl | hc
    · exact Bool.eq_false_iff.2 hd
    · exact ih hc

/-- A squeezed text is on one line. -/
theorem collapseBreaks_squeeze (s : List Char) : collapseBreaks (squeeze s) = squeeze s := by
  apply collapseBreaks_eq_self
  intro c hc
  by_contra h
  rw [Bool.not_eq_false, isLineBreak, Bool.or_eq_true, beq_iff_eq, beq_iff_eq] at h
  rcases h with rfl | rfl <;> exact absurd (mem_squeeze hc) (by decide)

/-- A squeezed text is trimmed. -/
theorem trim_squeeze (s : List Char) : trim (squeeze s) = squeeze s := by
  rw [squeeze_eq_spaced_trim]
  apply trim_eq_self
  · intro c hc
    rw [head?_spaced, Option.map_eq_some_iff] at hc
    obtain ⟨d, hd, rfl⟩ := hc
    rw [isBlank_spacedChar, isBlank_of_head?_trim hd]
  · intro c hc
    rw [getLast?_spaced, Option.map_eq_some_iff] at hc
    obtain ⟨d, hd, rfl⟩ := hc
    rw [isBlank_spacedChar, isBlank_of_getLast?_trim hd]

/-! ## Single spaces -/

/-- The text has no blank at its ends, no blank but the space U+0020, and no two blanks side by
side. -/
structure SingleSpaced (s : List Char) : Prop where
  start {c : Char} (h : s.head? = some c) : isBlank c = false
  finish {c : Char} (h : s.getLast? = some c) : isBlank c = false
  blank {c : Char} (hc : c ∈ s) (h : isBlank c = true) : c = ' '
  single : s.IsChain fun c d => isBlank c = false ∨ isBlank d = false

theorem singleSpaced_nil : SingleSpaced [] where
  start h := absurd h (by simp)
  finish h := absurd h (by simp)
  blank h := absurd h List.not_mem_nil
  single := .nil

/-- Of two blanks side by side, spacing leaves one. -/
theorem isChain_spaced (s : List Char) :
    (spaced s).IsChain fun c d => isBlank c = false ∨ isBlank d = false := by
  induction s with
  | nil => exact .nil
  | cons c s ih =>
    by_cases hc : isBlank c = true
    · by_cases hs : startsBlank s = true
      · rwa [spaced_cons_blank hc hs]
      · have hs := Bool.eq_false_iff.2 hs
        rw [spaced_cons_last hc hs, List.isChain_cons]
        refine ⟨fun d hd => .inr ?_, ih⟩
        rw [head?_spaced, Option.mem_def, Option.map_eq_some_iff] at hd
        obtain ⟨e, he, rfl⟩ := hd
        rw [startsBlank, he] at hs
        rw [isBlank_spacedChar]
        exact hs
    · have hc := Bool.eq_false_iff.2 hc
      rw [spaced_cons hc, List.isChain_cons]
      exact ⟨fun d _ => .inl hc, ih⟩

theorem singleSpaced_squeeze (s : List Char) : SingleSpaced (squeeze s) where
  start h := isBlank_of_head?_trim (trim_squeeze s ▸ h)
  finish h := isBlank_of_getLast?_trim (trim_squeeze s ▸ h)
  blank hc h := (mem_squeeze hc).resolve_right fun hnot => by rw [h] at hnot; cases hnot
  single := squeeze_eq_spaced_trim s ▸ isChain_spaced _

/-- Words with one space between them. -/
theorem singleSpaced_joinSpaced {ws : List (List Char)}
    (h : ∀ w ∈ ws, w ≠ [] ∧ ∀ c ∈ w, isBlank c = false) : SingleSpaced (joinSpaced ws) := by
  have hsqueeze : squeeze (joinSpaced ws) = joinSpaced ws := by rw [squeeze, words_joinSpaced h]
  exact hsqueeze ▸ singleSpaced_squeeze _

/-- Two texts may be joined by a space. -/
theorem SingleSpaced.join {s t : List Char} (hs : SingleSpaced s) (ht : SingleSpaced t)
    (hs' : s ≠ []) (ht' : t ≠ []) : SingleSpaced (s ++ ' ' :: t) where
  start h := by
    rw [List.head?_append_of_ne_nil _ hs'] at h
    exact hs.start h
  finish h := by
    rw [List.getLast?_append_of_ne_nil _ (List.cons_ne_nil _ _),
      List.getLast?_cons_of_ne_nil ht'] at h
    exact ht.finish h
  blank hc h := by
    rcases List.mem_append.1 hc with hc | hc
    · exact hs.blank hc h
    · rcases List.mem_cons.1 hc with rfl | hc
      · rfl
      · exact ht.blank hc h
  single := by
    have htail : (' ' :: t).IsChain fun c d => isBlank c = false ∨ isBlank d = false :=
      List.isChain_cons.2 ⟨fun d hd => .inr (ht.start hd), ht.single⟩
    exact List.isChain_append.2 ⟨hs.single, htail, fun c hc _ _ => .inl (hs.finish hc)⟩

end DocTree.Text
