import DocTree.Proofs.Hash.Lexing

/-!
# Text that is read as it is written

A backslash before every brace makes braces text (`escape`). What is left to be read as something
else is a marker, which escaping neither makes nor breaks (`announces_escape`), and a marker is a whole
word (`MarkerWord`): if no word of a text is one, the lexemes of the escaped text are its characters,
whatever stands before it, and if what follows it starts no word (`lexemes_escape`).

As tokens, such lexemes come out as one part (`parts_text`).
-/

namespace DocTree.Hash

open Text (isBlank words startsNoWord)

/-! ## Escaping -/

/-- A character with a backslash before it if it is a brace. -/
def escapeChar (c : Char) : List Char := if isBrace c then ['\\', c] else [c]

/-- A text with a backslash before every brace. -/
def escape (s : List Char) : List Char := s.flatMap escapeChar

/-- The lexeme as which an escaped character is read. -/
def escapedLexeme (c : Char) : Lexeme := if isBrace c then .escaped c else .plain c

@[simp] theorem escape_nil : escape [] = [] := rfl

theorem escape_cons (c : Char) (s : List Char) : escape (c :: s) = escapeChar c ++ escape s :=
  List.flatMap_cons

@[simp] theorem escape_append (s t : List Char) : escape (s ++ t) = escape s ++ escape t :=
  List.flatMap_append

theorem escapeChar_eq_self {c : Char} (hc : isBrace c = false) : escapeChar c = [c] := by
  rw [escapeChar, hc]; rfl

/-- A text without braces stays. -/
theorem escape_eq_self {s : List Char} (h : ∀ c ∈ s, isBrace c = false) : escape s = s := by
  induction s with
  | nil => rfl
  | cons c s ih =>
    rw [escape_cons, escapeChar_eq_self (h c List.mem_cons_self),
      ih fun d hd => h d (List.mem_cons_of_mem c hd)]
    rfl

/-- An escaped text starts with no brace. -/
theorem isBrace_of_head?_escape {s rest : List Char} (hrest : startsNoWord rest = true) {d : Char}
    (hd : (escape s ++ rest).head? = some d) : isBrace d = false := by
  cases s with
  | nil =>
    rw [escape_nil, List.nil_append] at hd
    rw [startsNoWord, hd] at hrest
    -- what follows starts with a blank, and a brace is none
    by_contra hbrace
    have hblank : isBlank d = true := hrest
    rw [isBlank_of_isBrace (Bool.not_eq_false _ ▸ hbrace)] at hblank
    exact Bool.false_ne_true hblank
  | cons c s =>
    rw [escape_cons, escapeChar] at hd
    by_cases hc : isBrace c = true
    · rw [if_pos hc] at hd
      cases hd
      decide
    · rw [if_neg hc] at hd
      cases hd
      exact Bool.eq_false_iff.2 hc

/-! ## Names in escaped text -/

/-- A name in an escaped text is the name in the text. -/
theorem takeWhile_escape {rest : List Char} (hrest : startsNoWord rest = true) (s : List Char) :
    (escape s ++ rest).takeWhile isNameChar = s.takeWhile isNameChar ∧
      (escape s ++ rest).dropWhile isNameChar = escape (s.dropWhile isNameChar) ++ rest := by
  induction s with
  | nil =>
    cases rest with
    | nil => exact ⟨rfl, rfl⟩
    | cons c rest =>
      have hc : isNameChar c = false := isNameChar_of_isBlank hrest
      rw [escape_nil, List.nil_append, List.takeWhile_cons, List.dropWhile_cons, hc]
      exact ⟨rfl, rfl⟩
  | cons c s ih =>
    rw [escape_cons, List.takeWhile_cons, List.dropWhile_cons]
    by_cases hc : isNameChar c = true
    · rw [escapeChar_eq_self (isBrace_of_isNameChar hc), List.append_assoc, List.singleton_append,
        List.takeWhile_cons, List.dropWhile_cons, if_pos hc, if_pos hc, if_pos hc, if_pos hc, ih.1,
        ih.2]
      exact ⟨rfl, rfl⟩
    · rw [if_neg hc, if_neg hc, escape_cons, escapeChar]
      split
      · -- the name ends before a brace, and so it does before the backslash in front of it
        rw [List.cons_append, List.cons_append, List.takeWhile_cons, List.dropWhile_cons,
          isNameChar_backslash]
        exact ⟨rfl, rfl⟩
      · rw [List.cons_append, List.cons_append, List.takeWhile_cons, List.dropWhile_cons,
          if_neg hc, if_neg hc]
        exact ⟨rfl, rfl⟩

/-- A brace is as little of a boundary as the backslash before it. -/
theorem atBoundary_head?_escape {rest : List Char} (hrest : startsNoWord rest = true)
    (s : List Char) : atBoundary (escape s ++ rest).head? = atBoundary s.head? := by
  cases s with
  | nil => rw [escape_nil, List.nil_append, atBoundary_head?, hrest]; rfl
  | cons c s =>
    rw [escape_cons, escapeChar]
    split
    · next hc =>
      show isBlank '\\' = isBlank c
      rw [isBlank_of_isBrace hc]
      decide
    · rfl

/-- Escaping neither makes nor breaks a marker. -/
theorem announces_escape {r : Registry} {rest : List Char} (hrest : startsNoWord rest = true)
    (s : List Char) : announces r (escape s ++ rest) = announces r s := by
  obtain ⟨htake, hdrop⟩ := takeWhile_escape hrest s
  rw [announces, announces, htake, hdrop, atBoundary_head?_escape hrest]

/-! ## Markers -/

/-- The word is read as a marker. -/
def MarkerWord (r : Registry) (w : List Char) : Prop :=
  ∃ name, w = '@' :: name ∧ name ≠ [] ∧ (∀ c ∈ name, isNameChar c = true) ∧
    r.isMarker (String.ofList name) = true

instance (r : Registry) (w : List Char) : Decidable (MarkerWord r w) :=
  decidable_of_iff (w.head? = some '@' ∧ w.tail ≠ [] ∧ (∀ c ∈ w.tail, isNameChar c = true) ∧
      r.isMarker (String.ofList w.tail) = true) <| by
    constructor
    · rintro ⟨hhead, hne, hchars, hmarker⟩
      obtain ⟨name, rfl⟩ := List.head?_eq_some_iff.1 hhead
      exact ⟨name, rfl, hne, hchars, hmarker⟩
    · rintro ⟨name, rfl, hne, hchars, hmarker⟩
      exact ⟨rfl, hne, hchars, hmarker⟩

theorem MarkerWord.ne_nil {r : Registry} {w : List Char} (h : MarkerWord r w) : w ≠ [] := by
  obtain ⟨name, rfl, -⟩ := h
  exact List.cons_ne_nil _ _

/-- A marker has no blank in it. -/
theorem MarkerWord.isBlank {r : Registry} {w : List Char} (h : MarkerWord r w) :
    ∀ c ∈ w, Text.isBlank c = false := by
  obtain ⟨name, rfl, -, hchars, -⟩ := h
  intro c hc
  rcases List.mem_cons.1 hc with rfl | hc
  · decide
  · exact isBlank_of_isNameChar (hchars c hc)

/-- A marker in an escaped text is a word of the text. -/
theorem markerWord_of_announces {r : Registry} {s rest : List Char}
    (hrest : startsNoWord rest = true) (h : announces r (escape s ++ rest) = true) :
    ∃ w ∈ words ('@' :: s), MarkerWord r w := by
  rw [announces_escape hrest, announces, Bool.and_eq_true, Bool.and_eq_true] at h
  obtain ⟨⟨hne, hmarker⟩, hend⟩ := h
  have hname : s.takeWhile isNameChar ≠ [] := by simpa using hne
  have hchars : ∀ c ∈ s.takeWhile isNameChar, isNameChar c = true := fun c hc =>
    List.all_eq_true.1 List.all_takeWhile c hc
  have hword : MarkerWord r ('@' :: s.takeWhile isNameChar) := ⟨_, rfl, hname, hchars, hmarker⟩
  have hsplit : '@' :: s = ('@' :: s.takeWhile isNameChar) ++ s.dropWhile isNameChar := by
    rw [List.cons_append, List.takeWhile_append_dropWhile]
  -- the name ends the word, because what stands behind it is a blank or nothing
  have hafter : startsNoWord (s.dropWhile isNameChar) = true := by
    rwa [← atBoundary_head?]
  refine ⟨'@' :: s.takeWhile isNameChar, ?_, hword⟩
  rw [hsplit, Text.words_word_boundary hword.ne_nil hword.isBlank hafter]
  exact List.mem_cons_self

/-! ## Lexemes of escaped text -/

/-- A brace behind a backslash is text. -/
theorem lexemes_escaped (r : Registry) (before : Option Char) {c : Char} (hc : isBrace c = true)
    (rest : List Char) :
    lexemes r before ('\\' :: c :: rest) = .escaped c :: lexemes r (some c) rest :=
  (First.escaped rfl hc rfl).lexemes_eq

/-- Any other character is text, unless it escapes a brace or starts a marker. -/
theorem lexemes_plain {r : Registry} {before : Option Char} {c : Char} {rest : List Char}
    (hc : isBrace c = false)
    (hescape : c = '\\' → ∀ d, rest.head? = some d → isBrace d = false)
    (hmarker : c = '@' → atBoundary before = true → announces r rest = false) :
    lexemes r before (c :: rest) = .plain c :: lexemes r (some c) rest := by
  have hleft : c ≠ '{' := fun h => absurd (isBrace_iff.2 (.inl h)) (by rw [hc]; decide)
  have hright : c ≠ '}' := fun h => absurd (isBrace_iff.2 (.inr h)) (by rw [hc]; decide)
  exact (First.plain hescape (fun h => absurd h hleft) (fun h => absurd h hright)
    hmarker).lexemes_eq

/-- The induction behind `lexemes_escape`: `pre` is what was read of the text before `s`. -/
theorem lexemes_escape_after {r : Registry} {rest : List Char} (hrest : startsNoWord rest = true)
    (s pre : List Char) (before : Option Char)
    (hbefore : atBoundary before = true → atBoundary pre.getLast? = true)
    (hwords : ∀ w ∈ words (pre ++ s), ¬MarkerWord r w) :
    lexemes r before (escape s ++ rest) =
      s.map escapedLexeme ++ lexemes r (s.getLast?.or before) rest := by
  induction s generalizing pre before with
  | nil => rfl
  | cons c s ih =>
    have hlast : (c :: s).getLast?.or before = s.getLast?.or (some c) := by
      rw [List.getLast?_cons]
      cases s.getLast? <;> rfl
    have hnext := ih (pre ++ [c]) (some c) (by rw [List.getLast?_concat]; exact id)
      (by rwa [List.append_assoc])
    rw [hlast, List.map_cons, List.cons_append, ← hnext, escape_cons, escapeChar, escapedLexeme]
    by_cases hc : isBrace c = true
    · rw [if_pos hc, if_pos hc]
      exact lexemes_escaped r before hc _
    · rw [if_neg hc, if_neg hc]
      refine lexemes_plain (Bool.eq_false_iff.2 hc) ?_ ?_
      · exact fun _ d hd => isBrace_of_head?_escape hrest hd
      · rintro rfl hboundary
        by_contra hannounces
        obtain ⟨w, hw, hmarker⟩ :=
          markerWord_of_announces hrest (Bool.not_eq_false _ ▸ hannounces)
        -- the marker is a word of the whole text, because `pre` is empty or ends with a blank
        have hpre := atBoundary_iff.1 (hbefore hboundary)
        exact hwords w (Text.mem_words_append hpre hw) hmarker

/-- **Escaped text without a marker is read as its characters.** -/
theorem lexemes_escape {r : Registry} {s rest : List Char} (hrest : startsNoWord rest = true)
    (hwords : ∀ w ∈ words s, ¬MarkerWord r w) (before : Option Char) :
    lexemes r before (escape s ++ rest) =
      s.map escapedLexeme ++ lexemes r (s.getLast?.or before) rest :=
  lexemes_escape_after hrest s [] before (fun _ => rfl) hwords

/-! ## Tokens of escaped text -/

theorem parts_escapedLexeme (c : Char) (ls : List Lexeme) :
    parts (escapedLexeme c :: ls) = joinPart [c] (parts ls) := by
  rw [escapedLexeme]
  split <;> rfl

/-- The characters of a text come out as one part. -/
theorem parts_text {s : List Char} (hne : s ≠ []) (ls : List Lexeme) :
    parts (s.map escapedLexeme ++ ls) = joinPart s (parts ls) := by
  induction s with
  | nil => exact absurd rfl hne
  | cons c s ih =>
    rw [List.map_cons, List.cons_append, parts_escapedLexeme]
    by_cases hs : s = []
    · rw [hs, List.map_nil, List.nil_append]
    · rw [ih hs, joinPart_joinPart]; rfl

end DocTree.Hash
