import DocTree.Hash.Token
import DocTree.Proofs.Text.Words

/-!
# The lexemes of a text, one by one

`First` lists the ways in which a character can start a lexeme, each with what has to stand around
it, and `firstLexeme_eq_iff` says that the list is complete and that no two of its cases overlap.

Tokens are followed without their positions: `parts` are the kinds and values of the tokens of lexemes
(`map_tokensAt`). The positions increase from token to token (`pairwise_position_tokenize`), because no
lexeme is read from an empty text.
-/

namespace DocTree.Hash

open Text (isBlank startsNoWord)

/-! ## Characters -/

/-- A brace. -/
def isBrace (c : Char) : Bool := c == '{' || c == '}'

theorem isBrace_iff {c : Char} : isBrace c = true ↔ c = '{' ∨ c = '}' := by
  rw [isBrace, Bool.or_eq_true, beq_iff_eq, beq_iff_eq]

theorem isBlank_of_isBrace {c : Char} (hc : isBrace c = true) : isBlank c = false := by
  rcases isBrace_iff.1 hc with rfl | rfl <;> decide

theorem isNameChar_of_isBlank {c : Char} (hc : isBlank c = true) : isNameChar c = false := by
  have hdash : c ≠ '-' := by
    rintro rfl
    exact absurd hc (by decide)
  rw [isNameChar, Text.isWord_eq_false_of_isBlank hc]
  simpa using hdash

theorem isNameChar_of_isBrace {c : Char} (hc : isBrace c = true) : isNameChar c = false := by
  rcases isBrace_iff.1 hc with rfl | rfl <;> decide +kernel

theorem isNameChar_backslash : isNameChar '\\' = false := by decide +kernel

theorem isBrace_of_isNameChar {c : Char} (hc : isNameChar c = true) : isBrace c = false := by
  by_contra h
  rw [isNameChar_of_isBrace (Bool.not_eq_false _ ▸ h)] at hc
  exact Bool.false_ne_true hc

theorem isBlank_of_isNameChar {c : Char} (hc : isNameChar c = true) : isBlank c = false := by
  by_contra h
  rw [isNameChar_of_isBlank (Bool.not_eq_false _ ▸ h)] at hc
  exact Bool.false_ne_true hc

theorem atBoundary_iff {before : Option Char} :
    atBoundary before = true ↔ ∀ c ∈ before, isBlank c = true := by
  cases before with
  | none => exact ⟨fun _ => nofun, fun _ => rfl⟩
  | some c => simp [atBoundary]

theorem atBoundary_head? (s : List Char) : atBoundary s.head? = startsNoWord s := by
  cases s <;> rfl

/-! ## The first lexeme -/

/-- An `@` in front of the text is a marker, if it may stand there. -/
def announces (r : Registry) (text : List Char) : Bool :=
  !(text.takeWhile isNameChar).isEmpty && r.isMarker (String.ofList (text.takeWhile isNameChar)) &&
    atBoundary (text.dropWhile isNameChar).head?

/-- The ways in which `c`, with `before` before it and `rest` behind it, starts a lexeme; each with the
lexeme and what is left of `rest`. -/
inductive First (r : Registry) (before : Option Char) (c : Char) (rest : List Char) :
    Lexeme → List Char → Prop where
  | escaped {brace : Char} {after : List Char} (hc : c = '\\') (hbrace : isBrace brace = true)
      (hrest : rest = brace :: after) : First r before c rest (.escaped brace) after
  | inline (hc : c = '{') (hat : rest.head? = some '@') :
      First r before c rest (.inline ('{' :: (cutInline rest).1)) (cutInline rest).2
  | opening (hc : c = '{') (hend : atBoundary rest.head? = true) :
      First r before c rest .opening rest
  | closing (hc : c = '}') (hstart : atBoundary before = true) :
      First r before c rest .closing rest
  | marker (hc : c = '@') (hstart : atBoundary before = true) (hname : announces r rest = true) :
      First r before c rest (.marker (rest.takeWhile isNameChar)) (rest.dropWhile isNameChar)
  | plain (hescape : c = '\\' → ∀ d, rest.head? = some d → isBrace d = false)
      (hopen : c = '{' → rest.head? ≠ some '@' ∧ atBoundary rest.head? = false)
      (hclose : c = '}' → atBoundary before = false)
      (hmarker : c = '@' → atBoundary before = true → announces r rest = false) :
      First r before c rest (.plain c) rest

theorem First.eq {r : Registry} {before : Option Char} {c : Char} {rest after : List Char}
    {l : Lexeme} (h : First r before c rest l after) : firstLexeme r before c rest = (l, after) := by
  rw [firstLexeme.eq_def]
  cases h with
  | escaped hc hbrace hrest =>
    subst hc hrest
    rw [if_pos (by decide)]
    exact if_pos hbrace
  | inline hc hat =>
    subst hc
    rw [if_neg (by decide), if_pos (by decide), hat, if_pos (by decide)]
  | opening hc hend =>
    subst hc
    have hat : ¬(rest.head? == some '@') = true := by
      intro hat
      rw [beq_iff_eq] at hat
      rw [hat] at hend
      exact absurd hend (by decide)
    rw [if_neg (by decide), if_pos (by decide), if_neg hat, if_pos hend]
  | closing hc hstart =>
    subst hc
    rw [if_neg (by decide), if_neg (by decide), if_pos (by decide), if_pos hstart]
  | marker hc hstart hname =>
    subst hc
    rw [if_neg (by decide), if_neg (by decide), if_neg (by decide), hstart, if_pos (by decide)]
    exact if_pos hname
  | plain hescape hopen hclose hmarker =>
    -- each of the four signs fails at the test that its own condition excludes
    by_cases hback : c = '\\'
    · subst hback
      rw [if_pos (by decide)]
      cases rest with
      | nil => rfl
      | cons d rest => exact if_neg (Bool.eq_false_iff.1 (hescape rfl d rfl))
    by_cases hleft : c = '{'
    · subst hleft
      obtain ⟨hat, hend⟩ := hopen rfl
      rw [if_neg (by decide), if_pos (by decide), if_neg (by simpa using hat),
        if_neg (Bool.eq_false_iff.1 hend)]
    by_cases hright : c = '}'
    · subst hright
      rw [if_neg (by decide), if_neg (by decide), if_pos (by decide),
        if_neg (Bool.eq_false_iff.1 (hclose rfl))]
    rw [if_neg (by simpa using hback), if_neg (by simpa using hleft),
      if_neg (by simpa using hright)]
    by_cases hat : c = '@' ∧ atBoundary before = true
    · rw [hat.1, hat.2, if_pos (by decide)]
      exact if_neg (Bool.eq_false_iff.1 (hmarker hat.1 hat.2))
    · exact if_neg (by simpa using hat)

/-- Some way of starting a lexeme applies. -/
theorem exists_first (r : Registry) (before : Option Char) (c : Char) (rest : List Char) :
    ∃ l after, First r before c rest l after := by
  by_cases hescape : c = '\\' ∧ ∃ d after, rest = d :: after ∧ isBrace d = true
  · obtain ⟨hc, d, after, hrest, hd⟩ := hescape
    exact ⟨_, _, .escaped hc hd hrest⟩
  by_cases hat : c = '{' ∧ rest.head? = some '@'
  · exact ⟨_, _, .inline hat.1 hat.2⟩
  by_cases hopen : c = '{' ∧ atBoundary rest.head? = true
  · exact ⟨_, _, .opening hopen.1 hopen.2⟩
  by_cases hclose : c = '}' ∧ atBoundary before = true
  · exact ⟨_, _, .closing hclose.1 hclose.2⟩
  by_cases hmarker : c = '@' ∧ atBoundary before = true ∧ announces r rest = true
  · exact ⟨_, _, .marker hmarker.1 hmarker.2.1 hmarker.2.2⟩
  -- nothing else applies, so the character stands for itself
  refine ⟨_, _, .plain ?_ ?_ ?_ ?_⟩
  · intro hc d hd
    obtain ⟨after, hrest⟩ := List.head?_eq_some_iff.1 hd
    exact Bool.eq_false_iff.2 fun hbrace => hescape ⟨hc, d, after, hrest, hbrace⟩
  · exact fun hc => ⟨fun h => hat ⟨hc, h⟩, Bool.eq_false_iff.2 fun h => hopen ⟨hc, h⟩⟩
  · exact fun hc => Bool.eq_false_iff.2 fun h => hclose ⟨hc, h⟩
  · exact fun hc hstart => Bool.eq_false_iff.2 fun h => hmarker ⟨hc, hstart, h⟩

/-- **The first lexeme is the one that `First` allows.** -/
theorem firstLexeme_eq_iff {r : Registry} {before : Option Char} {c : Char}
    {rest after : List Char} {l : Lexeme} :
    firstLexeme r before c rest = (l, after) ↔ First r before c rest l after := by
  refine ⟨fun h => ?_, First.eq⟩
  -- some way applies, and by `First.eq` it leads to the same lexeme
  obtain ⟨l', after', hfirst⟩ := exists_first r before c rest
  rw [hfirst.eq] at h
  cases h
  exact hfirst

/-- The lexemes of a text are its first lexeme and those of what is left. -/
theorem First.lexemes_eq {r : Registry} {before : Option Char} {c : Char} {rest after : List Char}
    {l : Lexeme} (h : First r before c rest l after) :
    lexemes r before (c :: rest) = l :: lexemes r l.source.getLast? after := by
  rw [lexemes, h.eq]

/-! ## Tokens without positions -/

/-- Put a text in front of parts: a part of text that follows grows. -/
def joinPart (text : List Char) : List (TokenKind × List Char) → List (TokenKind × List Char)
  | (.text, value) :: rest => (.text, text ++ value) :: rest
  | ps => (.text, text) :: ps

/-- The kinds and values of the tokens of lexemes. -/
def parts : List Lexeme → List (TokenKind × List Char)
  | [] => []
  | l :: rest =>
    match l with
    | .opening => (.opening, ['{']) :: parts rest
    | .closing => (.closing, ['}']) :: parts rest
    | .marker name => (.marker, name) :: parts rest
    | .escaped brace => joinPart [brace] (parts rest)
    | .inline text => joinPart text (parts rest)
    | .plain c => joinPart [c] (parts rest)

theorem map_joinText (text : List Char) (position : Nat) (ts : List Token) :
    (joinText text position ts).map (fun t => (t.kind, t.value)) =
      joinPart text (ts.map fun t => (t.kind, t.value)) := by
  cases ts with
  | nil => rfl
  | cons t ts =>
    obtain ⟨kind, value, place⟩ := t
    cases kind <;> rfl

/-- The parts of lexemes are their tokens without the positions. -/
theorem map_tokensAt (position : Nat) (ls : List Lexeme) :
    (tokensAt position ls).map (fun t => (t.kind, t.value)) = parts ls := by
  induction ls generalizing position with
  | nil => rfl
  | cons l ls ih =>
    have ih := ih (position + l.source.length)
    cases l with
    | opening => rw [tokensAt, parts, List.map_cons, ih]
    | closing => rw [tokensAt, parts, List.map_cons, ih]
    | marker name => rw [tokensAt, parts, List.map_cons, ih]
    | escaped brace => rw [tokensAt, parts, map_joinText, ih]
    | inline text => rw [tokensAt, parts, map_joinText, ih]
    | plain c => rw [tokensAt, parts, map_joinText, ih]

theorem joinPart_joinPart (s t : List Char) (ps : List (TokenKind × List Char)) :
    joinPart s (joinPart t ps) = joinPart (s ++ t) ps := by
  rcases ps with _ | ⟨⟨_ | _ | _ | _, value⟩, ps⟩ <;> simp [joinPart]

/-! ## Positions -/

theorem First.source_ne_nil {r : Registry} {before : Option Char} {c : Char} {rest after : List Char}
    {l : Lexeme} (h : First r before c rest l after) : l.source ≠ [] := by
  cases h <;> exact List.cons_ne_nil _ _

/-- Each lexeme is read from some text. -/
theorem source_ne_nil_of_mem_lexemes {r : Registry} {before : Option Char} {s : List Char}
    {l : Lexeme} (hl : l ∈ lexemes r before s) : l.source ≠ [] := by
  induction before, s using lexemes.induct r with
  | case1 before =>
    rw [lexemes] at hl
    exact absurd hl List.not_mem_nil
  | case2 before c rest first ih =>
    obtain ⟨l', after, hfirst⟩ := exists_first r before c rest
    have hl' : first = (l', after) := hfirst.eq
    rw [hl'] at ih
    rw [hfirst.lexemes_eq, List.mem_cons] at hl
    rcases hl with rfl | hl
    · exact hfirst.source_ne_nil
    · exact ih hl

/-- Tokens in a row, from `position` on. -/
def InRow (position : Nat) (ts : List Token) : Prop :=
  (∀ t ∈ ts, position ≤ t.position) ∧ ts.Pairwise fun t u => t.position < u.position

theorem inRow_nil (position : Nat) : InRow position [] :=
  ⟨fun _ h => absurd h List.not_mem_nil, .nil⟩

/-- A token goes in front of tokens that start behind it. -/
theorem InRow.cons {place position : Nat} {ts : List Token} (h : InRow place ts)
    (hplace : position < place) (kind : TokenKind) (value : List Char) :
    InRow position (⟨kind, value, position⟩ :: ts) := by
  refine ⟨fun t ht => ?_, .cons (fun t ht => Nat.lt_of_lt_of_le hplace (h.1 t ht)) h.2⟩
  rcases List.mem_cons.1 ht with rfl | ht
  · exact Nat.le_refl _
  · exact Nat.le_trans (Nat.le_of_lt hplace) (h.1 t ht)

theorem InRow.joinText {place position : Nat} {ts : List Token} (h : InRow place ts)
    (hplace : position < place) (text : List Char) : InRow position (joinText text position ts) := by
  cases ts with
  | nil => exact (inRow_nil place).cons hplace .text text
  | cons t ts =>
    rw [Hash.joinText]
    split
    · -- the text in front takes the place of the text behind it
      have hrest : InRow place ts :=
        ⟨fun u hu => h.1 u (List.mem_cons_of_mem t hu), (List.pairwise_cons.1 h.2).2⟩
      exact hrest.cons hplace .text (text ++ t.value)
    · exact h.cons hplace .text text

theorem inRow_tokensAt (position : Nat) {ls : List Lexeme} (h : ∀ l ∈ ls, l.source ≠ []) :
    InRow position (tokensAt position ls) := by
  induction ls generalizing position with
  | nil => exact inRow_nil position
  | cons l ls ih =>
    have hrest := ih (position + l.source.length) fun l' hl' => h l' (List.mem_cons_of_mem l hl')
    have hplace : position < position + l.source.length :=
      Nat.lt_add_of_pos_right (List.length_pos_of_ne_nil (h l List.mem_cons_self))
    cases l with
    | opening => exact hrest.cons hplace .opening ['{']
    | closing => exact hrest.cons hplace .closing ['}']
    | marker name => exact hrest.cons hplace .marker name
    | escaped brace => exact hrest.joinText hplace [brace]
    | inline text => exact hrest.joinText hplace text
    | plain c => exact hrest.joinText hplace [c]

/-- **Each token stands behind the tokens before it.** -/
theorem pairwise_position_tokenize (r : Registry) (text : List Char) :
    (tokenize r text).Pairwise fun t u => t.position < u.position :=
  (inRow_tokensAt 0 fun _ => source_ne_nil_of_mem_lexemes).2

end DocTree.Hash
