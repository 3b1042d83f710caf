import DocTree.Proofs.Hash.Escaping
import DocTree.Proofs.Hash.Structure

/-!
# Any text can be written literally

A backslash before every brace leaves a text without blocks and without inline annotations, whatever
backslashes and braces it has. Only a marker that stands in the text as a whole word is still read as
one (`HoldsMarker`): a text with none is read back, when it is escaped, as one token that holds it, and
a text with a marker is not (`tokenize_escape_eq_text_iff`). A marker inside an inline annotation counts
too, because an annotation whose brace is escaped is no annotation.

## Shape of the proof

A text without a marker is read as its characters by `lexemes_escape`. A marker is followed through
escaping by the roles of the characters (`roles_escape`): its `@` stays plain, and what stands before it
and behind its name stays a boundary, so the escaped text has a sign there.
-/

namespace DocTree.Hash

open Text (words startsNoWord_nil)

/-! ## Markers as whole words -/

/-- A marker stands in the text as a whole word: there is a blank or nothing before its `@`, and a blank
or nothing behind its name. -/
def HoldsMarker (r : Registry) (s : List Char) : Prop :=
  ∃ pre w post, s = pre ++ (w ++ post) ∧ MarkerWord r w ∧ atBoundary pre.getLast? = true ∧
    atBoundary post.head? = true

/-- A marker that stands as a whole word is one of the words. -/
theorem holdsMarker_iff {r : Registry} {s : List Char} :
    HoldsMarker r s ↔ ∃ w ∈ words s, MarkerWord r w := by
  constructor
  · rintro ⟨pre, w, post, hs, hmarker, hbefore, hbehind⟩
    rw [atBoundary_head?] at hbehind
    exact ⟨w, Text.mem_words_iff.2 ⟨hmarker.ne_nil, hmarker.isBlank, pre, post, hs,
      atBoundary_iff.1 hbefore, hbehind⟩, hmarker⟩
  · rintro ⟨w, hw, hmarker⟩
    obtain ⟨pre, post, hs, hbefore, hbehind⟩ := Text.exists_of_mem_words hw
    rw [← atBoundary_head?] at hbehind
    exact ⟨pre, w, post, hs, hmarker, atBoundary_iff.2 hbefore, hbehind⟩

instance (r : Registry) (s : List Char) : Decidable (HoldsMarker r s) :=
  decidable_of_iff _ holdsMarker_iff.symm

example : HoldsMarker .standard "See \x7b@a @Type b\x7d".toList ∧
    ¬HoldsMarker .standard "\\\x7b \x7b@type\x7d x@type @type. \x7d".toList := by decide +kernel

/-! ## Roles in escaped text -/

/-- The characters of an escaped text have the roles of the lexemes of escaped characters. -/
theorem roles_escape (s : List Char) :
    roles (escape s) = s.flatMap fun c => (escapedLexeme c).roles := by
  induction s with
  | nil => rfl
  | cons c s ih =>
    rw [escape_cons, List.flatMap_cons, ← ih, escapeChar, escapedLexeme]
    by_cases hc : isBrace c = true
    · rw [if_pos hc, if_pos hc]
      show roles ('\\' :: c :: escape s) = _
      rw [roles, rolesInside, if_pos ⟨rfl, hc⟩]
      rfl
    · rw [if_neg hc, if_neg hc]
      -- an escaped text starts with no brace, so `c` escapes nothing
      refine roles_plain (fun _ d hd => ?_) fun hleft => ?_
      · exact isBrace_of_head?_escape startsNoWord_nil (by rwa [List.append_nil])
      · exact absurd (isBrace_iff.2 (.inl hleft)) hc

/-- A character that is no brace is plain in the escaped text. -/
theorem roles_escape_plain {c : Char} (hc : isBrace c = false) (s t : List Char) :
    (roles (escape (s ++ c :: t)))[(escape s).length]? = some .plain := by
  have hlength : (s.flatMap fun c => (escapedLexeme c).roles).length = (escape s).length := by
    rw [← roles_escape, length_roles]
  have hplain : (escapedLexeme c).roles = [.plain] := by
    rw [escapedLexeme, hc]
    rfl
  rw [roles_escape, List.flatMap_append, List.flatMap_cons, ← hlength,
    List.getElem?_append_right (Nat.le_refl _), Nat.sub_self, hplain]
  rfl

theorem getLast?_escape (s : List Char) : (escape s).getLast? = s.getLast? := by
  rcases List.eq_nil_or_concat' s with rfl | ⟨s, c, rfl⟩
  · rfl
  · rw [escape_append, escape_cons, escape_nil, List.append_nil, List.getLast?_concat, escapeChar]
    split
    · rw [List.getLast?_append_cons]
      rfl
    · exact List.getLast?_concat

/-! ## Tokens of escaped text -/

/-- A marker with a boundary behind it is announced by its name. -/
theorem MarkerWord.announces {r : Registry} {name post : List Char} (h : MarkerWord r ('@' :: name))
    (hbehind : atBoundary post.head? = true) : announces r (name ++ post) = true := by
  obtain ⟨_, ⟨⟩, hne, hchars, hmarker⟩ := h
  have hstop : ∀ c ∈ post.head?, isNameChar c = false := fun c hc =>
    isNameChar_of_isBlank (atBoundary_iff.1 hbehind c hc)
  rw [Hash.announces, Text.takeWhile_run hchars hstop, Text.dropWhile_run hchars hstop, hmarker,
    hbehind]
  simpa using hne

/-- A marker that stands as a whole word is a token of the escaped text. -/
theorem HoldsMarker.exists_token {r : Registry} {s : List Char} (h : HoldsMarker r s) :
    ∃ t ∈ tokenize r (escape s), t.kind = .marker := by
  obtain ⟨pre, w, post, rfl, hword, hbefore, hbehind⟩ := h
  have ⟨name, hw, _⟩ := hword
  subst hw
  have hname : announces r (escape (name ++ post)) = true := by
    rw [← List.append_nil (escape _), announces_escape startsNoWord_nil]
    exact hword.announces hbehind
  rw [← getLast?_escape] at hbefore
  have hat : isBrace '@' = false := by decide
  have hkind : TokenKind.marker ≠ .text := nofun
  have hsplit : escape (pre ++ ('@' :: name ++ post)) =
      escape pre ++ '@' :: escape (name ++ post) := by
    rw [escape_append, List.cons_append, escape_cons, escapeChar_eq_self hat]
    rfl
  exact ⟨_, (mem_tokenize_iff hkind).2 ⟨escape pre, '@', _, hsplit, rfl,
    roles_escape_plain hat pre _, .marker rfl hbefore hname⟩, rfl⟩

/-- **Escaping makes a text literal, unless a marker stands in it as a whole word**: exactly then the
escaped text is one token of text, which holds the text itself and stands at its start. -/
theorem tokenize_escape_eq_text_iff (r : Registry) (s : List Char) :
    tokenize r (escape s) = [⟨.text, s, 0⟩] ↔ s ≠ [] ∧ ¬HoldsMarker r s := by
  constructor
  · intro h
    refine ⟨?_, fun hmarker => ?_⟩
    · rintro rfl
      rw [escape_nil, tokenize, lexemes] at h
      cases h
    · obtain ⟨t, ht, hkind⟩ := hmarker.exists_token
      rw [h, List.mem_singleton] at ht
      rw [ht] at hkind
      cases hkind
  · rintro ⟨hne, hmarker⟩
    have hwords : ∀ w ∈ words s, ¬MarkerWord r w := fun w hw hword =>
      hmarker (holdsMarker_iff.2 ⟨w, hw, hword⟩)
    have hparts : (tokenize r (escape s)).map (fun t => (t.kind, t.value)) = [(.text, s)] := by
      have hlexemes := lexemes_escape startsNoWord_nil hwords none
      rw [List.append_nil] at hlexemes
      rw [tokenize, map_tokensAt, hlexemes, parts_text hne, lexemes]
      rfl
    obtain ⟨t, ht, hkind⟩ := List.map_eq_singleton_iff.1 hparts
    -- a text has its first token at its start
    have hplace := (tiles_tokenize r (escape s)).head?_eq
    rw [ht] at hplace ⊢
    obtain ⟨kind, value, position⟩ := t
    cases hkind
    split at hplace
    · cases hplace
    · cases hplace
      rfl

end DocTree.Hash
