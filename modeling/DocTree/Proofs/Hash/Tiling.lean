import DocTree.Proofs.Hash.Roles

/-!
# Tokens tile the text

Each token stands for the stretch of text from its position to the next token, or to the end of the
text, and these stretches are the text (`tokenize_tiles`). A structural token is read from its sign, and
a token of text from a stretch that it repeats without the backslashes before braces. No two tokens of
text stand side by side.

## Shape of the proof

`Tiles` says all of this of the tokens of a text that starts at some place, and it is built up from the
end of the text as the tokens are: a lexeme is put in front of tokens that tile what follows it. A lexeme
of text may lengthen the token behind it; the stretches are joined, and what they stand for is joined
with them, because the roles of characters do not depend on what was read before
(`First.unescape_append`).
-/

namespace DocTree.Hash

/-! ## Stretches of text -/

/-- The token is read from this stretch of text. -/
inductive Token.ReadFrom : Token → List Char → Prop where
  | opening (position : Nat) : ReadFrom ⟨.opening, ['{'], position⟩ ['{']
  | closing (position : Nat) : ReadFrom ⟨.closing, ['}'], position⟩ ['}']
  | marker (name : List Char) (position : Nat) : ReadFrom ⟨.marker, name, position⟩ ('@' :: name)
  | text {span : List Char} (hne : span ≠ []) (position : Nat) :
      ReadFrom ⟨.text, unescape span, position⟩ span

/-- The stretch of a text from a token up to the next of the tokens behind it, or to the end. -/
def spanOf (text : List Char) (t : Token) (behind : List Token) : List Char :=
  (text.take ((behind.head?.map Token.position).getD text.length)).drop t.position

/-- The stretches of a text for which its tokens stand. -/
def spans (text : List Char) : List Token → List (List Char)
  | [] => []
  | t :: behind => spanOf text t behind :: spans text behind

/-- Both tokens are mere text. -/
def BothText (t u : Token) : Prop := t.kind = .text ∧ u.kind = .text

/-! ## Tilings -/

/-- The tokens tile a text that starts at `place`, and no two tokens of text are adjacent. -/
inductive Tiles : Nat → List Char → List Token → Prop where
  | nil (place : Nat) : Tiles place [] []
  | cons {t : Token} {span rest : List Char} {ts : List Token} (hread : t.ReadFrom span)
      (hnext : ∀ u ∈ ts.head?, ¬BothText t u) (hrest : Tiles (t.position + span.length) rest ts) :
      Tiles t.position (span ++ rest) (t :: ts)

theorem Token.ReadFrom.ne_nil {t : Token} {span : List Char} (h : t.ReadFrom span) : span ≠ [] := by
  cases h with
  | opening => exact List.cons_ne_nil _ _
  | closing => exact List.cons_ne_nil _ _
  | marker => exact List.cons_ne_nil _ _
  | text hne => exact hne

namespace Tiles

variable {place : Nat} {s : List Char} {ts : List Token}

/-- The first token stands where the text starts, or the text is empty. -/
theorem start (h : Tiles place s ts) :
    (ts.head?.map Token.position).getD (place + s.length) = place := by
  cases h with
  | nil => rfl
  | cons => rfl

/-- There are tokens where there is text. -/
theorem head?_eq (h : Tiles place s ts) :
    ts.head?.map Token.position = if s = [] then none else some place := by
  cases h with
  | nil => rfl
  | cons hread _ _ => rw [if_neg fun h => hread.ne_nil (List.append_eq_nil_iff.1 h).1]; rfl

/-- The stretches of the tokens are those from which they are read, and together they are the text. -/
theorem spans (h : Tiles place s ts) {pre : List Char} (hpre : pre.length = place) :
    List.Forall₂ Token.ReadFrom ts (spans (pre ++ s) ts) ∧ (Hash.spans (pre ++ s) ts).flatten = s := by
  induction h generalizing pre with
  | nil => exact ⟨.nil, rfl⟩
  | @cons t span rest ts hread hnext hrest ih =>
    have hnextPre : (pre ++ span).length = t.position + span.length := by
      rw [List.length_append, hpre]
    have hspan : spanOf (pre ++ (span ++ rest)) t ts = span := by
      have hstop : (ts.head?.map Token.position).getD (pre ++ (span ++ rest)).length =
          (pre ++ span).length := by
        rw [← List.append_assoc, List.length_append, hnextPre]
        exact hrest.start
      rw [spanOf, hstop, ← List.append_assoc, List.take_left, ← hpre, List.drop_left]
    obtain ⟨hreads, hflatten⟩ := ih hnextPre
    rw [List.append_assoc] at hreads hflatten
    rw [Hash.spans, hspan, List.flatten_cons, hflatten]
    exact ⟨.cons hread hreads, rfl⟩

/-- No two tokens of text are adjacent. -/
theorem isChain (h : Tiles place s ts) : ts.IsChain fun t u => ¬BothText t u := by
  induction h with
  | nil => exact .nil
  | cons _ hnext _ ih => exact List.isChain_cons.2 ⟨hnext, ih⟩

/-! ## Putting a lexeme in front -/

/-- A stretch of text goes in front: as a token of its own, or as the start of the token behind it. -/
theorem joinText {source text : List Char} (h : Tiles (place + source.length) s ts)
    (hne : source ≠ [])
    (htext : ∀ part, part <+: s → unescape (source ++ part) = text ++ unescape part) :
    Tiles place (source ++ s) (joinText text place ts) := by
  have hown : unescape source = text := by
    have := htext [] List.nil_prefix
    rwa [List.append_nil, show unescape [] = [] from rfl, List.append_nil] at this
  have halone : Token.ReadFrom ⟨.text, text, place⟩ source := hown ▸ .text hne place
  generalize hplace : place + source.length = start at h
  cases h with
  | nil => exact .cons halone (fun _ h => nomatch h) (.nil _)
  | @cons t span rest ts hread hnext hrest =>
    rw [Hash.joinText]
    split
    · next hkind =>
      -- the token behind is read from a longer stretch now
      have hvalue : t.value = unescape span := by
        cases hread with
        | text => rfl
        | opening => cases hkind
        | closing => cases hkind
        | marker => cases hkind
      have hjoined : Token.ReadFrom ⟨.text, text ++ t.value, place⟩ (source ++ span) := by
        rw [hvalue, ← htext span (List.prefix_append span rest)]
        exact .text (fun h => hne (List.append_eq_nil_iff.1 h).1) place
      rw [← List.append_assoc]
      refine .cons hjoined (fun u hu hboth => hnext u hu ⟨hkind, hboth.2⟩) ?_
      rwa [List.length_append, ← Nat.add_assoc, hplace]
    · next hkind =>
      refine .cons halone (fun u hu hboth => ?_) (hplace ▸ .cons hread hnext hrest)
      cases hu
      exact hkind hboth.2

end Tiles

/-! ## The tokens of a text -/

/-- Characters none of which is a dropped backslash stand for themselves. -/
theorem map_filter_zip_const {role : Role} (hrole : role ≠ .backslash) (s : List Char) :
    ((s.zip (s.map fun _ => role)).filter fun p => p.2 != .backslash).map (·.1) = s := by
  have hall : ∀ p ∈ s.zip (s.map fun _ => role), (p.2 != .backslash) = true := by
    intro p hp
    obtain ⟨c, -, hc⟩ := List.mem_map.1 (List.of_mem_zip hp).2
    rw [← hc]
    exact bne_iff_ne.2 hrole
  have hlength : s.length ≤ (s.map fun _ => role).length := by rw [List.length_map]
  rw [List.filter_eq_self.2 hall, List.map_fst_zip hlength]

section Lexemes

variable {r : Registry} {before : Option Char} {c : Char} {rest after : List Char} {l : Lexeme}

/-- A lexeme of text stands for its text, whatever is read behind it. -/
theorem First.unescape_append (h : First r before c rest l after) {text : List Char}
    (htext : l.text? = some text) {part : List Char} (hpart : part <+: after) :
    unescape (l.source ++ part) = text ++ unescape part := by
  have hown : ((l.source.zip l.roles).filter fun p => p.2 != .backslash).map (·.1) = text := by
    cases l with
    | opening => cases htext
    | closing => cases htext
    | marker => cases htext
    | escaped brace =>
      cases htext
      rfl
    | inline s =>
      cases htext
      exact @map_filter_zip_const .inline nofun text
    | plain d =>
      cases htext
      rfl
  rw [unescape, h.roles_append hpart, List.zip_append h.length_roles.symm, List.filter_append,
    List.map_append, hown]
  rfl

/-- **The tokens of the lexemes of a text tile it.** -/
theorem tiles_tokensAt (r : Registry) (before : Option Char) (s : List Char) (place : Nat) :
    Tiles place s (tokensAt place (lexemes r before s)) := by
  induction before, s using lexemes.induct r generalizing place with
  | case1 before =>
    rw [lexemes]
    exact .nil place
  | case2 before c rest first ih =>
    obtain ⟨l, after, hfirst⟩ := exists_first r before c rest
    have hl : first = (l, after) := hfirst.eq
    rw [hl] at ih
    have ih := ih (place + l.source.length)
    rw [hfirst.lexemes_eq, ← hfirst.source_append]
    cases l with
    | opening => exact Tiles.cons (.opening place) (fun _ _ h => by cases h.1) ih
    | closing => exact Tiles.cons (.closing place) (fun _ _ h => by cases h.1) ih
    | marker name => exact Tiles.cons (.marker name place) (fun _ _ h => by cases h.1) ih
    | escaped brace =>
      exact ih.joinText hfirst.source_ne_nil fun _ hpart => hfirst.unescape_append rfl hpart
    | inline text =>
      exact ih.joinText hfirst.source_ne_nil fun _ hpart => hfirst.unescape_append rfl hpart
    | plain d =>
      exact ih.joinText hfirst.source_ne_nil fun _ hpart => hfirst.unescape_append rfl hpart

end Lexemes

/-- The tokens of a text tile it from its start. -/
theorem tiles_tokenize (r : Registry) (text : List Char) : Tiles 0 text (tokenize r text) :=
  tiles_tokensAt r none text 0

/-- **The tokens tile the text**: their positions increase from the start of the text on, each is read
from the stretch up to the next one or to the end, the stretches are the text, and no two tokens of text
are adjacent. -/
theorem tokenize_tiles (r : Registry) (text : List Char) :
    (tokenize r text).Pairwise (fun t u => t.position < u.position) ∧
      (tokenize r text).head?.map Token.position = (if text = [] then none else some 0) ∧
      List.Forall₂ Token.ReadFrom (tokenize r text) (spans text (tokenize r text)) ∧
      (spans text (tokenize r text)).flatten = text ∧
      (tokenize r text).IsChain fun t u => ¬BothText t u := by
  have htiles := tiles_tokenize r text
  obtain ⟨hread, hflatten⟩ := htiles.spans (List.length_nil (α := Char))
  exact ⟨pairwise_position_tokenize r text, htiles.head?_eq, hread, hflatten, htiles.isChain⟩

end DocTree.Hash
