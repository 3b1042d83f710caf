import DocTree.Proofs.Hash.Lexing
import DocTree.Proofs.Hash.Parsing

/-!
# Space between words does not matter

A text in which each run of blanks is written as one space (`Text.spaced`) has the tokens of the text,
with their values so spaced (`parts_lexemes_spaced`). Derivations look only at the words of tokens, so
both texts are parsed to the same tree (`parse_squeeze_eq_ok_iff`), and so are any two texts of the same
words (`parsedAlike_of_words`).

## Shape of the proof

Spacing acts separately on the two sides of a character that is no blank, and that is where lexemes
begin and end: `first_spaced` takes the first lexeme of a text to that of the spaced text. A run of
blanks is the exception; it is a run of lexemes, of which spacing leaves one. The induction follows
`lexemes`. It needs the character before the text only where the text starts with no blank.
-/

namespace DocTree.Hash

open Text (isBlank spaced spacedChar startsBlank startsNoWord words)

/-! ## The first lexeme of a spaced text -/

/-- A lexeme whose text is spaced. -/
def spacedLexeme : Lexeme → Lexeme
  | .inline text => .inline (spaced text)
  | l => l

theorem spacedChar_eq_iff {c : Char} (hc : isBlank c = false) (d : Char) :
    spacedChar d = c ↔ d = c := by
  rw [spacedChar]
  split
  · next hd =>
    constructor
    · rintro rfl
      exact absurd hc (by decide)
    · rintro rfl
      rw [hd] at hc
      exact absurd hc (by decide)
  · exact Iff.rfl

theorem map_spacedChar_eq_some_iff {c : Char} (hc : isBlank c = false) (o : Option Char) :
    o.map spacedChar = some c ↔ o = some c := by
  cases o with
  | none => exact Iff.rfl
  | some d =>
    rw [Option.map_some, Option.some.injEq, Option.some.injEq]
    exact spacedChar_eq_iff hc d

theorem head?_spaced_eq_iff {c : Char} (hc : isBlank c = false) (s : List Char) :
    (spaced s).head? = some c ↔ s.head? = some c := by
  rw [Text.head?_spaced, map_spacedChar_eq_some_iff hc]

theorem getLast?_spaced_eq_iff {c : Char} (hc : isBlank c = false) (s : List Char) :
    (spaced s).getLast? = some c ↔ s.getLast? = some c := by
  rw [Text.getLast?_spaced, map_spacedChar_eq_some_iff hc]

theorem atBoundary_spaced (s : List Char) :
    atBoundary (spaced s).head? = atBoundary s.head? := by
  rw [atBoundary_head?, atBoundary_head?, Text.startsNoWord_spaced]

/-- A name ends before the first blank, so spacing leaves it alone. -/
theorem takeWhile_spaced (s : List Char) :
    (spaced s).takeWhile isNameChar = s.takeWhile isNameChar ∧
      (spaced s).dropWhile isNameChar = spaced (s.dropWhile isNameChar) := by
  induction s with
  | nil => exact ⟨rfl, rfl⟩
  | cons c s ih =>
    by_cases hc : isNameChar c = true
    · rw [Text.spaced_cons (isBlank_of_isNameChar hc), List.takeWhile_cons, List.takeWhile_cons,
        List.dropWhile_cons, List.dropWhile_cons, if_pos hc, if_pos hc, if_pos hc, if_pos hc, ih.1,
        ih.2]
      exact ⟨rfl, rfl⟩
    · obtain ⟨d, t, hd⟩ := List.exists_cons_of_ne_nil (Text.spaced_ne_nil (List.cons_ne_nil c s))
      -- the first character stays, or it is a blank and becomes a space; a name has neither
      have hhead := Text.head?_spaced (c :: s)
      rw [hd] at hhead
      have hdc : d = spacedChar c := by simpa using hhead
      have hname : ¬isNameChar d = true := by
        rw [hdc, spacedChar]
        split
        · rw [isNameChar_of_isBlank Text.isBlank_space]
          exact Bool.false_ne_true
        · exact hc
      rw [List.takeWhile_cons, List.dropWhile_cons, if_neg hc, if_neg hc, hd, List.takeWhile_cons,
        List.dropWhile_cons, if_neg hname, if_neg hname]
      exact ⟨rfl, rfl⟩

theorem announces_spaced (r : Registry) (s : List Char) :
    announces r (spaced s) = announces r s := by
  obtain ⟨htake, hdrop⟩ := takeWhile_spaced s
  rw [announces, htake, hdrop, atBoundary_spaced, announces]

theorem cutInline_append {t : List Char} (ht : '}' ∉ t) (after : List Char) :
    cutInline (t ++ '}' :: after) = (t ++ ['}'], after) := by
  induction t with
  | nil => rfl
  | cons c t ih =>
    rw [List.mem_cons, not_or] at ht
    rw [List.cons_append, cutInline, if_neg (by simpa using Ne.symm ht.1), ih ht.2]
    rfl

theorem cutInline_of_not_mem {s : List Char} (hs : '}' ∉ s) : cutInline s = (s, []) := by
  induction s with
  | nil => rfl
  | cons c s ih =>
    rw [List.mem_cons, not_or] at hs
    rw [cutInline, if_neg (by simpa using Ne.symm hs.1), ih hs.2]

/-- An inline annotation ends with a brace, or it is the rest of the text. -/
theorem cutInline_cases (s : List Char) :
    (∃ t after, s = t ++ '}' :: after ∧ '}' ∉ t ∧ cutInline s = (t ++ ['}'], after)) ∨
      ('}' ∉ s ∧ cutInline s = (s, [])) := by
  by_cases hmem : '}' ∈ s
  · obtain ⟨t, after, rfl, ht⟩ := List.eq_append_cons_of_mem hmem
    exact .inl ⟨t, after, rfl, ht, cutInline_append ht after⟩
  · exact .inr ⟨hmem, cutInline_of_not_mem hmem⟩

theorem mem_of_mem_spaced {c : Char} (hc : isBlank c = false) {s : List Char}
    (h : c ∈ spaced s) : c ∈ s := by
  induction s with
  | nil => exact h
  | cons d s ih =>
    rw [spaced] at h
    split at h
    · split at h
      · exact List.mem_cons_of_mem d (ih h)
      · rcases List.mem_cons.1 h with rfl | h
        · exact absurd hc (by decide)
        · exact List.mem_cons_of_mem d (ih h)
    · rcases List.mem_cons.1 h with rfl | h
      · exact List.mem_cons_self
      · exact List.mem_cons_of_mem d (ih h)

/-- The end of an inline annotation is found again. -/
theorem cutInline_spaced (s : List Char) :
    cutInline (spaced s) = (spaced (cutInline s).1, spaced (cutInline s).2) := by
  have hbrace : isBlank '}' = false := by decide
  obtain ⟨t, after, rfl, hmem, heq⟩ | ⟨hmem, heq⟩ := cutInline_cases s
  · have hone := Text.spaced_append_cons t hbrace []
    rw [Text.spaced_nil] at hone
    rw [heq, Text.spaced_append_cons t hbrace, hone]
    exact cutInline_append (fun h => hmem (mem_of_mem_spaced hbrace h)) _
  · rw [heq, cutInline_of_not_mem fun h => hmem (mem_of_mem_spaced hbrace h)]
    rfl

/-- **The first lexeme of a spaced text is that of the text**, if it starts with no blank. -/
theorem first_spaced {r : Registry} {before before' : Option Char} {c : Char}
    {rest after : List Char} {l : Lexeme} (hbefore : atBoundary before' = atBoundary before)
    (h : First r before c rest l after) :
    First r before' c (spaced rest) (spacedLexeme l) (spaced after) := by
  have hat : isBlank '@' = false := by decide
  cases h with
  | escaped hc hbrace hrest =>
    refine .escaped hc hbrace ?_
    rw [hrest, Text.spaced_cons (isBlank_of_isBrace hbrace)]
  | inline hc hhead =>
    have hleft : isBlank '{' = false := by decide
    have hfirst : First r before' c (spaced rest) _ _ :=
      .inline hc ((head?_spaced_eq_iff hat rest).2 hhead)
    rwa [cutInline_spaced, ← Text.spaced_cons hleft] at hfirst
  | opening hc hend => exact .opening hc (by rw [atBoundary_spaced, hend])
  | closing hc hstart => exact .closing hc (by rw [hbefore, hstart])
  | marker hc hstart hname =>
    obtain ⟨htake, hdrop⟩ := takeWhile_spaced rest
    have hfirst : First r before' c (spaced rest) _ _ :=
      .marker hc (by rw [hbefore, hstart]) (by rw [announces_spaced, hname])
    rwa [htake, hdrop] at hfirst
  | plain hescape hopen hclose hmarker =>
    refine .plain ?_ ?_ ?_ ?_
    · intro hc d hd
      by_contra hbrace
      have hbrace : isBrace d = true := Bool.not_eq_false _ ▸ hbrace
      rw [head?_spaced_eq_iff (isBlank_of_isBrace hbrace)] at hd
      rw [hescape hc d hd] at hbrace
      exact Bool.false_ne_true hbrace
    · intro hc
      rw [Ne, head?_spaced_eq_iff hat, atBoundary_spaced]
      exact hopen hc
    · intro hc
      rw [hbefore]
      exact hclose hc
    · intro hc hstart
      rw [announces_spaced]
      exact hmarker hc (by rw [← hbefore, hstart])

/-! ## The tokens of a spaced text -/

/-- A part whose value is spaced. -/
def spacedPart (p : TokenKind × List Char) : TokenKind × List Char := (p.1, spaced p.2)

theorem exists_joinPart_eq (t : List Char) (ps : List (TokenKind × List Char)) :
    ∃ v ps', joinPart t ps = (.text, t ++ v) :: ps' := by
  rcases ps with _ | ⟨⟨_ | _ | _ | _, value⟩, ps⟩
  · exact ⟨[], [], by rw [List.append_nil]; rfl⟩
  · exact ⟨[], _, by rw [List.append_nil]; rfl⟩
  · exact ⟨[], _, by rw [List.append_nil]; rfl⟩
  · exact ⟨[], _, by rw [List.append_nil]; rfl⟩
  · exact ⟨value, ps, rfl⟩

/-- A text that ends with no blank is joined to what follows it before or after spacing. -/
theorem joinPart_spaced {t : List Char} (hne : t ≠ [])
    (hlast : ∀ c, t.getLast? = some c → isBlank c = false) (ps : List (TokenKind × List Char)) :
    joinPart (spaced t) (ps.map spacedPart) = (joinPart t ps).map spacedPart := by
  rcases ps with _ | ⟨⟨_ | _ | _ | _, value⟩, ps⟩
  · rfl
  · rfl
  · rfl
  · rfl
  · show (TokenKind.text, spaced t ++ spaced value) :: _ = (.text, spaced (t ++ value)) :: _
    rw [Text.spaced_append hne hlast]

/-- A first part of text starts with a blank if the text does. -/
theorem startsBlank_of_parts {r : Registry} {before : Option Char} {s v : List Char}
    {ps : List (TokenKind × List Char)} (h : parts (lexemes r before s) = (.text, v) :: ps) :
    startsBlank v = startsBlank s := by
  cases s with
  | nil =>
    rw [lexemes] at h
    cases h
  | cons c rest =>
    obtain ⟨l, after, hfirst⟩ := exists_first r before c rest
    rw [hfirst.lexemes_eq] at h
    cases hfirst with
    | @escaped brace _ hc hbrace _ =>
      obtain ⟨w, qs, hjoin⟩ := exists_joinPart_eq [brace] (parts (lexemes r (some brace) after))
      cases hjoin.symm.trans h
      rw [hc]
      exact isBlank_of_isBrace hbrace
    | inline hc _ =>
      obtain ⟨w, qs, hjoin⟩ := exists_joinPart_eq ('{' :: (cutInline rest).1)
        (parts (lexemes r ('{' :: (cutInline rest).1).getLast? (cutInline rest).2))
      cases hjoin.symm.trans h
      rw [hc]
      rfl
    | opening => cases h
    | closing => cases h
    | marker => cases h
    | plain =>
      obtain ⟨w, qs, hjoin⟩ := exists_joinPart_eq [c] (parts (lexemes r (some c) rest))
      cases hjoin.symm.trans h
      rfl

theorem atBoundary_map_spacedChar (o : Option Char) :
    atBoundary (o.map spacedChar) = atBoundary o := by
  cases o with
  | none => rfl
  | some c => exact Text.isBlank_spacedChar c

theorem atBoundary_spacedLexeme (l : Lexeme) :
    atBoundary (spacedLexeme l).source.getLast? = atBoundary l.source.getLast? := by
  cases l with
  | inline text =>
    show atBoundary (spaced text).getLast? = atBoundary text.getLast?
    rw [Text.getLast?_spaced, atBoundary_map_spacedChar]
  | _ => rfl

/-- A blank is text. -/
theorem first_of_isBlank {c : Char} (hc : isBlank c = true) (r : Registry)
    (before : Option Char) (rest : List Char) : First r before c rest (.plain c) rest := by
  have hne (d : Char) (hd : isBlank d = false) : c ≠ d := by
    rintro rfl
    rw [hc] at hd
    exact absurd hd (by decide)
  exact .plain (fun h => absurd h (hne '\\' (by decide))) (fun h => absurd h (hne '{' (by decide)))
    (fun h => absurd h (hne '}' (by decide))) (fun h => absurd h (hne '@' (by decide)))

/-- A lexeme that starts with no blank is put in front before or after spacing. -/
theorem First.parts_spaced {r : Registry} {before : Option Char} {c : Char}
    {rest after : List Char} {l : Lexeme} (h : First r before c rest l after)
    (hc : isBlank c = false) {ls ls' : List Lexeme} (hafter : after = [] → ls = [])
    (hls : parts ls' = (parts ls).map spacedPart) :
    parts (spacedLexeme l :: ls') = (parts (l :: ls)).map spacedPart := by
  cases h with
  | @escaped brace _ _ hbrace _ =>
    have hblank := isBlank_of_isBrace hbrace
    have hone : spaced [brace] = [brace] := Text.spaced_cons hblank []
    show joinPart [brace] (parts ls') = (joinPart [brace] (parts ls)).map spacedPart
    rw [hls, ← joinPart_spaced (List.cons_ne_nil _ _) (by simpa using hblank), hone]
  | inline hc hat =>
    show joinPart (spaced _) (parts ls') = (joinPart _ (parts ls)).map spacedPart
    -- an annotation that is closed ends with its brace; one that is not has nothing behind it
    obtain ⟨t, rest', -, -, heq⟩ | ⟨-, heq⟩ := cutInline_cases rest
    · have hlast : ('{' :: (cutInline rest).1).getLast? = some '}' := by
        rw [heq, ← List.cons_append, List.getLast?_concat]
      rw [hls]
      apply joinPart_spaced (List.cons_ne_nil _ _)
      intro d hd
      rw [hlast] at hd
      cases hd
      decide
    · rw [heq] at hafter
      rw [hls, hafter rfl]
      rfl
  | opening =>
    show (TokenKind.opening, ['{']) :: parts ls' = _
    rw [hls]; rfl
  | closing =>
    show (TokenKind.closing, ['}']) :: parts ls' = _
    rw [hls]; rfl
  | marker =>
    have hname : spaced (rest.takeWhile isNameChar) = rest.takeWhile isNameChar :=
      Text.spaced_eq_self fun c hc =>
        isBlank_of_isNameChar (List.all_eq_true.1 List.all_takeWhile c hc)
    show (TokenKind.marker, rest.takeWhile isNameChar) :: parts ls' =
      (.marker, spaced (rest.takeWhile isNameChar)) :: (parts ls).map spacedPart
    rw [hls, hname]
  | plain =>
    have hone : spaced [c] = [c] := Text.spaced_cons hc []
    show joinPart [c] (parts ls') = (joinPart [c] (parts ls)).map spacedPart
    rw [hls, ← joinPart_spaced (List.cons_ne_nil _ _) (by simpa using hc), hone]

/-- A blank in front of a blank goes, and any other blank becomes a space. -/
theorem parts_spaced_of_isBlank {r : Registry} {c : Char} {rest : List Char}
    (hc : isBlank c = true) (before' : Option Char)
    (ih : ∀ before', (startsBlank rest = true ∨ atBoundary before' = atBoundary (some c)) →
      parts (lexemes r before' (spaced rest)) =
        (parts (lexemes r (some c) rest)).map spacedPart) :
    parts (lexemes r before' (spaced (c :: rest))) =
      (joinPart [c] (parts (lexemes r (some c) rest))).map spacedPart := by
  by_cases hrest : startsBlank rest = true
  · -- the text goes on with a blank, so its parts start with text, where `c` changes nothing
    rw [Text.spaced_cons_blank hc hrest, ih before' (.inl hrest)]
    cases rest with
    | nil => exact absurd hrest Bool.false_ne_true
    | cons d rest =>
      have hd : isBlank d = true := hrest
      obtain ⟨v, ps, hjoin⟩ := exists_joinPart_eq [d] (parts (lexemes r (some d) rest))
      have hparts : parts (lexemes r (some c) (d :: rest)) = (.text, d :: v) :: ps := by
        rw [(first_of_isBlank hd r (some c) rest).lexemes_eq]
        exact hjoin
      have hspaced : spaced (c :: d :: v) = spaced (d :: v) := Text.spaced_cons_blank hc hd
      rw [hparts]
      show (TokenKind.text, spaced (d :: v)) :: _ = (.text, spaced (c :: d :: v)) :: _
      rw [hspaced]
  · have hrest := Bool.eq_false_iff.2 hrest
    have hboundary : atBoundary (some ' ') = atBoundary (some c) := by
      show isBlank ' ' = isBlank c
      rw [hc, Text.isBlank_space]
    -- the space that `c` becomes is as good a boundary as `c`
    rw [Text.spaced_cons_last hc hrest, (first_of_isBlank Text.isBlank_space r _ _).lexemes_eq]
    show joinPart [' '] (parts (lexemes r (some ' ') (spaced rest))) = _
    rw [ih (some ' ') (.inr hboundary)]
    cases hparts : parts (lexemes r (some c) rest) with
    | nil =>
      rw [← Text.spaced_singleton hc]
      rfl
    | cons p ps =>
      obtain ⟨kind, v⟩ := p
      cases kind with
      | text =>
        have hv : startsBlank v = false := by rw [startsBlank_of_parts hparts, hrest]
        show (TokenKind.text, ' ' :: spaced v) :: _ = (.text, spaced (c :: v)) :: _
        rw [Text.spaced_cons_last hc hv]
      | _ =>
        rw [← Text.spaced_singleton hc]
        rfl

/-- **The tokens of a spaced text are those of the text**, with their values spaced. -/
theorem parts_lexemes_spaced (r : Registry) (before : Option Char) (s : List Char)
    (before' : Option Char) (h : startsBlank s = true ∨ atBoundary before' = atBoundary before) :
    parts (lexemes r before' (spaced s)) = (parts (lexemes r before s)).map spacedPart := by
  induction before, s using lexemes.induct r generalizing before' with
  | case1 before =>
    rw [Text.spaced_nil, lexemes, lexemes]
    rfl
  | case2 before c rest first ih =>
    obtain ⟨l, after, hfirst⟩ := exists_first r before c rest
    have hl : first = (l, after) := hfirst.eq
    rw [hl] at ih
    rw [hfirst.lexemes_eq]
    by_cases hc : isBlank c = true
    · -- a blank is a lexeme by itself, and spacing may take it away
      have hplain := (firstLexeme_eq_iff.2 hfirst).symm.trans (first_of_isBlank hc r before rest).eq
      cases hplain
      exact parts_spaced_of_isBlank hc before' ih
    · have hc := Bool.eq_false_iff.2 hc
      have hbefore : atBoundary before' = atBoundary before := by
        rcases h with h | h
        · rw [show startsBlank (c :: rest) = isBlank c from rfl, hc] at h
          exact absurd h Bool.false_ne_true
        · exact h
      rw [Text.spaced_cons hc, (first_spaced hbefore hfirst).lexemes_eq]
      -- both texts have a lexeme here, and what was read last is a boundary in both or in neither
      apply hfirst.parts_spaced hc
      · rintro rfl
        rw [lexemes]
      · exact ih _ (.inr (atBoundary_spacedLexeme l))

theorem alike_tokenize_spaced (r : Registry) (s : List Char) :
    Alike (tokenize r (spaced s)) (tokenize r s) := by
  have hparts := parts_lexemes_spaced r none s none (.inr rfl)
  rw [← map_tokensAt 0, ← map_tokensAt 0] at hparts
  have hshape := congrArg (List.map fun p => (p.1, words p.2)) hparts
  rw [List.map_map, List.map_map, List.map_map] at hshape
  refine hshape.trans (List.map_congr_left fun t _ => ?_)
  show (t.kind, words (spaced t.value)) = (t.kind, words t.value)
  rw [Text.words_spaced]

/-! ## Parsing a squeezed text -/

/-- The inside of the braces of a squeezed text is that of the text, spaced. -/
theorem unbrace_squeeze_eq_ok_iff {content inner : List Char} :
    unbrace (Text.squeeze content) = .ok inner ↔
      ∃ inner', unbrace content = .ok inner' ∧ inner = spaced inner' := by
  have hleft : isBlank '{' = false := by decide
  have hright : isBlank '}' = false := by decide
  simp only [unbrace_eq_ok_iff_trim]
  rw [Text.trim_squeeze, Text.squeeze_eq_spaced_trim]
  generalize Text.trim content = text
  constructor
  · intro h
    have hhead : text.head? = some '{' := by
      rw [← head?_spaced_eq_iff hleft, h]
      rfl
    obtain ⟨t, rfl⟩ := List.head?_eq_some_iff.1 hhead
    rw [Text.spaced_cons hleft] at h
    have h : spaced t = inner ++ ['}'] := (List.cons.inj h).2
    have hlast : t.getLast? = some '}' := by
      rw [← getLast?_spaced_eq_iff hright, h, List.getLast?_concat]
    obtain ⟨inner', rfl⟩ := List.getLast?_eq_some_iff.1 hlast
    rw [Text.spaced_append_cons inner' hright] at h
    exact ⟨inner', rfl, (List.append_inj_left' h rfl).symm⟩
  · rintro ⟨inner', rfl, rfl⟩
    rw [List.cons_append, Text.spaced_cons hleft, Text.spaced_append_cons inner' hright]
    rfl

/-- **Space between words does not matter**: a hash and its squeezed form are parsed to the same tree,
or neither is parsed. -/
theorem parse_squeeze_eq_ok_iff {dialect : Dialect} {content : List Char} {t : Tree} :
    parse dialect (Text.squeeze content) = .ok t ↔ parse dialect content = .ok t := by
  simp only [parse, bind_eq_ok_iff, unbrace_squeeze_eq_ok_iff]
  constructor
  · rintro ⟨_, ⟨inner, hinner, rfl⟩, hparse⟩
    refine ⟨inner, hinner, ?_⟩
    obtain ⟨lead, es, hblock, rfl⟩ := parseTokens_eq_ok_iff.1 hparse
    exact parseTokens_eq_ok_iff.2
      ⟨lead, es, hblock.congr (alike_tokenize_spaced dialect.registry inner), rfl⟩
  · rintro ⟨inner, hinner, hparse⟩
    refine ⟨_, ⟨inner, hinner, rfl⟩, ?_⟩
    obtain ⟨lead, es, hblock, rfl⟩ := parseTokens_eq_ok_iff.1 hparse
    exact parseTokens_eq_ok_iff.2
      ⟨lead, es, hblock.congr (alike_tokenize_spaced dialect.registry inner).symm, rfl⟩

/-! ## Texts of the same words -/

/-- Two texts are both parsed, to one tree, or both refused. -/
inductive ParsedAlike (dialect : Dialect) (s t : List Char) : Prop where
  | parsed {tree : Tree} (hs : parse dialect s = .ok tree) (ht : parse dialect t = .ok tree)
  | refused {e e' : Error} (hs : parse dialect s = .error e) (ht : parse dialect t = .error e')

/-- Texts that are parsed to the same trees are parsed alike. -/
theorem ParsedAlike.of_iff {dialect : Dialect} {s t : List Char}
    (h : ∀ tree, parse dialect t = .ok tree ↔ parse dialect s = .ok tree) :
    ParsedAlike dialect s t := by
  cases hs : parse dialect s with
  | ok tree => exact .parsed hs ((h tree).2 hs)
  | error e =>
    cases ht : parse dialect t with
    | ok tree =>
      have hparsed : parse dialect s = .ok tree := (h tree).1 ht
      rw [hs] at hparsed
      cases hparsed
    | error e' => exact .refused hs ht

/-- Texts of the same words are squeezed to one text, and so parsed to the same trees. -/
theorem parse_eq_ok_iff_of_words_eq {dialect : Dialect} {s t : List Char}
    (h : words t = words s) (tree : Tree) :
    parse dialect t = .ok tree ↔ parse dialect s = .ok tree := by
  rw [← parse_squeeze_eq_ok_iff, Text.squeeze_congr h, parse_squeeze_eq_ok_iff]

/-- **A hash may be laid out in any way**: it is parsed like its squeezed form, and like any other text
of the same words, whatever blanks stand between them. -/
theorem parsedAlike_of_words (dialect : Dialect) (content : List Char) :
    ParsedAlike dialect content (Text.squeeze content) ∧
      ∀ other, words other = words content → ParsedAlike dialect content other :=
  ⟨.of_iff (parse_eq_ok_iff_of_words_eq (Text.words_squeeze content)),
    fun _ h => .of_iff (parse_eq_ok_iff_of_words_eq h)⟩

/-- A hash on one line. -/
def sizeHash : List Char := "\x7b @type int $a the size \x7d".toList

/-- The same hash over several lines, with a tab. -/
def sizeHashInLines : List Char := "\x7b\n@type\tint  $a the size\r\n\x7d".toList

/-- The tree of both hashes. -/
def sizeTree : Tree :=
  .node [] defaultTypes [(.name "$a".toList, .node "the size".toList ["int".toList] [])]

/-- What is laid out over several lines is parsed to the tree of the same words on one line. -/
theorem parsedAlike_of_words_lines :
    words sizeHashInLines = words sizeHash ∧
      ParsedAlike ⟨.standard, 3, true⟩ sizeHash sizeHashInLines ∧
      parse ⟨.standard, 3, true⟩ sizeHash = .ok sizeTree ∧
      parse ⟨.standard, 3, true⟩ sizeHashInLines = .ok sizeTree := by
  have hwords : words sizeHashInLines = words sizeHash := by decide
  have hinner : unbrace sizeHash = .ok " @type int $a the size ".toList := by decide +kernel
  have htokens : tokenize .standard " @type int $a the size ".toList =
      [⟨.text, [' '], 0⟩, ⟨.marker, "type".toList, 1⟩, ⟨.text, " int $a the size ".toList, 6⟩] := by
    decide +kernel
  have hparse : parse ⟨.standard, 3, true⟩ sizeHash = .ok sizeTree := by
    rw [parse_of_unbrace hinner, htokens]
    rfl
  have halike := (parsedAlike_of_words ⟨.standard, 3, true⟩ sizeHash).2 sizeHashInLines hwords
  refine ⟨hwords, halike, hparse, ?_⟩
  cases halike with
  | parsed hs ht => rwa [← Except.ok.inj (hs.symm.trans hparse)]
  | refused hs _ => cases hs.symm.trans hparse

end DocTree.Hash
