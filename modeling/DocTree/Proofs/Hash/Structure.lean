import DocTree.Proofs.Hash.Tiling

/-!
# Which characters are structure

A brace or an `@` is structure if it is plain and stands in the right place: a brace that opens has a
blank or nothing behind it, a brace that closes has a blank or nothing before it, and a marker has both,
around the `@` and a name that is a marker of the registry. `tokenize_structure` says that the structural
tokens stand at exactly these characters, and that every other character belongs to a token of text.

## Shape of the proof

`StartsToken` is what a plain character is, seen from the character before it and the text behind it.
Both sides are compared lexeme by lexeme (`mem_tokensAt_iff`): in the characters of a lexeme there is no
other sign than the one that the lexeme is (`First.signedIn_iff`), since escapes and inline annotations
are not plain and a name has no sign in it. What is left to say about text follows from the tiling.
-/

namespace DocTree.Hash

open Text (isBlank)

/-! ## Structural characters -/

/-- A blank stands at the position. -/
def BlankAt (text : List Char) (i : Nat) : Prop := ∃ c, text[i]? = some c ∧ isBlank c = true

/-- The character stands at the position and is plain. -/
structure PlainAt (text : List Char) (i : Nat) (c : Char) : Prop where
  char : text[i]? = some c
  role : (roles text)[i]? = some .plain

/-- A plain `{` with a blank or the end of the text behind it. -/
structure OpensAt (text : List Char) (i : Nat) : Prop where
  plain : PlainAt text i '{'
  behind : i + 1 = text.length ∨ BlankAt text (i + 1)

/-- A plain `}` with a blank or the start of the text before it. -/
structure ClosesAt (text : List Char) (i : Nat) : Prop where
  plain : PlainAt text i '}'
  before : i = 0 ∨ BlankAt text (i - 1)

/-- A plain `@` with a blank or the start of the text before it, and the run of name characters behind it,
which is a marker in some letter case and has a blank or the end of the text behind it. -/
structure MarksAt (r : Registry) (text : List Char) (i : Nat) (name : List Char) : Prop where
  plain : PlainAt text i '@'
  before : i = 0 ∨ BlankAt text (i - 1)
  run : name = (text.drop (i + 1)).takeWhile isNameChar
  nonempty : name ≠ []
  marker : lowerName (String.ofList name) ∈ r.markers
  behind : i + 1 + name.length = text.length ∨ BlankAt text (i + 1 + name.length)

/-- The kind of the token to which a character belongs, the last one that starts at it or before it. -/
def kindAt (i : Nat) : List Token → Option TokenKind
  | [] => none
  | t :: ts => (kindAt i ts).or (if t.position ≤ i then some t.kind else none)

/-! ## The ends of a stretch of text -/

theorem blank_behind_iff {text pre rest : List Char} {i : Nat} (htext : text = pre ++ rest)
    (hi : i = pre.length) : (i = text.length ∨ BlankAt text i) ↔ atBoundary rest.head? = true := by
  subst htext hi
  have hat : (pre ++ rest)[pre.length]? = rest.head? := by
    rw [List.getElem?_append_right (Nat.le_refl _), Nat.sub_self, List.head?_eq_getElem?]
  rw [BlankAt, hat]
  cases rest with
  | nil => simp [atBoundary]
  | cons c rest => simp [atBoundary]

theorem blank_before_iff (pre rest : List Char) :
    (pre.length = 0 ∨ BlankAt (pre ++ rest) (pre.length - 1)) ↔
      atBoundary pre.getLast? = true := by
  rcases List.eq_nil_or_concat' pre with rfl | ⟨pre, c, rfl⟩
  · exact ⟨fun _ => rfl, fun _ => .inl rfl⟩
  · have hat : (pre ++ [c] ++ rest)[(pre ++ [c]).length - 1]? = some c := by
      rw [List.length_append, List.length_singleton, Nat.add_sub_cancel, List.append_assoc,
        List.getElem?_append_right (Nat.le_refl _), Nat.sub_self]
      rfl
    rw [BlankAt, hat, List.getLast?_concat]
    simp [atBoundary]

/-! ## Markers -/

theorem isNameChar_at : isNameChar '@' = false := by decide +kernel

/-- A name has no `@`, so it is looked up in lower case as it is. -/
theorem isMarker_iff (r : Registry) {name : List Char} (hname : ∀ c ∈ name, isNameChar c = true) :
    r.isMarker (String.ofList name) = true ↔ lowerName (String.ofList name) ∈ r.markers := by
  have hbare : bareName (String.ofList name) = String.ofList name := by
    rw [bareName, String.toList_ofList]
    cases name with
    | nil => rfl
    | cons c name =>
      have hc : (c == '@') = false := by
        refine beq_eq_false_iff_ne.2 ?_
        rintro rfl
        exact Bool.false_ne_true (isNameChar_at.symm.trans (hname '@' List.mem_cons_self))
      rw [List.dropWhile_cons, hc]
      rfl
  rw [Registry.isMarker, List.contains_iff_mem, lookupName, hbare]

/-- A text announces a marker with the run of name characters at its start. -/
theorem announces_iff (r : Registry) (rest : List Char) :
    announces r rest = true ↔ rest.takeWhile isNameChar ≠ [] ∧
      lowerName (String.ofList (rest.takeWhile isNameChar)) ∈ r.markers ∧
      atBoundary (rest.dropWhile isNameChar).head? = true := by
  have hrun : ∀ c ∈ rest.takeWhile isNameChar, isNameChar c = true := fun c hc =>
    List.all_eq_true.1 List.all_takeWhile c hc
  rw [announces, Bool.and_eq_true, Bool.and_eq_true, isMarker_iff r hrun, and_assoc]
  simp

/-! ## Signs -/

/-- The structural token that a plain character starts, with `before` before it and `rest` behind it. -/
inductive StartsToken (r : Registry) (before : Option Char) (c : Char) (rest : List Char) :
    TokenKind → List Char → Prop where
  | opening (hc : c = '{') (hend : atBoundary rest.head? = true) :
      StartsToken r before c rest .opening ['{']
  | closing (hc : c = '}') (hstart : atBoundary before = true) :
      StartsToken r before c rest .closing ['}']
  | marker (hc : c = '@') (hstart : atBoundary before = true) (hname : announces r rest = true) :
      StartsToken r before c rest .marker (rest.takeWhile isNameChar)

/-- The token stands at a plain character that is a sign, in a text that starts at `place` behind the
character `before`. -/
def SignedIn (r : Registry) (before : Option Char) (place : Nat) (s : List Char) (t : Token) : Prop :=
  ∃ mid c rest, s = mid ++ c :: rest ∧ t.position = place + mid.length ∧
    (roles s)[mid.length]? = some .plain ∧
    StartsToken r (mid.getLast?.or before) c rest t.kind t.value

/-- The structural token that a lexeme is. -/
def Lexeme.sign? (place : Nat) : Lexeme → Option Token
  | opening => some ⟨.opening, ['{'], place⟩
  | closing => some ⟨.closing, ['}'], place⟩
  | marker name => some ⟨.marker, name, place⟩
  | _ => none

/-- No character of a name is a sign. -/
theorem StartsToken.isNameChar_eq_false {r : Registry} {before : Option Char} {c : Char}
    {rest : List Char} {kind : TokenKind} {value : List Char}
    (h : StartsToken r before c rest kind value) : isNameChar c = false := by
  cases h with
  | opening hc => exact hc ▸ isNameChar_of_isBrace rfl
  | closing hc => exact hc ▸ isNameChar_of_isBrace rfl
  | marker hc => exact hc ▸ isNameChar_at

theorem mem_joinText_iff {text : List Char} {place : Nat} {ts : List Token} {t : Token}
    (ht : t.kind ≠ .text) : t ∈ joinText text place ts ↔ t ∈ ts := by
  have hne : ∀ value, t ≠ ⟨.text, value, place⟩ := by
    rintro value rfl
    exact ht rfl
  cases ts with
  | nil => simp [joinText, hne]
  | cons u ts =>
    rw [joinText]
    split
    · next hu =>
      have hother : t ≠ u := by
        rintro rfl
        exact ht hu
      simp [hne, hother]
    · simp [hne]

/-- The structural tokens are those of the first lexeme and those of the others. -/
theorem mem_tokensAt_cons_iff {l : Lexeme} {ls : List Lexeme} {place : Nat} {t : Token}
    (ht : t.kind ≠ .text) : t ∈ tokensAt place (l :: ls) ↔
      l.sign? place = some t ∨ t ∈ tokensAt (place + l.source.length) ls := by
  cases l with
  | opening => simp [tokensAt, Lexeme.sign?, eq_comm]
  | closing => simp [tokensAt, Lexeme.sign?, eq_comm]
  | marker name => simp [tokensAt, Lexeme.sign?, eq_comm]
  | escaped brace => simp [tokensAt, Lexeme.sign?, mem_joinText_iff ht]
  | inline text => simp [tokensAt, Lexeme.sign?, mem_joinText_iff ht]
  | plain c => simp [tokensAt, Lexeme.sign?, mem_joinText_iff ht]

section Lexemes

variable {r : Registry} {before : Option Char} {c : Char} {rest after : List Char} {l : Lexeme}
  {place : Nat} {t : Token}

/-- A character that is a sign starts the lexeme of that sign. -/
theorem StartsToken.lexeme {kind : TokenKind} {value : List Char}
    (hsign : StartsToken r before c rest kind value) (h : First r before c rest l after) :
    l.sign? place = some ⟨kind, value, place⟩ := by
  cases hsign with
  | opening hc hend =>
    cases (First.opening hc hend).eq.symm.trans h.eq
    rfl
  | closing hc hstart =>
    cases (First.closing hc hstart).eq.symm.trans h.eq
    rfl
  | marker hc hstart hname =>
    cases (First.marker hc hstart hname).eq.symm.trans h.eq
    rfl

/-- A structural lexeme starts with a plain character that is its sign. -/
theorem First.sign (h : First r before c rest l after) (ht : l.sign? place = some t) :
    t.position = place ∧ l.roles[0]? = some .plain ∧ StartsToken r before c rest t.kind t.value := by
  cases h with
  | opening hc hend =>
    cases ht
    exact ⟨rfl, rfl, .opening hc hend⟩
  | closing hc hstart =>
    cases ht
    exact ⟨rfl, rfl, .closing hc hstart⟩
  | marker hc hstart hname =>
    cases ht
    exact ⟨rfl, rfl, .marker hc hstart hname⟩
  | escaped => cases ht
  | inline => cases ht
  | plain => cases ht

/-- The plain characters of a lexeme behind its first one are those of a name. -/
theorem First.isNameChar_behind (h : First r before c rest l after) {x d : Char}
    {mid behind : List Char} (hsplit : l.source ++ after = x :: mid ++ d :: behind)
    (hlength : (x :: mid).length < l.source.length)
    (hrole : l.roles[(x :: mid).length]? = some .plain) : isNameChar d = true := by
  have hmem := List.mem_of_getElem? hrole
  rw [List.length_cons] at hlength
  cases h with
  | escaped =>
    rw [Lexeme.roles] at hmem
    exact absurd hmem (by decide)
  | inline =>
    rw [Lexeme.roles] at hmem
    obtain ⟨_, -, hplain⟩ := List.mem_map.1 hmem
    cases hplain
  | marker =>
    -- the character stands among those of the name
    have htail : rest.takeWhile isNameChar ++ rest.dropWhile isNameChar = mid ++ d :: behind :=
      (List.cons.inj hsplit).2
    have hmid : mid.length < (rest.takeWhile isNameChar).length := Nat.lt_of_succ_lt_succ hlength
    have hd : (rest.takeWhile isNameChar)[mid.length]? = some d := by
      rw [← List.getElem?_append_left hmid, htail, List.getElem?_append_right (Nat.le_refl _),
        Nat.sub_self]
      rfl
    exact List.all_eq_true.1 List.all_takeWhile d (List.mem_of_getElem? hd)
  | opening => exact absurd hlength (Nat.not_lt.2 (Nat.le_add_left 1 _))
  | closing => exact absurd hlength (Nat.not_lt.2 (Nat.le_add_left 1 _))
  | plain => exact absurd hlength (Nat.not_lt.2 (Nat.le_add_left 1 _))

/-- **A text is signed where its first lexeme is a sign, and where what is left is signed.** -/
theorem First.signedIn_iff (h : First r before c rest l after) :
    SignedIn r before place (c :: rest) t ↔
      l.sign? place = some t ∨ SignedIn r l.source.getLast? (place + l.source.length) after t := by
  have hroles := h.roles_append (List.prefix_refl after)
  have hsource := h.source_append
  have hlast : ∀ mid : List Char,
      (l.source ++ mid).getLast?.or before = mid.getLast?.or l.source.getLast? := by
    intro mid
    rw [List.getLast?_append]
    rw [List.getLast?_eq_some_getLast h.source_ne_nil]
    cases mid.getLast? <;> rfl
  rw [SignedIn, ← hsource, hroles]
  constructor
  · rintro ⟨mid, d, behind, hsplit, hposition, hrole, hsign⟩
    by_cases hlength : mid.length < l.source.length
    · -- a sign in the lexeme is its first character
      rw [List.getElem?_append_left (h.length_roles ▸ hlength)] at hrole
      cases mid with
      | nil =>
        obtain ⟨rfl, rfl⟩ := List.cons.inj (hsource.symm.trans hsplit)
        have hplace : t.position = place := hposition
        exact .inl (hplace ▸ hsign.lexeme h)
      | cons x mid =>
        have hname := h.isNameChar_behind hsplit hlength hrole
        rw [hsign.isNameChar_eq_false] at hname
        exact absurd hname Bool.false_ne_true
    · obtain ⟨mid, rfl, hafter⟩ : ∃ mid', mid = l.source ++ mid' ∧ after = mid' ++ d :: behind := by
        rcases List.append_eq_append_iff.1 hsplit with hmid | ⟨cut, hcut, hbehind⟩
        · exact hmid
        · have hnil : cut = [] := by
            rw [hcut, List.length_append] at hlength
            exact List.eq_nil_of_length_eq_zero (by omega)
          rw [hnil] at hcut hbehind
          exact ⟨[], by rw [hcut, List.append_nil, List.append_nil], hbehind.symm⟩
      rw [List.length_append, ← Nat.add_assoc] at hposition
      rw [List.length_append, ← h.length_roles, List.getElem?_append_right (Nat.le_add_right _ _),
        Nat.add_sub_cancel_left] at hrole
      rw [hlast] at hsign
      exact .inr ⟨mid, d, behind, hafter, hposition, hrole, hsign⟩
  · rintro (hsign | ⟨mid, d, behind, rfl, hposition, hrole, hsign⟩)
    · obtain ⟨hposition, hrole, hsign⟩ := h.sign hsign
      refine ⟨[], c, rest, hsource, hposition, ?_, hsign⟩
      rw [List.getElem?_append, List.length_nil, hrole, if_pos]
      exact (List.getElem?_eq_some_iff.1 hrole).1
    · refine ⟨l.source ++ mid, d, behind, (List.append_assoc _ _ _).symm, ?_, ?_, ?_⟩
      · rw [hposition, List.length_append, Nat.add_assoc]
      · rw [List.length_append, ← h.length_roles, List.getElem?_append_right (Nat.le_add_right _ _),
          Nat.add_sub_cancel_left]
        exact hrole
      · rw [hlast]
        exact hsign

/-- **The structural tokens stand at the signs.** -/
theorem mem_tokensAt_iff (r : Registry) (before : Option Char) (s : List Char) (place : Nat)
    (ht : t.kind ≠ .text) :
    t ∈ tokensAt place (lexemes r before s) ↔ SignedIn r before place s t := by
  induction before, s using lexemes.induct r generalizing place with
  | case1 before =>
    rw [lexemes]
    constructor
    · exact fun h => absurd h List.not_mem_nil
    · rintro ⟨mid, d, behind, hsplit, -⟩
      exact absurd hsplit (List.append_ne_nil_of_right_ne_nil mid (List.cons_ne_nil d behind)).symm
  | case2 before c rest first ih =>
    obtain ⟨l, after, hfirst⟩ := exists_first r before c rest
    have hl : first = (l, after) := hfirst.eq
    rw [hl] at ih
    rw [hfirst.lexemes_eq, mem_tokensAt_cons_iff ht, hfirst.signedIn_iff]
    exact or_congr_right (ih (place + l.source.length))

end Lexemes

/-! ## Signs in a text -/

section Positions

variable {r : Registry} {text : List Char} {i : Nat}

theorem plainAt_iff {c : Char} : PlainAt text i c ↔ ∃ pre rest, text = pre ++ c :: rest ∧
    pre.length = i ∧ (roles text)[pre.length]? = some .plain := by
  constructor
  · rintro ⟨hchar, hrole⟩
    obtain ⟨hi, hget⟩ := List.getElem?_eq_some_iff.1 hchar
    have hlength : (text.take i).length = i := List.length_take_of_le (Nat.le_of_lt hi)
    refine ⟨text.take i, text.drop (i + 1), ?_, hlength, ?_⟩
    · rw [← hget, ← List.drop_eq_getElem_cons, List.take_append_drop]
    · rw [hlength, hrole]
  · rintro ⟨pre, rest, rfl, rfl, hrole⟩
    refine ⟨?_, hrole⟩
    rw [List.getElem?_append_right (Nat.le_refl _), Nat.sub_self]
    rfl

/-- The structural tokens stand at the plain characters that are signs. -/
theorem mem_tokenize_iff {kind : TokenKind} {value : List Char} (hkind : kind ≠ .text) :
    ⟨kind, value, i⟩ ∈ tokenize r text ↔ ∃ pre c rest, text = pre ++ c :: rest ∧ pre.length = i ∧
      (roles text)[pre.length]? = some .plain ∧ StartsToken r pre.getLast? c rest kind value := by
  rw [tokenize, mem_tokensAt_iff r none text 0 hkind, SignedIn]
  simp only [Nat.zero_add, Option.or_none, eq_comm (a := i)]

theorem mem_tokenize_opening_iff : ⟨.opening, ['{'], i⟩ ∈ tokenize r text ↔ OpensAt text i := by
  have hkind : TokenKind.opening ≠ .text := nofun
  have hend : ∀ pre rest : List Char, (pre.length + 1 = (pre ++ '{' :: rest).length ∨
      BlankAt (pre ++ '{' :: rest) (pre.length + 1)) ↔ atBoundary rest.head? = true := fun pre rest =>
    blank_behind_iff (List.append_assoc pre ['{'] rest).symm (@List.length_append Char pre ['{']).symm
  rw [mem_tokenize_iff hkind]
  constructor
  · rintro ⟨pre, c, rest, rfl, rfl, hrole, hsign⟩
    cases hsign with
    | opening hc hboundary =>
      subst hc
      exact ⟨plainAt_iff.2 ⟨pre, rest, rfl, rfl, hrole⟩, (hend pre rest).2 hboundary⟩
  · rintro ⟨hplain, hbehind⟩
    obtain ⟨pre, rest, rfl, rfl, hrole⟩ := plainAt_iff.1 hplain
    exact ⟨pre, '{', rest, rfl, rfl, hrole, .opening rfl ((hend pre rest).1 hbehind)⟩

theorem mem_tokenize_closing_iff : ⟨.closing, ['}'], i⟩ ∈ tokenize r text ↔ ClosesAt text i := by
  have hkind : TokenKind.closing ≠ .text := nofun
  rw [mem_tokenize_iff hkind]
  constructor
  · rintro ⟨pre, c, rest, rfl, rfl, hrole, hsign⟩
    cases hsign with
    | closing hc hboundary =>
      subst hc
      exact ⟨plainAt_iff.2 ⟨pre, rest, rfl, rfl, hrole⟩, (blank_before_iff pre _).2 hboundary⟩
  · rintro ⟨hplain, hbefore⟩
    obtain ⟨pre, rest, rfl, rfl, hrole⟩ := plainAt_iff.1 hplain
    exact ⟨pre, '}', rest, rfl, rfl, hrole, .closing rfl ((blank_before_iff pre _).1 hbefore)⟩

theorem mem_tokenize_marker_iff {name : List Char} :
    ⟨.marker, name, i⟩ ∈ tokenize r text ↔ MarksAt r text i name := by
  have hkind : TokenKind.marker ≠ .text := nofun
  have hdrop : ∀ pre rest : List Char, (pre ++ '@' :: rest).drop (pre.length + 1) = rest := by
    intro pre rest
    rw [List.drop_length_add_append]
    rfl
  have hend : ∀ pre rest : List Char,
      (pre.length + 1 + (rest.takeWhile isNameChar).length = (pre ++ '@' :: rest).length ∨
        BlankAt (pre ++ '@' :: rest) (pre.length + 1 + (rest.takeWhile isNameChar).length)) ↔
      atBoundary (rest.dropWhile isNameChar).head? = true := by
    intro pre rest
    have hlength : pre.length + 1 + (rest.takeWhile isNameChar).length =
        (pre ++ '@' :: rest.takeWhile isNameChar).length := by
      rw [List.length_append, List.length_cons]
      omega
    refine blank_behind_iff ?_ hlength
    rw [List.append_assoc, List.cons_append, List.takeWhile_append_dropWhile]
  rw [mem_tokenize_iff hkind]
  constructor
  · rintro ⟨pre, c, rest, rfl, rfl, hrole, hsign⟩
    cases hsign with
    | marker hc hboundary hname =>
      subst hc
      obtain ⟨hne, hmarker, hafter⟩ := (announces_iff r rest).1 hname
      exact ⟨plainAt_iff.2 ⟨pre, rest, rfl, rfl, hrole⟩, (blank_before_iff pre _).2 hboundary,
        by rw [hdrop], hne, hmarker, (hend pre rest).2 hafter⟩
  · rintro ⟨hplain, hbefore, hrun, hne, hmarker, hbehind⟩
    obtain ⟨pre, rest, rfl, rfl, hrole⟩ := plainAt_iff.1 hplain
    rw [hdrop] at hrun
    subst hrun
    exact ⟨pre, '@', rest, rfl, rfl, hrole, .marker rfl ((blank_before_iff pre _).1 hbefore)
      ((announces_iff r rest).2 ⟨hne, hmarker, (hend pre rest).1 hbehind⟩)⟩

end Positions

/-! ## The tokens that characters belong to -/

theorem kindAt_eq_none {i : Nat} {ts : List Token} (h : ∀ t ∈ ts, i < t.position) :
    kindAt i ts = none := by
  induction ts with
  | nil => rfl
  | cons t ts ih =>
    rw [kindAt, ih fun u hu => h u (List.mem_cons_of_mem t hu),
      if_neg (Nat.not_le.2 (h t List.mem_cons_self))]
    rfl

namespace Tiles

variable {place i : Nat} {s : List Char} {ts : List Token}

theorem le_position (h : Tiles place s ts) : ∀ t ∈ ts, place ≤ t.position := by
  induction h with
  | nil => exact fun t ht => absurd ht List.not_mem_nil
  | cons _ _ _ ih =>
    intro u hu
    rcases List.mem_cons.1 hu with rfl | hu
    · exact Nat.le_refl _
    · exact Nat.le_trans (Nat.le_add_right _ _) (ih u hu)

/-- The characters of the stretch of the first token belong to it. -/
theorem kindAt_cons {t : Token} {n : Nat} (hrest : Tiles (t.position + n) s ts)
    (hle : t.position ≤ i) (hlt : i < t.position + n) : kindAt i (t :: ts) = some t.kind := by
  have hothers : ∀ u ∈ ts, i < u.position := fun u hu =>
    Nat.lt_of_lt_of_le hlt (hrest.le_position u hu)
  rw [kindAt, kindAt_eq_none hothers, if_pos hle]
  rfl

/-- The characters of the stretch of a token belong to it. -/
theorem kindAt_of_mem (h : Tiles place s ts) {t : Token} (ht : t ∈ ts) :
    ∃ span, t.ReadFrom span ∧
      ∀ i, t.position ≤ i → i < t.position + span.length → kindAt i ts = some t.kind := by
  induction h with
  | nil => exact absurd ht List.not_mem_nil
  | @cons u span rest ts hread hnext hrest ih =>
    rcases List.mem_cons.1 ht with rfl | ht
    · exact ⟨span, hread, fun i hle hlt => hrest.kindAt_cons hle hlt⟩
    · obtain ⟨spanT, hreadT, hkind⟩ := ih ht
      refine ⟨spanT, hreadT, fun i hle hlt => ?_⟩
      rw [kindAt, hkind i hle hlt]
      rfl

/-- Every character of the text belongs to a token, in whose stretch it is. -/
theorem exists_kindAt (h : Tiles place s ts) (hle : place ≤ i) (hlt : i < place + s.length) :
    ∃ t ∈ ts, ∃ span, t.ReadFrom span ∧ t.position ≤ i ∧ i < t.position + span.length ∧
      kindAt i ts = some t.kind := by
  induction h with
  | nil => exact absurd (Nat.lt_of_le_of_lt hle hlt) (Nat.lt_irrefl _)
  | @cons u span rest ts hread hnext hrest ih =>
    by_cases hspan : i < u.position + span.length
    · exact ⟨u, List.mem_cons_self, span, hread, hle, hspan, hrest.kindAt_cons hle hspan⟩
    · rw [List.length_append, ← Nat.add_assoc] at hlt
      obtain ⟨t, ht, spanT, hreadT, hleT, hltT, hkind⟩ := ih (Nat.not_lt.1 hspan) hlt
      refine ⟨t, List.mem_cons_of_mem u ht, spanT, hreadT, hleT, hltT, ?_⟩
      rw [kindAt, hkind]
      rfl

end Tiles

/-- What belongs to no structural token is text. -/
theorem kindAt_eq_text_iff (r : Registry) {text : List Char} {i : Nat} (hi : i < text.length) :
    kindAt i (tokenize r text) = some .text ↔ ¬OpensAt text i ∧ ¬ClosesAt text i ∧
      ¬∃ j name, MarksAt r text j name ∧ j ≤ i ∧ i ≤ j + name.length := by
  have htiles := tiles_tokenize r text
  constructor
  · intro htext
    refine ⟨fun hopens => ?_, fun hcloses => ?_, ?_⟩
    · obtain ⟨span, hread, hkind⟩ :=
        htiles.kindAt_of_mem (mem_tokenize_opening_iff.2 hopens)
      cases hread
      cases (hkind i (Nat.le_refl _) (Nat.lt_succ_self _)).symm.trans htext
    · obtain ⟨span, hread, hkind⟩ :=
        htiles.kindAt_of_mem (mem_tokenize_closing_iff.2 hcloses)
      cases hread
      cases (hkind i (Nat.le_refl _) (Nat.lt_succ_self _)).symm.trans htext
    · rintro ⟨j, name, hmarks, hle, hlast⟩
      obtain ⟨span, hread, hkind⟩ := htiles.kindAt_of_mem (mem_tokenize_marker_iff.2 hmarks)
      cases hread
      cases (hkind i hle (Nat.lt_succ_of_le hlast)).symm.trans htext
  · rintro ⟨hopens, hcloses, hmarks⟩
    obtain ⟨t, ht, span, hread, hle, hlt, hkind⟩ :=
      htiles.exists_kindAt (Nat.zero_le i) (by rwa [Nat.zero_add])
    rw [hkind]
    cases hread with
    | text => rfl
    | opening position =>
      obtain rfl : position = i := Nat.le_antisymm hle (Nat.le_of_lt_succ hlt)
      exact absurd (mem_tokenize_opening_iff.1 ht) hopens
    | closing position =>
      obtain rfl : position = i := Nat.le_antisymm hle (Nat.le_of_lt_succ hlt)
      exact absurd (mem_tokenize_closing_iff.1 ht) hcloses
    | marker name position =>
      exact absurd ⟨position, name, mem_tokenize_marker_iff.1 ht, hle, Nat.le_of_lt_succ hlt⟩ hmarks

/-- Where tokens of one kind have one value, a token is known by its kind and position. -/
theorem exists_mem_tokenize_iff {r : Registry} {text : List Char} {i : Nat} {kind : TokenKind}
    {value : List Char}
    (hvalue : ∀ t span, Token.ReadFrom t span → t.kind = kind → t.value = value) :
    (∃ t ∈ tokenize r text, t.kind = kind ∧ t.position = i) ↔
      ⟨kind, value, i⟩ ∈ tokenize r text := by
  constructor
  · rintro ⟨t, ht, rfl, rfl⟩
    obtain ⟨span, hread, -⟩ := (tiles_tokenize r text).kindAt_of_mem ht
    rwa [← hvalue t span hread rfl]
  · exact fun h => ⟨_, h, rfl, rfl⟩

/-- **The structural tokens stand at exactly the structural characters**, a marker with the run of name
characters as its value, and everything else is text. -/
theorem tokenize_structure (r : Registry) (text : List Char) :
    (∀ i, (∃ t ∈ tokenize r text, t.kind = .opening ∧ t.position = i) ↔ OpensAt text i) ∧
      (∀ i, (∃ t ∈ tokenize r text, t.kind = .closing ∧ t.position = i) ↔ ClosesAt text i) ∧
      (∀ i name, ⟨.marker, name, i⟩ ∈ tokenize r text ↔ MarksAt r text i name) ∧
      ∀ i : Fin text.length, kindAt i (tokenize r text) = some .text ↔
        ¬OpensAt text i ∧ ¬ClosesAt text i ∧
          ¬∃ j name, MarksAt r text j name ∧ j ≤ i ∧ i ≤ j + name.length := by
  have hopening : ∀ t span, Token.ReadFrom t span → t.kind = .opening → t.value = ['{'] := by
    rintro t span (_ | _ | _ | _) hkind <;> first | rfl | cases hkind
  have hclosing : ∀ t span, Token.ReadFrom t span → t.kind = .closing → t.value = ['}'] := by
    rintro t span (_ | _ | _ | _) hkind <;> first | rfl | cases hkind
  exact ⟨fun i => (exists_mem_tokenize_iff hopening).trans mem_tokenize_opening_iff,
    fun i => (exists_mem_tokenize_iff hclosing).trans mem_tokenize_closing_iff,
    fun i name => mem_tokenize_marker_iff, fun i => kindAt_eq_text_iff r i.2⟩

end DocTree.Hash
