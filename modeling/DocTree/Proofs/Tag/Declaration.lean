import DocTree.Proofs.Fault
import DocTree.Proofs.Text.Heads
import DocTree.Tag.Declaration

/-!
# Reading declarations

A text is cut at its first space again and again, and a brace that is attached to the variable is put in
front of the rest, which is then trimmed. In effect a declaration is read off the words of the text
(`parse_eq_ofWords`): the types from the first word (`parse_of_words`), the variable from the second one
(`bindWords_variable`, `bindWords_attached`). A variable is a mark, a dollar sign and word characters
(`exists_of_isVariable`), so it has neither a brace nor a bar. A text declares something exactly if its
first word gives types, and no word behind it is lost (`parse_keeps_words`).

What a text declares is well formed whatever the text is: there is a type, and types have neither
blanks nor bars (`types_of_parse`); the description has single spaces (`singleSpaced_description`); and
nothing stands behind the name of the variable (`variableName_of_parse`).
-/

namespace DocTree

open Text (isBlank words)

/-! ## Variables -/

/-- The text is its mark and what follows the mark. -/
theorem exists_dropVariableMark (s : List Char) :
    ∃ mark, s = mark ++ dropVariableMark s ∧ (mark = [] ∨ mark = ['&'] ∨ mark = ['.', '.', '.']) := by
  rw [dropVariableMark.eq_def]
  split
  · exact ⟨['&'], rfl, .inr (.inl rfl)⟩
  · exact ⟨['.', '.', '.'], rfl, .inr (.inr rfl)⟩
  · exact ⟨[], rfl, .inl rfl⟩

/-- A variable is a mark, a dollar sign and word characters, and perhaps a line feed. -/
theorem exists_of_isVariable {v : List Char} (hv : isVariable v = true) :
    ∃ mark name tail, v = mark ++ '$' :: (name ++ tail) ∧
      (mark = [] ∨ mark = ['&'] ∨ mark = ['.', '.', '.']) ∧
      name ≠ [] ∧ (∀ c ∈ name, Text.isWord c = true) ∧ (tail = [] ∨ tail = ['\n']) := by
  obtain ⟨mark, hsplit, hmark⟩ := exists_dropVariableMark v
  rw [isVariable] at hv
  split at hv
  · next rest hrest =>
    rw [Bool.and_eq_true, Bool.or_eq_true, beq_iff_eq, beq_iff_eq] at hv
    refine ⟨mark, rest.takeWhile Text.isWord, rest.dropWhile Text.isWord, ?_, hmark, ?_, ?_, hv.2⟩
    · rw [List.takeWhile_append_dropWhile, ← hrest, ← hsplit]
    · simpa using hv.1
    · exact fun c hc => List.all_eq_true.1 List.all_takeWhile c hc
  · exact absurd hv Bool.false_ne_true

/-- The characters of which variables are made. -/
theorem mem_of_isVariable {v : List Char} (hv : isVariable v = true) {c : Char} (hc : c ∈ v) :
    c = '&' ∨ c = '.' ∨ c = '$' ∨ Text.isWord c = true ∨ c = '\n' := by
  obtain ⟨mark, name, tail, rfl, hmark, -, hname, htail⟩ := exists_of_isVariable hv
  simp only [List.mem_append, List.mem_cons] at hc
  rcases hc with hc | rfl | hc | hc
  · rcases hmark with rfl | rfl | rfl
    · exact absurd hc List.not_mem_nil
    · exact .inl (List.mem_singleton.1 hc)
    · exact .inr (.inl (by simpa using hc))
  · exact .inr (.inr (.inl rfl))
  · exact .inr (.inr (.inr (.inl (hname c hc))))
  · rcases htail with rfl | rfl
    · exact absurd hc List.not_mem_nil
    · exact .inr (.inr (.inr (.inr (List.mem_singleton.1 hc))))

/-- A character that is in no variable. -/
theorem not_mem_of_isVariable {v : List Char} (hv : isVariable v = true) {c : Char}
    (hc : c ∉ ['&', '.', '$', '\n']) (hword : Text.isWord c = false) : c ∉ v := by
  intro hmem
  simp only [List.mem_cons, List.not_mem_nil, or_false, not_or] at hc
  rcases mem_of_isVariable hv hmem with h | h | h | h | h
  · exact hc.1 h
  · exact hc.2.1 h
  · exact hc.2.2.1 h
  · rw [hword] at h
    exact Bool.false_ne_true h
  · exact hc.2.2.2 h

theorem ne_nil_of_isVariable {v : List Char} (hv : isVariable v = true) : v ≠ [] := by
  rintro rfl
  exact absurd hv (by decide)

/-- A name of a variable: an optional mark, a dollar sign and word characters, and nothing behind
them. -/
def VariableName (v : List Char) : Prop :=
  ∃ mark name, v = mark ++ '$' :: name ∧ (mark = [] ∨ mark = ['&'] ∨ mark = ['.', '.', '.']) ∧
    name ≠ [] ∧ ∀ c ∈ name, Text.isWord c = true

/-- A variable that is one word has no line feed behind it. -/
theorem variableName_of_isVariable {v : List Char} (hv : isVariable v = true)
    (hword : ∀ c ∈ v, isBlank c = false) : VariableName v := by
  obtain ⟨mark, name, tail, rfl, hmark, hne, hname, htail⟩ := exists_of_isVariable hv
  rcases htail with rfl | rfl
  · rw [List.append_nil]
    exact ⟨mark, name, rfl, hmark, hne, hname⟩
  · have hfeed : isBlank '\n' = false := hword _ (by simp)
    exact absurd hfeed (by decide)

/-- A name of a variable is a variable. -/
theorem VariableName.isVariable {v : List Char} (h : VariableName v) : isVariable v = true := by
  obtain ⟨mark, name, rfl, hmark, hne, hname⟩ := h
  have hdrop : dropVariableMark (mark ++ '$' :: name) = '$' :: name := by
    rcases hmark with rfl | rfl | rfl <;> rfl
  rw [DocTree.isVariable, hdrop]
  simp [List.takeWhile_eq_self_iff.2 hname, List.dropWhile_eq_nil_iff.2 hname, hne]

/-- A word is a variable exactly if it is the name of one. -/
theorem isVariable_iff_of_word {w : List Char} (hw : ∀ c ∈ w, isBlank c = false) :
    isVariable w = true ↔ VariableName w :=
  ⟨fun h => variableName_of_isVariable h hw, VariableName.isVariable⟩

theorem brace_not_mem_of_isVariable {v : List Char} (hv : isVariable v = true) : '{' ∉ v :=
  not_mem_of_isVariable hv (by decide) (by decide +kernel)

/-! ## Types -/

/-- The types of a word are the parts between its bars that are not empty. -/
theorem typesOfWord_eq (w : List Char) : typesOfWord w = (w.splitOn '|').filter (· ≠ []) := by
  rw [typesOfWord, Text.pieces, Text.splitWhere_eq_splitOnP, List.splitOn]
  exact List.filter_congr fun v _ => by cases v <;> rfl

/-- A word gives no types exactly if it is made of bars. -/
theorem typesOfWord_eq_nil_iff {w : List Char} : typesOfWord w = [] ↔ ∀ c ∈ w, c = '|' := by
  constructor
  · intro h c hc
    by_contra hbar
    obtain ⟨v, hv, -⟩ := Text.exists_mem_pieces (p := (· == '|')) hc (by simpa using hbar)
    rw [← typesOfWord, h] at hv
    exact List.not_mem_nil hv
  · intro h
    rw [List.eq_nil_iff_forall_not_mem]
    intro v hv
    obtain ⟨hne, hbar⟩ := Text.mem_pieces hv
    obtain ⟨c, hc⟩ := List.exists_mem_of_ne_nil v hne
    have hnot : (c == '|') = false := hbar c hc
    rw [h c (Text.mem_of_mem_pieces hv hc)] at hnot
    exact absurd hnot (by decide)

/-! ## Words of a declaration -/

namespace Declaration

/-- The variable and the description among the words that follow the types. -/
def bindWords (types : List (List Char)) : List (List Char) → Declaration
  | [] => ⟨types, [], []⟩
  | w :: ws =>
    if w.getLast? == some '{' && isVariable w.dropLast then
      ⟨types, w.dropLast, Text.joinSpaced (['{'] :: ws)⟩
    else if isVariable w then ⟨types, w, Text.joinSpaced ws⟩
    else ⟨types, [], Text.joinSpaced (w :: ws)⟩

/-- The declaration that words make. -/
def ofWords : List (List Char) → Except DeclarationError Declaration
  | [] => .error .empty
  | head :: rest =>
    if isVariable head then .error (.missingType head)
    else if (typesOfWord head).isEmpty then .error (.invalidType head)
    else .ok (bindWords (typesOfWord head) rest)

/-- A brace that is set off from what follows it is its first word. -/
theorem trim_brace_joinSpaced {ws : List (List Char)}
    (h : ∀ w ∈ ws, w ≠ [] ∧ ∀ c ∈ w, isBlank c = false) :
    Text.trim ('{' :: ' ' :: Text.joinSpaced ws) = Text.joinSpaced (['{'] :: ws) := by
  cases ws with
  | nil => decide
  | cons w ws =>
    have hwords : ∀ v ∈ ['{'] :: w :: ws, v ≠ [] ∧ ∀ c ∈ v, isBlank c = false := by
      intro v hv
      rcases List.mem_cons.1 hv with rfl | hv
      · exact ⟨List.cons_ne_nil _ _, by decide⟩
      · exact h v hv
    rw [← Text.trim_joinSpaced hwords, Text.joinSpaced_cons_cons]
    rfl

/-- Binding the text that joined words make is binding the words. -/
theorem bindText_joinSpaced (types : List (List Char)) {ws : List (List Char)}
    (h : ∀ w ∈ ws, w ≠ [] ∧ ∀ c ∈ w, isBlank c = false) :
    bindText types (Text.joinSpaced ws) = bindWords types ws := by
  cases ws with
  | nil => rfl
  | cons w ws =>
    rw [bindText, bindWords, Text.splitHead_joinSpaced h,
      ← trim_brace_joinSpaced fun v hv => h v (List.mem_cons_of_mem w hv)]

/-- **Cutting a text at its spaces reads its words.** -/
theorem parse_eq_ofWords (text : List Char) : parse text = ofWords (words text) := by
  have hwords : ∀ w ∈ words text, w ≠ [] ∧ ∀ c ∈ w, isBlank c = false := fun _ => Text.mem_words
  rw [parse, Text.squeeze]
  cases h : words text with
  | nil => rfl
  | cons head rest =>
    rw [h] at hwords
    have hne : (Text.joinSpaced (head :: rest)).isEmpty = false := by
      rw [List.isEmpty_eq_false_iff, ← h, ← Text.squeeze, Ne, Text.squeeze_eq_nil_iff,
        ← Text.words_eq_nil_iff, h]
      exact List.cons_ne_nil _ _
    rw [ofWords, hne, Text.splitHead_joinSpaced hwords,
      ← bindText_joinSpaced _ fun w hw => hwords w (List.mem_cons_of_mem head hw)]
    rfl

/-- A declaration is read off the words of a text. -/
theorem parse_congr {s t : List Char} (h : words s = words t) : parse s = parse t := by
  rw [parse_eq_ofWords, parse_eq_ofWords, h]

/-- A text without words declares nothing. -/
theorem parse_of_allBlank {text : List Char} (h : Text.allBlank text = true) :
    parse text = .error .empty := by
  rw [parse_eq_ofWords, Text.words_eq_nil_iff.2 h]
  rfl

/-- The first word gives the types, and the others what they belong to. -/
theorem parse_of_words {text head : List Char} {rest : List (List Char)}
    (h : words text = head :: rest) (hvariable : isVariable head = false)
    (htypes : typesOfWord head ≠ []) :
    parse text = .ok (bindWords (typesOfWord head) rest) := by
  have hempty : ¬(typesOfWord head).isEmpty = true := by simpa using htypes
  rw [parse_eq_ofWords, h, ofWords]
  simp only [hvariable]
  rw [if_neg Bool.false_ne_true, if_neg hempty]

/-- A second word that is a variable is the variable. -/
theorem bindWords_variable (types : List (List Char)) {v : List Char} (hv : isVariable v = true)
    (ws : List (List Char)) : bindWords types (v :: ws) = ⟨types, v, Text.joinSpaced ws⟩ := by
  have hlast : ¬(v.getLast? == some '{' && isVariable v.dropLast) = true := by
    intro h
    rw [Bool.and_eq_true, beq_iff_eq] at h
    exact brace_not_mem_of_isVariable hv (List.mem_of_getLast? h.1)
  rw [bindWords, if_neg hlast, if_pos hv]

/-- A brace may be attached to the variable. -/
theorem bindWords_attached (types : List (List Char)) {v : List Char} (hv : isVariable v = true)
    (ws : List (List Char)) :
    bindWords types ((v ++ ['{']) :: ws) = ⟨types, v, Text.joinSpaced (['{'] :: ws)⟩ := by
  rw [bindWords, List.getLast?_concat, List.dropLast_concat, hv, if_pos (by decide)]

/-! ## What is declared -/

/-- A text declares something exactly if its first word gives types. -/
theorem parse_eq_ok_iff {text : List Char} {d : Declaration} :
    parse text = .ok d ↔ ∃ head rest, words text = head :: rest ∧ isVariable head = false ∧
      typesOfWord head ≠ [] ∧ d = bindWords (typesOfWord head) rest := by
  constructor
  · intro h
    rw [parse_eq_ofWords] at h
    cases hwords : words text with
    | nil =>
      rw [hwords] at h
      cases h
    | cons head rest =>
      rw [hwords, ofWords] at h
      split at h
      · cases h
      · next hvariable =>
        split at h
        · cases h
        · next htypes =>
          refine ⟨head, rest, rfl, Bool.eq_false_iff.2 hvariable, ?_, (Except.ok.inj h).symm⟩
          simpa using htypes
  · rintro ⟨head, rest, hwords, hvariable, htypes, rfl⟩
    exact parse_of_words hwords hvariable htypes

theorem types_bindWords (types ws : List (List Char)) : (bindWords types ws).types = types := by
  cases ws with
  | nil => rfl
  | cons w ws =>
    rw [bindWords]
    split
    · rfl
    · split <;> rfl

/-- The description is made of words of the declaration, and perhaps a brace in front of them. -/
theorem exists_description_bindWords (types ws : List (List Char)) :
    ∃ vs, (bindWords types ws).description = Text.joinSpaced vs ∧ ∀ v ∈ vs, v = ['{'] ∨ v ∈ ws := by
  cases ws with
  | nil => exact ⟨[], rfl, fun v hv => absurd hv List.not_mem_nil⟩
  | cons w ws =>
    rw [bindWords]
    split
    · refine ⟨['{'] :: ws, rfl, fun v hv => ?_⟩
      exact (List.mem_cons.1 hv).imp_right (List.mem_cons_of_mem w)
    · split
      · exact ⟨ws, rfl, fun v hv => .inr (List.mem_cons_of_mem w hv)⟩
      · exact ⟨w :: ws, rfl, fun v hv => .inr hv⟩

/-- The variable is one of the words, or one without its last character. -/
theorem variableName_bindWords {types ws : List (List Char)}
    (h : (bindWords types ws).variableName ≠ []) :
    isVariable (bindWords types ws).variableName = true ∧
      ∃ w ∈ ws, (bindWords types ws).variableName ⊆ w := by
  cases ws with
  | nil => exact absurd rfl h
  | cons w ws =>
    rw [bindWords] at h ⊢
    split at h
    · next hattached =>
      rw [if_pos hattached]
      rw [Bool.and_eq_true] at hattached
      exact ⟨hattached.2, w, List.mem_cons_self, List.dropLast_subset w⟩
    · next hattached =>
      rw [if_neg hattached]
      split at h
      · next hvariable =>
        rw [if_pos hvariable]
        exact ⟨hvariable, w, List.mem_cons_self, List.Subset.refl w⟩
      · exact absurd rfl h

section Declared

variable {text : List Char} {d : Declaration}

/-- There is a type, and types are parts of words between bars. -/
theorem types_of_parse (h : parse text = .ok d) :
    d.types ≠ [] ∧ ∀ t ∈ d.types, t ≠ [] ∧ ∀ c ∈ t, isBlank c = false ∧ c ≠ '|' := by
  obtain ⟨head, rest, hwords, -, htypes, rfl⟩ := parse_eq_ok_iff.1 h
  have hhead : ∀ c ∈ head, isBlank c = false := (Text.mem_words (hwords ▸ List.mem_cons_self)).2
  rw [types_bindWords]
  refine ⟨htypes, fun t ht => ?_⟩
  obtain ⟨hne, hbar⟩ := Text.mem_pieces ht
  exact ⟨hne, fun c hc => ⟨hhead c (Text.mem_of_mem_pieces ht hc), by simpa using hbar c hc⟩⟩

theorem singleSpaced_description (h : parse text = .ok d) : Text.SingleSpaced d.description := by
  obtain ⟨head, rest, hwords, -, -, rfl⟩ := parse_eq_ok_iff.1 h
  obtain ⟨vs, hdescription, hvs⟩ := exists_description_bindWords (typesOfWord head) rest
  rw [hdescription]
  refine Text.singleSpaced_joinSpaced fun v hv => ?_
  rcases hvs v hv with rfl | hmem
  · exact ⟨List.cons_ne_nil _ _, by decide⟩
  · exact Text.mem_words (hwords ▸ List.mem_cons_of_mem head hmem)

/-- A variable that is declared is part of one word, so its name has nothing behind it. -/
theorem variableName_of_parse (h : parse text = .ok d) (hname : d.variableName ≠ []) :
    VariableName d.variableName := by
  obtain ⟨head, rest, hwords, -, -, rfl⟩ := parse_eq_ok_iff.1 h
  obtain ⟨hvariable, w, hw, hsubset⟩ := variableName_bindWords hname
  refine variableName_of_isVariable hvariable fun c hc => ?_
  exact (Text.mem_words (hwords ▸ List.mem_cons_of_mem head hw)).2 c (hsubset hc)

end Declared

/-! ## Which texts declare what -/

/-- A word that gives no types: the name of a variable, or nothing but bars. -/
def Untyped (w : List Char) : Prop := VariableName w ∨ ∀ c ∈ w, c = '|'

/-- The words behind the types name a variable and leave a description. They are all kept: a brace that
is attached to the name becomes the first word of the description. -/
inductive Binds : List (List Char) → List Char → List Char → Prop where
  | named {v : List Char} {ws : List (List Char)} (hv : VariableName v) :
    Binds (v :: ws) v (Text.joinSpaced ws)
  | attached {v : List Char} {ws : List (List Char)} (hv : VariableName v) :
    Binds ((v ++ ['{']) :: ws) v (Text.joinSpaced (['{'] :: ws))
  | unnamed {ws : List (List Char)}
    (h : ∀ w ∈ ws.head?, ¬VariableName w ∧ ∀ v, w = v ++ ['{'] → ¬VariableName v) :
    Binds ws [] (Text.joinSpaced ws)

theorem bindWords_of_binds (types : List (List Char)) {ws : List (List Char)} {v description : List Char}
    (hws : ∀ w ∈ ws, ∀ c ∈ w, isBlank c = false) (h : Binds ws v description) :
    bindWords types ws = ⟨types, v, description⟩ := by
  cases h with
  | named hv => exact bindWords_variable types hv.isVariable _
  | attached hv => exact bindWords_attached types hv.isVariable _
  | unnamed hnone =>
    cases ws with
    | nil => rfl
    | cons w ws =>
      have hw := hws w List.mem_cons_self
      obtain ⟨hvariable, hattached⟩ := hnone w rfl
      have hbrace : ¬(w.getLast? == some '{' && isVariable w.dropLast) = true := by
        rw [Bool.and_eq_true, beq_iff_eq]
        rintro ⟨hlast, hv⟩
        have hsplit := (List.dropLast_append_getLast? '{' hlast).symm
        exact hattached _ hsplit
          (variableName_of_isVariable hv fun c hc => hw c (List.dropLast_subset w hc))
      rw [bindWords, if_neg hbrace, if_neg fun hv => hvariable (variableName_of_isVariable hv hw)]

theorem binds_bindWords (types : List (List Char)) {ws : List (List Char)}
    (hws : ∀ w ∈ ws, ∀ c ∈ w, isBlank c = false) :
    Binds ws (bindWords types ws).variableName (bindWords types ws).description := by
  cases ws with
  | nil => exact .unnamed fun w hw => absurd hw (Option.not_mem_none w)
  | cons w ws =>
    have hw := hws w List.mem_cons_self
    rw [bindWords]
    split
    · next hattached =>
      rw [Bool.and_eq_true, beq_iff_eq] at hattached
      obtain ⟨hlast, hv⟩ := hattached
      have hbound : Binds ((w.dropLast ++ ['{']) :: ws) w.dropLast (Text.joinSpaced (['{'] :: ws)) :=
        .attached (variableName_of_isVariable hv fun c hc => hw c (List.dropLast_subset w hc))
      rwa [List.dropLast_append_getLast? '{' hlast] at hbound
    · next hattached =>
      split
      · next hv => exact .named (variableName_of_isVariable hv hw)
      · next hv =>
        refine .unnamed fun u hu => ?_
        obtain rfl := Option.some.inj hu
        refine ⟨fun hname => hv hname.isVariable, ?_⟩
        rintro v rfl hname
        rw [List.getLast?_concat, List.dropLast_concat, hname.isVariable] at hattached
        exact hattached (by decide)

/-- Words are bound in one way. -/
theorem eq_bindWords_iff {types ws : List (List Char)} {d : Declaration}
    (hws : ∀ w ∈ ws, ∀ c ∈ w, isBlank c = false) :
    d = bindWords types ws ↔ d.types = types ∧ Binds ws d.variableName d.description := by
  constructor
  · rintro rfl
    exact ⟨types_bindWords types ws, binds_bindWords types hws⟩
  · rintro ⟨rfl, hbinds⟩
    rw [bindWords_of_binds d.types hws hbinds]

theorem untyped_iff {w : List Char} (hw : ∀ c ∈ w, isBlank c = false) :
    Untyped w ↔ ¬(isVariable w = false ∧ typesOfWord w ≠ []) := by
  rw [Untyped, ← isVariable_iff_of_word hw, ← typesOfWord_eq_nil_iff, ← Bool.not_eq_true]
  tauto

theorem parse_eq_ok_iff_binds {text : List Char} {d : Declaration} :
    parse text = .ok d ↔ ∃ w ws, words text = w :: ws ∧ ¬Untyped w ∧
      d.types = (w.splitOn '|').filter (· ≠ []) ∧ Binds ws d.variableName d.description := by
  have hblank : ∀ w ∈ words text, ∀ c ∈ w, isBlank c = false := fun w hw => (Text.mem_words hw).2
  rw [parse_eq_ok_iff]
  refine exists_congr fun w => exists_congr fun ws => and_congr_right fun hwords => ?_
  rw [hwords] at hblank
  rw [untyped_iff (hblank w List.mem_cons_self), not_not, and_assoc, typesOfWord_eq,
    eq_bindWords_iff fun v hv => hblank v (List.mem_cons_of_mem w hv)]

theorem exists_parse_eq_ok_iff {text : List Char} :
    (∃ d, parse text = .ok d) ↔ ∃ w ws, words text = w :: ws ∧ ¬Untyped w := by
  constructor
  · rintro ⟨d, hd⟩
    obtain ⟨w, ws, hwords, htyped, -⟩ := parse_eq_ok_iff_binds.1 hd
    exact ⟨w, ws, hwords, htyped⟩
  · rintro ⟨w, ws, hwords, htyped⟩
    rw [untyped_iff (Text.mem_words (hwords ▸ List.mem_cons_self)).2, not_not] at htyped
    exact ⟨_, parse_of_words hwords htyped.1 htyped.2⟩

/-- **Which texts declare a parameter, and what.** A text declares nothing exactly if it has no word or
its first word gives no types. Otherwise the types are the parts of the first word between its bars, and
the words behind it are the variable, if they start with one, and the description. -/
theorem parse_keeps_words (text : List Char) :
    ((∃ e, parse text = .error e) ↔
      words text = [] ∨ ∃ w ws, words text = w :: ws ∧ Untyped w) ∧
    ∀ d, parse text = .ok d ↔ ∃ w ws, words text = w :: ws ∧ ¬Untyped w ∧
      d.types = (w.splitOn '|').filter (· ≠ []) ∧ Binds ws d.variableName d.description := by
  refine ⟨?_, fun d => parse_eq_ok_iff_binds⟩
  rw [exists_eq_error_iff, exists_parse_eq_ok_iff]
  cases words text with
  | nil => simp
  | cons w ws => simp

end Declaration

end DocTree
