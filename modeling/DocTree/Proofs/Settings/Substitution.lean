import DocTree.Proofs.Settings.References
import DocTree.Proofs.Text.Words
import Mathlib.Data.List.Forall2

/-!
# What replacing references does

A reference is written in one of three ways (`Reference.WrittenAs`), and reading finds exactly those, in
one way only (`read?_eq_some_iff`). So a text is cut in one way into references and the characters
between them, from left to right (`CutInto`): where a reference begins it is taken whole, and the cut
goes on behind it.

Both ways of replacing references are then described by this cut. A text with its references replaced is
what its parts are filled with, one after another (`expandReferences_eq`), so that nothing that was
filled in is read again. A text that is one single reference is worth what the same text is worth as a
setting (`substituteText_eq`). `Resolved` says it for whole documents, and `substitute_eq_iff_resolved`
that replacing references gives this and nothing else.
-/

namespace DocTree

open Text (isWord takeWhile_run dropWhile_run)

/-! ## Written references -/

/-- How a reference may be written: a name alone, or with a value to fall back on behind a colon and a
hyphen or behind a colon alone. -/
inductive Reference.WrittenAs : Reference → List Char → Prop
  | bare {name : List Char} (hne : name ≠ []) (hword : ∀ c ∈ name, isWord c = true) :
    WrittenAs ⟨String.ofList name, none⟩ ('$' :: '{' :: (name ++ ['}']))
  | hyphen {name d : List Char} (hne : name ≠ []) (hword : ∀ c ∈ name, isWord c = true)
    (hd : '}' ∉ d) :
    WrittenAs ⟨String.ofList name, some (String.ofList d)⟩
      ('$' :: '{' :: (name ++ ':' :: '-' :: (d ++ ['}'])))
  | colon {name d : List Char} (hne : name ≠ []) (hword : ∀ c ∈ name, isWord c = true)
    (hd : '}' ∉ d) (hhyphen : d.head? ≠ some '-') :
    WrittenAs ⟨String.ofList name, some (String.ofList d)⟩
      ('$' :: '{' :: (name ++ ':' :: (d ++ ['}'])))

namespace Reference

theorem closeBrace?_eq_some_iff {s rest : List Char} : closeBrace? s = some rest ↔ s = '}' :: rest := by
  unfold closeBrace?
  split
  · rw [Option.some_inj, List.cons_inj_right]
  · next hno =>
    refine ⟨nofun, fun h => (hno rest h).elim⟩

/-- What follows the name of a reference, read to its end. -/
def readTail? (named : String) : List Char → Option (Reference × List Char)
  | ':' :: more =>
    let more := match more with
      | '-' :: rest => rest
      | _ => more
    let default := more.takeWhile (· != '}')
    (closeBrace? (more.drop default.length)).map fun rest =>
      (⟨named, some (String.ofList default)⟩, rest)
  | rest => (closeBrace? rest).map fun rest => (⟨named, none⟩, rest)

/-- A name goes as far as its word characters. -/
theorem read?_name {name rest : List Char} (hne : name ≠ []) (hword : ∀ c ∈ name, isWord c = true)
    (hrest : ∀ c ∈ rest.head?, isWord c = false) :
    read? ('$' :: '{' :: (name ++ rest)) = readTail? (String.ofList name) rest := by
  have hname : (name ++ rest).takeWhile isWord = name := takeWhile_run hword hrest
  have hempty : ¬name.isEmpty = true := mt List.isEmpty_iff.1 hne
  rw [read?]
  dsimp only
  rw [hname, if_neg hempty, List.drop_left]
  unfold readTail?
  rfl

/-- A value to fall back on goes up to the first closing brace. -/
theorem takeWhile_default_eq_some_iff {more after : List Char} {r : Reference} {named : String} :
    ((closeBrace? (more.drop (more.takeWhile (· != '}')).length)).map fun rest =>
      ((⟨named, some (String.ofList (more.takeWhile (· != '}')))⟩ : Reference), rest)) =
        some (r, after) ↔
      ∃ d, '}' ∉ d ∧ more = d ++ '}' :: after ∧ r = ⟨named, some (String.ofList d)⟩ := by
  rw [Option.map_eq_some_iff]
  simp only [closeBrace?_eq_some_iff, Prod.mk.injEq]
  constructor
  · rintro ⟨rest, hrest, rfl, rfl⟩
    refine ⟨more.takeWhile (· != '}'), fun hmem => ?_, ?_, rfl⟩
    · exact absurd (List.mem_takeWhile_imp hmem) (by decide)
    · rw [← hrest]
      exact (List.prefix_iff_eq_append.1 (List.takeWhile_prefix _)).symm
  · rintro ⟨d, hd, rfl, rfl⟩
    have hrun : (d ++ '}' :: after).takeWhile (· != '}') = d := by
      refine takeWhile_run (fun c hc => bne_iff_ne.2 ?_) fun c hc => ?_
      · rintro rfl
        exact hd hc
      · obtain rfl := Option.some.inj hc
        rfl
    rw [hrun, List.drop_left]
    exact ⟨after, rfl, rfl, rfl⟩

theorem head?_append_brace_ne_iff {d : List Char} (after : List Char) :
    (d ++ '}' :: after).head? ≠ some '-' ↔ d.head? ≠ some '-' := by
  cases d with
  | nil => simp
  | cons c d => rfl

theorem readTail?_eq_some_iff {named : String} {tail after : List Char} {r : Reference} :
    readTail? named tail = some (r, after) ↔
      (tail = '}' :: after ∧ r = ⟨named, none⟩) ∨
      ∃ d, '}' ∉ d ∧ r = ⟨named, some (String.ofList d)⟩ ∧
        (tail = ':' :: '-' :: (d ++ '}' :: after) ∨
          tail = ':' :: (d ++ '}' :: after) ∧ d.head? ≠ some '-') := by
  unfold readTail?
  split
  · next more =>
    dsimp only
    rw [takeWhile_default_eq_some_iff]
    split
    · next rest =>
      -- a hyphen behind the colon is never part of the value
      constructor
      · rintro ⟨d, hd, rfl, rfl⟩
        exact .inr ⟨d, hd, rfl, .inl rfl⟩
      · rintro (⟨h, -⟩ | ⟨d, hd, rfl, h | ⟨h, hhyphen⟩⟩)
        · cases h
        · exact ⟨d, hd, (List.cons.inj (List.cons.inj h).2).2, rfl⟩
        · refine absurd ?_ ((head?_append_brace_ne_iff after).2 hhyphen)
          exact congrArg List.head? (List.cons.inj h).2.symm
    · next hno =>
      constructor
      · rintro ⟨d, hd, rfl, rfl⟩
        refine .inr ⟨d, hd, rfl, .inr ⟨rfl, (head?_append_brace_ne_iff after).1 fun h => ?_⟩⟩
        obtain ⟨rest, hrest⟩ := List.head?_eq_some_iff.1 h
        exact hno rest hrest
      · rintro (⟨h, -⟩ | ⟨d, hd, rfl, h | ⟨h, -⟩⟩)
        · cases h
        · exact absurd (List.cons.inj h).2 (hno _)
        · exact ⟨d, hd, (List.cons.inj h).2, rfl⟩
  · next hno =>
    rw [Option.map_eq_some_iff]
    simp only [closeBrace?_eq_some_iff, Prod.mk.injEq]
    constructor
    · rintro ⟨rest, rfl, rfl, rfl⟩
      exact .inl ⟨rfl, rfl⟩
    · rintro (⟨rfl, rfl⟩ | ⟨d, -, -, h | ⟨h, -⟩⟩)
      · exact ⟨after, rfl, rfl, rfl⟩
      · exact absurd h (hno _)
      · exact absurd h (hno _)

/-- What a reference begins with, and a name before anything else. -/
theorem exists_of_read? {s after : List Char} {r : Reference} (h : read? s = some (r, after)) :
    ∃ name tail, s = '$' :: '{' :: (name ++ tail) ∧ name ≠ [] ∧ (∀ c ∈ name, isWord c = true) ∧
      ∀ c ∈ tail.head?, isWord c = false := by
  unfold read? at h
  split at h
  · next inner =>
    obtain ⟨tail, hinner, hword, hstop⟩ := Text.exists_run isWord inner
    refine ⟨inner.takeWhile isWord, tail, congrArg ('$' :: '{' :: ·) hinner, fun hempty => ?_, hword,
      hstop⟩
    rw [hempty] at h
    cases h
  · cases h

theorem isWord_stop : ∀ c ∈ ['}', ':'], isWord c = false := by decide +kernel

/-- **Reading finds the written references**, and each in one way only. -/
theorem read?_eq_some_iff {s after : List Char} {r : Reference} :
    read? s = some (r, after) ↔ ∃ w, r.WrittenAs w ∧ s = w ++ after := by
  constructor
  · intro h
    obtain ⟨name, tail, rfl, hne, hword, hstop⟩ := exists_of_read? h
    rw [read?_name hne hword hstop, readTail?_eq_some_iff] at h
    rcases h with ⟨rfl, rfl⟩ | ⟨d, hd, rfl, rfl | ⟨rfl, hhyphen⟩⟩
    · exact ⟨_, .bare hne hword, by simp⟩
    · exact ⟨_, .hyphen hne hword hd, by simp⟩
    · exact ⟨_, .colon hne hword hd hhyphen, by simp⟩
  · rintro ⟨w, hw, rfl⟩
    -- the character behind the name is a brace or a colon, and so no word character
    have hread : ∀ {name tail : List Char} {c : Char}, c ∈ ['}', ':'] → name ≠ [] →
        (∀ c ∈ name, isWord c = true) → read? ('$' :: '{' :: (name ++ c :: tail)) =
          readTail? (String.ofList name) (c :: tail) := by
      intro name tail c hc hne hword
      refine read?_name hne hword fun b hb => ?_
      obtain rfl := Option.some.inj hb
      exact isWord_stop c hc
    cases hw with
    | bare hne hword =>
      simp only [List.cons_append, List.append_assoc, List.nil_append]
      rw [hread (by decide) hne hword, readTail?_eq_some_iff]
      exact .inl ⟨rfl, rfl⟩
    | @hyphen name d hne hword hd =>
      simp only [List.cons_append, List.append_assoc, List.nil_append]
      rw [hread (by decide) hne hword, readTail?_eq_some_iff]
      exact .inr ⟨d, hd, rfl, .inl rfl⟩
    | @colon name d hne hword hd hhyphen =>
      simp only [List.cons_append, List.append_assoc, List.nil_append]
      rw [hread (by decide) hne hword, readTail?_eq_some_iff]
      exact .inr ⟨d, hd, rfl, .inr ⟨rfl, hhyphen⟩⟩

theorem read?_eq_none_iff {s : List Char} :
    read? s = none ↔ ∀ r w after, WrittenAs r w → s ≠ w ++ after := by
  constructor
  · rintro h r w after hw rfl
    rw [read?_eq_some_iff.2 ⟨w, hw, rfl⟩] at h
    cases h
  · intro h
    rw [Option.eq_none_iff_forall_ne_some]
    rintro ⟨r, after⟩ hread
    obtain ⟨w, hw, hs⟩ := read?_eq_some_iff.1 hread
    exact h r w after hw hs

end Reference

theorem Reference.WrittenAs.read? {r : Reference} {w : List Char} (h : r.WrittenAs w)
    (after : List Char) : Reference.read? (w ++ after) = some (r, after) :=
  Reference.read?_eq_some_iff.2 ⟨w, h, rfl⟩

theorem Reference.writtenAs_of_read? {r : Reference} {s : List Char}
    (h : Reference.read? s = some (r, [])) : r.WrittenAs s := by
  obtain ⟨w, hw, hs⟩ := Reference.read?_eq_some_iff.1 h
  rw [hs, List.append_nil]
  exact hw

/-- A reference at the start of a text is read in one way. -/
theorem Reference.WrittenAs.unique {r r' : Reference} {w w' rest rest' : List Char}
    (h : r.WrittenAs w) (h' : r'.WrittenAs w') (hsame : w ++ rest = w' ++ rest') :
    r = r' ∧ w = w' ∧ rest = rest' := by
  have hread := h.read? rest
  rw [hsame, h'.read? rest'] at hread
  obtain ⟨rfl, rfl⟩ := Prod.mk.inj (Option.some.inj hread)
  exact ⟨rfl, List.append_cancel_right hsame, rfl⟩

theorem Reference.WrittenAs.ne_nil {r : Reference} {w : List Char} (h : r.WrittenAs w) : w ≠ [] := by
  cases h <;> exact List.cons_ne_nil _ _

/-- A text refers if a reference is written somewhere in it. -/
theorem refers_iff {s : String} :
    Refers s ↔ ∃ r w, Reference.WrittenAs r w ∧ w <:+: s.toList := by
  constructor
  · rintro ⟨before, after, hs, hread⟩
    obtain ⟨⟨r, rest⟩, hread⟩ := Option.isSome_iff_exists.1 hread
    obtain ⟨w, hw, rfl⟩ := Reference.read?_eq_some_iff.1 hread
    exact ⟨r, w, hw, before, rest, by rw [hs, List.append_assoc]⟩
  · rintro ⟨r, w, hw, before, rest, hs⟩
    exact ⟨before, w ++ rest, by rw [← hs, List.append_assoc], by rw [hw.read?]; rfl⟩

/-! ## Parts of a text -/

/-- A part of a text: a character, or a reference and how it is written. -/
inductive TextPart where
  | char (c : Char)
  | reference (r : Reference) (written : List Char)

/-- How a part of a text is written. -/
def TextPart.written : TextPart → List Char
  | .char c => [c]
  | .reference _ written => written

/-- The text is cut from left to right into references and the characters between them. -/
inductive CutInto : List Char → List TextPart → Prop
  | nil : CutInto [] []
  | char {c : Char} {rest : List Char} {ps : List TextPart}
    (hno : ∀ r w after, Reference.WrittenAs r w → c :: rest ≠ w ++ after) (hrest : CutInto rest ps) :
    CutInto (c :: rest) (.char c :: ps)
  | reference {r : Reference} {w rest : List Char} {ps : List TextPart} (hw : r.WrittenAs w)
    (hrest : CutInto rest ps) : CutInto (w ++ rest) (.reference r w :: ps)

namespace CutInto

variable {ps : List TextPart}

/-- Every text can be cut. -/
theorem exists_parts (s : List Char) : ∃ ps, CutInto s ps := by
  induction hn : s.length using Nat.strong_induction_on generalizing s with
  | _ n ih =>
    cases s with
    | nil => exact ⟨[], .nil⟩
    | cons c rest =>
      cases hread : Reference.read? (c :: rest) with
      | none =>
        obtain ⟨ps, hps⟩ := ih rest.length (by rw [← hn, List.length_cons]; omega) rest rfl
        exact ⟨_, .char (Reference.read?_eq_none_iff.1 hread) hps⟩
      | some found =>
        obtain ⟨w, hw, hs⟩ := Reference.read?_eq_some_iff.1 hread
        have hlength := List.length_pos_iff.2 hw.ne_nil
        rw [hs] at hn ⊢
        obtain ⟨ps, hps⟩ := ih found.2.length (by rw [← hn, List.length_append]; omega) found.2 rfl
        exact ⟨_, .reference hw hps⟩

/-- Nothing is lost in a cut. -/
theorem flatMap_written {s : List Char} (h : CutInto s ps) : ps.flatMap TextPart.written = s := by
  induction h with
  | nil => rfl
  | char _ _ ih => rw [List.flatMap_cons, ih]; rfl
  | reference _ _ ih => rw [List.flatMap_cons, ih]; rfl

/-- The references that are cut off are written in the text. -/
theorem writtenAs_of_mem {s w : List Char} {r : Reference} (h : CutInto s ps)
    (hmem : .reference r w ∈ ps) : r.WrittenAs w ∧ w <:+: s := by
  induction h with
  | nil => exact absurd hmem List.not_mem_nil
  | char _ _ ih =>
    obtain ⟨hw, hinfix⟩ := ih ((List.mem_cons.1 hmem).resolve_left nofun)
    exact ⟨hw, hinfix.trans (List.suffix_cons _ _).isInfix⟩
  | @reference r' w' rest ps hw' _ ih =>
    rcases List.mem_cons.1 hmem with heq | hmem
    · obtain ⟨rfl, rfl⟩ := TextPart.reference.inj heq
      exact ⟨hw', (List.prefix_append _ _).isInfix⟩
    · obtain ⟨hw, hinfix⟩ := ih hmem
      exact ⟨hw, hinfix.trans (List.suffix_append _ _).isInfix⟩

theorem nil_inv {s : List Char} (h : CutInto s ps) (hs : s = []) : ps = [] := by
  cases h with
  | nil => rfl
  | char => cases hs
  | reference hw => exact absurd (List.append_eq_nil_iff.1 hs).1 hw.ne_nil

/-- Where no reference begins, a character is cut off. -/
theorem char_inv {s rest : List Char} {c : Char} (h : CutInto s ps) (hs : s = c :: rest)
    (hno : ∀ r w after, Reference.WrittenAs r w → s ≠ w ++ after) :
    ∃ qs, ps = .char c :: qs ∧ CutInto rest qs := by
  cases h with
  | nil => cases hs
  | char _ hrest =>
    obtain ⟨rfl, rfl⟩ := List.cons.inj hs
    exact ⟨_, rfl, hrest⟩
  | reference hw => exact absurd rfl (hno _ _ _ hw)

/-- Where a reference begins, it is cut off whole. -/
theorem reference_inv {s w rest : List Char} {r : Reference} (h : CutInto s ps) (hw : r.WrittenAs w)
    (hs : s = w ++ rest) : ∃ qs, ps = .reference r w :: qs ∧ CutInto rest qs := by
  cases h with
  | nil => exact absurd (List.append_eq_nil_iff.1 hs.symm).1 hw.ne_nil
  | char hno _ => exact absurd hs (hno _ _ _ hw)
  | reference hw' hrest =>
    obtain ⟨rfl, rfl, rfl⟩ := hw'.unique hw hs
    exact ⟨_, rfl, hrest⟩

/-- **A text is cut in one way only.** -/
theorem unique {s : List Char} {qs : List TextPart} (h : CutInto s ps) (h' : CutInto s qs) :
    ps = qs := by
  induction h generalizing qs with
  | nil => exact (h'.nil_inv rfl).symm
  | char hno _ ih =>
    obtain ⟨qs, rfl, hrest⟩ := h'.char_inv rfl hno
    rw [ih hrest]
  | reference hw _ ih =>
    obtain ⟨qs, rfl, hrest⟩ := h'.reference_inv hw rfl
    rw [ih hrest]

end CutInto

/-! ## Filling in -/

/-- What a part of a text is replaced by: a reference by the value of its variable, else by the value
to fall back on, else by itself. -/
def TextPart.filled (env : Environment) : TextPart → List Char
  | .char c => [c]
  | .reference r written =>
    match env.get? r.name, r.default with
    | some v, _ => v.toList
    | none, some d => d.toList
    | none, none => written

/-- The text of parts that are replaced each on its own. -/
def filledText (env : Environment) (ps : List TextPart) : String :=
  String.ofList (ps.flatMap (TextPart.filled env))

section Filling

variable {env : Environment} {ps : List TextPart}

theorem filled_reference (env : Environment) (r : Reference) (w : List Char) :
    TextPart.filled env (.reference r w) = ((r.value? env).map String.toList).getD w := by
  rw [TextPart.filled, Reference.value?]
  cases env.get? r.name with
  | some v => rfl
  | none => cases r.default <;> rfl

theorem expandReferences_reference {r : Reference} {w : List Char} (hw : r.WrittenAs w)
    (rest : List Char) (fuel : Nat) : expandReferences env (fuel + 1) (w ++ rest) =
      TextPart.filled env (.reference r w) ++ expandReferences env fuel rest := by
  have hread := hw.read? rest
  have hlength : (w ++ rest).length - rest.length = w.length := by
    rw [List.length_append, Nat.add_sub_cancel]
  obtain ⟨c, w', rfl⟩ := List.exists_cons_of_ne_nil hw.ne_nil
  rw [List.cons_append] at hread hlength ⊢
  rw [expandReferences, hread]
  dsimp only
  rw [hlength, ← List.cons_append, List.take_left, filled_reference]
  cases r.value? env <;> rfl

/-- **References are replaced part by part**, and nothing that is filled in is read again. -/
theorem expandReferences_eq {s : List Char} (h : CutInto s ps) {fuel : Nat} (hfuel : s.length ≤ fuel) :
    expandReferences env fuel s = ps.flatMap (TextPart.filled env) := by
  induction h generalizing fuel with
  | nil => cases fuel <;> rfl
  | @char c rest ps hno _ ih =>
    obtain ⟨fuel, rfl⟩ := Nat.exists_eq_add_one.2 (Nat.lt_of_lt_of_le (Nat.succ_pos _) hfuel)
    rw [expandReferences, Reference.read?_eq_none_iff.2 hno]
    exact congrArg (c :: ·) (ih (Nat.le_of_succ_le_succ hfuel))
  | @reference r w rest ps hw _ ih =>
    have hlength := List.length_pos_iff.2 hw.ne_nil
    rw [List.length_append] at hfuel
    obtain ⟨fuel, rfl⟩ := Nat.exists_eq_add_one.2 (by omega : 0 < fuel)
    rw [expandReferences_reference hw, List.flatMap_cons, ih (by omega)]

/-- The text is one single reference. -/
theorem read?_eq_whole_iff {s : List Char} {r : Reference} (h : CutInto s ps) :
    Reference.read? s = some (r, []) ↔ ∃ w, ps = [.reference r w] := by
  constructor
  · intro hread
    obtain ⟨w, hw, hs⟩ := Reference.read?_eq_some_iff.1 hread
    obtain ⟨qs, rfl, hrest⟩ := h.reference_inv hw hs
    exact ⟨w, by rw [hrest.nil_inv rfl]⟩
  · rintro ⟨w, rfl⟩
    cases h with
    | reference hw hrest =>
      rw [← hrest.flatMap_written]
      exact hw.read? []

/-- A longer text is what its parts are filled with. -/
theorem substituteText_of_more {s : String} (h : CutInto s.toList ps)
    (hmore : ∀ r w, ps ≠ [.reference r w]) : substituteText env s = .str (filledText env ps) := by
  rw [substituteText]
  split
  · next r hread =>
    obtain ⟨w, hw⟩ := (read?_eq_whole_iff h).1 hread
    exact absurd hw (hmore r w)
  · rw [expandReferences_eq h (by rw [String.length_toList]; omega)]
    rfl

/-- A single reference is worth what it is filled with, if there is anything to fill in. -/
theorem substituteText_of_reference {s : String} {r : Reference} {w : List Char}
    (h : CutInto s.toList [.reference r w]) : substituteText env s =
      if (r.value? env).isSome then coerce (filledText env [.reference r w]) else .str s := by
  have hfilled : filledText env [.reference r w] =
      String.ofList (((r.value? env).map String.toList).getD w) := by
    rw [filledText, List.flatMap_singleton, filled_reference]
  rw [substituteText, (read?_eq_whole_iff h).2 ⟨w, rfl⟩, hfilled]
  dsimp only
  cases r.value? env with
  | some v => exact congrArg coerce String.ofList_toList.symm
  | none => rfl

theorem value?_isSome_iff {r : Reference} :
    (r.value? env).isSome = true ↔ env.get? r.name ≠ none ∨ r.default ≠ none := by
  rw [Reference.value?]
  cases env.get? r.name with
  | some v => simp
  | none => simp [Option.isSome_iff_ne_none]

end Filling

/-! ## Documents -/

/-- What a document becomes when its references are replaced. The document keeps its shape, its keys and
every scalar that is no text. In a text, each reference is replaced. If the text is one single reference
and there is a value for it, the outcome is worth what it is worth as a setting. -/
inductive Resolved (env : Environment) : Value → Value → Prop
  | text {s : String} {ps : List TextPart} (hcut : CutInto s.toList ps)
    (hmore : ∀ r w, ps ≠ [.reference r w]) : Resolved env (.str s) (.str (filledText env ps))
  | reference {s : String} {r : Reference} {w : List Char} (hcut : CutInto s.toList [.reference r w])
    (hvalue : env.get? r.name ≠ none ∨ r.default ≠ none) :
    Resolved env (.str s) (.scalar (coerce (filledText env [.reference r w])))
  | unresolved {s : String} {r : Reference} {w : List Char} (hcut : CutInto s.toList [.reference r w])
    (hname : env.get? r.name = none) (hdefault : r.default = none) : Resolved env (.str s) (.str s)
  | scalar {s : Scalar} (hs : ∀ t, s ≠ .str t) : Resolved env (.scalar s) (.scalar s)
  | list {items ws : List Value} (hlength : items.length = ws.length)
    (hitems : ∀ p ∈ items.zip ws, Resolved env p.1 p.2) : Resolved env (.list items) (.list ws)
  | map {es fs : Entries} (hlength : es.length = fs.length)
    (hkeys : ∀ p ∈ es.zip fs, p.1.1 = p.2.1) (hvalues : ∀ p ∈ es.zip fs, Resolved env p.1.2 p.2.2) :
    Resolved env (.map es) (.map fs)

section Documents

variable {env : Environment}

theorem resolved_text (env : Environment) (s : String) :
    Resolved env (.str s) (.scalar (substituteText env s)) := by
  obtain ⟨ps, hcut⟩ := CutInto.exists_parts s.toList
  by_cases hmore : ∀ r w, ps ≠ [.reference r w]
  · rw [substituteText_of_more hcut hmore]
    exact .text hcut hmore
  · push Not at hmore
    obtain ⟨r, w, rfl⟩ := hmore
    rw [substituteText_of_reference hcut]
    split
    · next hvalue => exact .reference hcut (value?_isSome_iff.1 hvalue)
    · next hvalue =>
      rw [value?_isSome_iff, not_or, not_not, not_not] at hvalue
      exact .unresolved hcut hvalue.1 hvalue.2

mutual

theorem resolved_substitute (env : Environment) : ∀ v, Resolved env v (substitute env v)
  | .scalar (.str s) => resolved_text env s
  | .scalar .null => .scalar fun _ h => by cases h
  | .scalar (.bool _) => .scalar fun _ h => by cases h
  | .scalar (.int _) => .scalar fun _ h => by cases h
  | .scalar (.float _) => .scalar fun _ h => by cases h
  | .scalar (.time _) => .scalar fun _ h => by cases h
  | .list items => by
    rw [substitute]
    exact .list (by rw [substituteItems_eq, List.length_map]) (resolved_substituteItems env items)
  | .map es => by
    rw [substitute]
    exact .map (by rw [substituteEntries_eq, List.length_map])
      (fun p hp => (resolved_substituteEntries env es p hp).1)
      fun p hp => (resolved_substituteEntries env es p hp).2

theorem resolved_substituteItems (env : Environment) : ∀ items : List Value,
    ∀ p ∈ items.zip (substituteItems env items), Resolved env p.1 p.2
  | [], _, hp => by cases hp
  | v :: rest, p, hp => by
    rw [substituteItems, List.zip_cons_cons, List.mem_cons] at hp
    rcases hp with rfl | hp
    · exact resolved_substitute env v
    · exact resolved_substituteItems env rest p hp

theorem resolved_substituteEntries (env : Environment) : ∀ es : Entries,
    ∀ p ∈ es.zip (substituteEntries env es), p.1.1 = p.2.1 ∧ Resolved env p.1.2 p.2.2
  | [], _, hp => by cases hp
  | (k, v) :: rest, p, hp => by
    rw [substituteEntries, List.zip_cons_cons, List.mem_cons] at hp
    rcases hp with rfl | hp
    · exact ⟨rfl, resolved_substitute env v⟩
    · exact resolved_substituteEntries env rest p hp

end

theorem map_eq_of_zip {α β : Type} {f : α → β} {xs : List α} {ys : List β}
    (hlength : xs.length = ys.length) (h : ∀ p ∈ xs.zip ys, f p.1 = p.2) : xs.map f = ys := by
  rw [← List.forall₂_eq_eq_eq, List.forall₂_map_left_iff, List.forall₂_iff_zip]
  exact ⟨hlength, fun hp => h _ hp⟩

theorem Resolved.substitute_eq {v w : Value} (h : Resolved env v w) : substitute env v = w := by
  induction h with
  | text hcut hmore => exact congrArg Value.scalar (substituteText_of_more hcut hmore)
  | @reference s r w hcut hvalue =>
    have hsome : (r.value? env).isSome = true := value?_isSome_iff.2 hvalue
    exact congrArg Value.scalar ((substituteText_of_reference hcut).trans (if_pos hsome))
  | @unresolved s r w hcut hname hdefault =>
    have hnone : ¬(r.value? env).isSome = true := by
      rw [value?_isSome_iff, hname, hdefault]
      simp
    exact congrArg Value.scalar ((substituteText_of_reference hcut).trans (if_neg hnone))
  | @scalar s hs =>
    cases s with
    | str t => exact absurd rfl (hs t)
    | null | bool | int | float | time => rfl
  | list hlength _ ih =>
    rw [substitute, substituteItems_eq, map_eq_of_zip hlength ih]
  | map hlength hkeys _ ih =>
    rw [substitute, substituteEntries_eq, map_eq_of_zip hlength fun p hp => ?_]
    rw [hkeys p hp, ih p hp]

end Documents

/-- **Replacing references does what `Resolved` says, and nothing else.** A text in which no reference
is written is left alone. -/
theorem substitute_eq_iff_resolved (env : Environment) :
    (∀ v w, substitute env v = w ↔ Resolved env v w) ∧
    ∀ s : String, (∀ r w, Reference.WrittenAs r w → ¬w <:+: s.toList) →
      substitute env (.str s) = .str s := by
  refine ⟨fun v w => ⟨?_, Resolved.substitute_eq⟩, fun s hno => ?_⟩
  · rintro rfl
    exact resolved_substitute env v
  · refine congrArg Value.scalar (substituteText_of_not_refers fun h => ?_)
    obtain ⟨r, w, hw, hs⟩ := refers_iff.1 h
    exact hno r w hw hs

/-- A value that looks like a reference is not looked up again, and an embedded one stays a text. -/
example : substitute [("A", "$\x7bB\x7d"), ("B", "true")]
    (.list [.str "$\x7bA\x7d", .str "$\x7bB\x7d",
      .str "$\x7bB\x7d$\x7bA\x7d$\x7bC:-1\x7d$\x7bC\x7d"]) =
    .list [.str "$\x7bB\x7d", .bool true, .str "true$\x7bB\x7d1$\x7bC\x7d"] := by
  decide +kernel

end DocTree
