import DocTree.Proofs.Settings.Loading
import DocTree.Proofs.Settings.Substitution
import DocTree.Proofs.Value.Bindings

/-!
# Variables that nothing refers to

A loader looks variables up by their names. So two environments that differ in one variable only
(`SameVariables`) give the same to everything that does not refer to this variable: to a document
(`substitute_congr`), and to the lines of an environment file (`EnvFile.assignments_congr`). A variable of
the process is then still the only difference when the environment file has been read
(`Loader.surroundings_setVariable`).
-/

namespace DocTree

/-- The environments differ in the named variable at most. -/
def SameVariables (name : String) (env env' : Environment) : Prop :=
  ∀ n, n ≠ name → env'.get? n = env.get? n

theorem sameVariables_set (name value : String) (env : Environment) :
    SameVariables name env (env.set name value) := fun n hn => by
  rw [Bindings.get?_set, if_neg hn]

/-! ## Documents -/

/-- No text of the document refers to the variable; keys do not matter. -/
inductive Value.IndependentOf (name : String) : Value → Prop where
  | text {s : String} {ps : List TextPart} (hcut : CutInto s.toList ps)
    (h : ∀ r w, .reference r w ∈ ps → r.name ≠ name) : IndependentOf name (.str s)
  | scalar {s : Scalar} (h : ∀ t, s ≠ .str t) : IndependentOf name (.scalar s)
  | list {items : List Value} (hitems : ∀ v ∈ items, v.IndependentOf name) :
    IndependentOf name (.list items)
  | map {es : Entries} (hvalues : ∀ e ∈ es, e.2.IndependentOf name) : IndependentOf name (.map es)

section Documents

variable {name : String} {env env' : Environment}

theorem independentOf_of_not_refers {s : String} (h : ¬Refers s) : (Value.str s).IndependentOf name := by
  obtain ⟨ps, hcut⟩ := CutInto.exists_parts s.toList
  exact .text hcut fun r w hmem => absurd (refers_iff.2 ⟨r, w, hcut.writtenAs_of_mem hmem⟩) h

theorem independentOf_of_read? {s : String} {r : Reference} (h : Reference.read? s.toList = some (r, []))
    (hr : r.name ≠ name) : (Value.str s).IndependentOf name := by
  have hcut := CutInto.reference (Reference.writtenAs_of_read? h) .nil
  rw [List.append_nil] at hcut
  refine .text hcut fun r' w hmem => ?_
  obtain ⟨rfl, -⟩ := TextPart.reference.inj (List.mem_singleton.1 hmem)
  exact hr

theorem filledText_congr (h : SameVariables name env env') {ps : List TextPart}
    (hps : ∀ r w, .reference r w ∈ ps → r.name ≠ name) : filledText env' ps = filledText env ps := by
  have hpart : ∀ p ∈ ps, TextPart.filled env' p = TextPart.filled env p := by
    intro p hp
    cases p with
    | char c => rfl
    | reference r w => rw [TextPart.filled, TextPart.filled, h r.name (hps r w hp)]
  rw [filledText, filledText, List.flatMap_def, List.flatMap_def, List.map_congr_left hpart]

theorem substituteText_congr (h : SameVariables name env env') {s : String} {ps : List TextPart}
    (hcut : CutInto s.toList ps) (hps : ∀ r w, .reference r w ∈ ps → r.name ≠ name) :
    substituteText env' s = substituteText env s := by
  by_cases hmore : ∀ r w, ps ≠ [.reference r w]
  · rw [substituteText_of_more hcut hmore, substituteText_of_more hcut hmore, filledText_congr h hps]
  · push Not at hmore
    obtain ⟨r, w, rfl⟩ := hmore
    have hvalue : r.value? env' = r.value? env := by
      rw [Reference.value?, Reference.value?, h r.name (hps r w List.mem_cons_self)]
    rw [substituteText_of_reference hcut, substituteText_of_reference hcut, filledText_congr h hps, hvalue]

/-- **A document that does not refer to a variable does not depend on it.** -/
theorem substitute_congr (h : SameVariables name env env') {v : Value} (hv : v.IndependentOf name) :
    substitute env' v = substitute env v := by
  induction hv with
  | text hcut hps => exact congrArg Value.scalar (substituteText_congr h hcut hps)
  | @scalar s hs =>
    cases s with
    | str t => exact absurd rfl (hs t)
    | null | bool | int | float | time => rfl
  | list _ ih => rw [substitute, substitute, substituteItems_eq, substituteItems_eq, List.map_congr_left ih]
  | map _ ih =>
    rw [substitute, substitute, substituteEntries_eq, substituteEntries_eq]
    refine congrArg Value.map (List.map_congr_left fun e he => ?_)
    rw [ih e he]

end Documents

/-! ## Environment files -/

namespace EnvFile

/-- The names that a text refers to where its references are replaced. -/
def referredNames : Nat → List Char → List String
  | 0, _ => []
  | _, [] => []
  | fuel + 1, c :: rest =>
    match c, rest with
    | '$', '{' :: inner =>
      match reference? inner with
      | some (name, _, after) => name :: referredNames fuel after
      | none => referredNames fuel rest
    | _, _ => referredNames fuel rest

/-- The names that the value of a line refers to. -/
def Line.referredNames (l : Line) : List String :=
  match l.2 with
  | some v => EnvFile.referredNames (v.length + 1) v.toList
  | none => []

variable {name : String} {env env' : Environment}

theorem interpolate_congr {value value' : String → Option String → String} {fuel : Nat} {s : List Char}
    (h : ∀ n ∈ referredNames fuel s, ∀ d, value' n d = value n d) :
    interpolate value' fuel s = interpolate value fuel s := by
  fun_induction referredNames fuel s with
  | case1 s => rfl
  | case2 fuel hfuel => cases fuel <;> rfl
  | case3 fuel inner found default after hread ih =>
    obtain ⟨hfound, hafter⟩ := List.forall_mem_cons.1 h
    rw [interpolate, interpolate, hread]
    dsimp only
    rw [hfound default, ih hafter]
  | case4 fuel inner hread ih =>
    rw [interpolate, interpolate, hread, ih h]
  | case5 fuel c rest hno ih =>
    rw [interpolate, interpolate, ih h]
    all_goals exact hno

/-- **Lines that do not refer to a variable do not depend on it.** -/
theorem assignments_congr (h : SameVariables name env env') {ls : List Line}
    (hls : ∀ l ∈ ls, name ∉ Line.referredNames l) : assignments env' ls = assignments env ls := by
  refine List.foldl_ext _ _ [] fun above l hl => congrArg (Bindings.set l.1 · above) ?_
  have hfree := hls l hl
  rw [Line.referredNames] at hfree
  cases hvalue : l.2 with
  | none => rfl
  | some v =>
    rw [hvalue] at hfree
    refine congrArg some (congrArg String.ofList (interpolate_congr fun n hn default => ?_))
    have hname : n ≠ name := fun heq => hfree (heq ▸ hn)
    rw [resolve, resolve, h n hname]

/-- A variable of an environment file goes to an environment that does not have it. -/
def add (acc : Environment) (v : String × Option String) : Environment :=
  match v.2, acc.get? v.1 with
  | some value, none => acc.set v.1 value
  | _, _ => acc

theorem extend_eq (env : Environment) (text : List Char) :
    extend env text = (assignments env (lines text)).foldl add env := rfl

theorem get?_add (n : String) (acc : Environment) (v : String × Option String) :
    (add acc v).get? n = if n = v.1 then (acc.get? n).or v.2 else acc.get? n := by
  rw [add]
  split
  · next value hvalue hnone =>
    rw [Bindings.get?_set]
    split
    · next hn => rw [hn, hnone, hvalue, Option.none_or]
    · rfl
  · next hno =>
    split
    · next hn =>
      cases hget : acc.get? v.1 with
      | some w => rw [hn, hget, Option.some_or]
      | none =>
        cases hv : v.2 with
        | some value => exact absurd hget (hno value hv)
        | none => rw [hn, hget, Option.or_none]
    · rfl

/-- **An environment file leaves a variable alone that is set**, and gives the others the same values if
it does not refer to that one. -/
theorem extend_set (h : SameVariables name env env') {value : String} (hset : env'.get? name = some value)
    {text : List Char} (hls : ∀ l ∈ lines text, name ∉ Line.referredNames l) :
    SameVariables name (extend env text) (extend env' text) ∧
      (extend env' text).get? name = some value := by
  rw [extend_eq, extend_eq, assignments_congr h hls]
  refine List.foldl_rel (r := fun acc acc' => SameVariables name acc acc' ∧ acc'.get? name = some value)
    ⟨h, hset⟩ fun v _ acc acc' hacc => ⟨fun n hn => ?_, ?_⟩
  · rw [get?_add, get?_add, hacc.1 n hn]
  · rw [get?_add, hacc.2, Option.some_or, ite_self]

end EnvFile

/-! ## Loading -/

/-- A workspace with a variable of the process set. -/
def Workspace.setVariable (name value : String) (w : Workspace) : Workspace :=
  { w with env := w.env.set name value }

/-- The environment file that the loader is to read does not refer to the variable. -/
def Loader.EnvFileIndependentOf (l : Loader) (w : Workspace) (name : String) : Prop :=
  w.envFileRead = false → ∀ text, w.folder.read l.envFile = .ok text →
    ∀ line ∈ EnvFile.lines (Text.unifyBreaks text.toList), name ∉ EnvFile.Line.referredNames line

/-- **A variable of the process stays the only difference** when the environment file has been read. -/
theorem Loader.surroundings_setVariable {l : Loader} {w : Workspace} {name : String}
    (h : l.EnvFileIndependentOf w name) (value : String) :
    SameVariables name (l.surroundings w).env (l.surroundings (w.setVariable name value)).env ∧
      (l.surroundings (w.setVariable name value)).env.get? name = some value := by
  have hsame := sameVariables_set name value w.env
  have hset : (w.env.set name value).get? name = some value := by rw [Bindings.get?_set, if_pos rfl]
  cases hread : w.envFileRead with
  | true =>
    have hagain : (w.setVariable name value).envFileRead = true := hread
    rw [surroundings, surroundings, Workspace.readEnvFile_of_read hread,
      Workspace.readEnvFile_of_read hagain]
    exact ⟨hsame, hset⟩
  | false =>
    have hfree := h hread
    rw [surroundings, surroundings, Workspace.readEnvFile, Workspace.readEnvFile, Workspace.setVariable,
      hread]
    dsimp only
    cases w.folder.isFile l.envFile with
    | false => exact ⟨hsame, hset⟩
    | true =>
      cases hfile : w.folder.read l.envFile with
      | error e => exact ⟨hsame, hset⟩
      | ok text => exact EnvFile.extend_set hsame hset (hfree text hfile)

end DocTree
