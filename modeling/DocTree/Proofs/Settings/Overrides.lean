import DocTree.Proofs.Value.Keys

/-!
# Overridden settings

A setting stands in a document below a path of names (`Value.at?`), which is a path of keys
(`Value.lookup`). Putting a value below a path is seen there and nowhere apart from it
(`at?_putBelow_self`, `lookup_putBelow_of_apart`). So an environment acts on each setting by itself:
either it leaves the setting as it is in every document, or it makes it the same scalar in every document
(`at?_applyOverrides`).
-/

namespace DocTree

/-- What stands below a path of names in a document. -/
def Value.at? : List String → Value → Option Value
  | [], v => some v
  | name :: more, .map es => (Entries.get? name es).bind (at? more)
  | _ :: _, _ => none

/-- What stands below a path of keys in a document. -/
def Value.lookup : List Scalar → Value → Option Value
  | [], v => some v
  | key :: more, .map es => (Entries.find? key es).bind (lookup more)
  | _ :: _, _ => none

/-- Names as keys. -/
def keysOf (path : List String) : List Scalar := path.map .str

/-- Neither path leads through the end of the other. -/
def Apart {α : Type} (p q : List α) : Prop := ¬p <+: q ∧ ¬q <+: p

instance {α : Type} [DecidableEq α] (p q : List α) : Decidable (Apart p q) :=
  inferInstanceAs (Decidable (_ ∧ _))

theorem Apart.symm {α : Type} {p q : List α} (h : Apart p q) : Apart q p := ⟨h.2, h.1⟩

theorem apart_cons {α : Type} {a : α} {p q : List α} : Apart (a :: p) (a :: q) ↔ Apart p q := by
  simp only [Apart, List.cons_prefix_cons, true_and]

/-- The entries of the mapping under a name; there are none where there is no mapping. -/
def sectionOf (name : String) (es : Entries) : Entries :=
  match es.get? name with
  | some (.map inner) => inner
  | _ => []

/-- Under the name there is a mapping, or nothing. -/
def IsSection (name : String) (es : Entries) : Prop :=
  es.get? name = none ∨ ∃ inner, es.get? name = some (.map inner)

section Paths

variable {value v : Value} {path other : List String} {name : String} {es : Entries}

theorem at?_cons (name : String) (more : List String) (es : Entries) :
    (Value.map es).at? (name :: more) = (es.get? name).bind (Value.at? more) := rfl

theorem at?_singleton (name : String) (es : Entries) : (Value.map es).at? [name] = es.get? name := by
  rw [at?_cons]
  cases es.get? name <;> rfl

/-- Below a name, a document has what its section of that name has. -/
theorem at?_sectionOf (name : String) {more : List String} (h : more ≠ []) (es : Entries) :
    (Value.map (sectionOf name es)).at? more = (Value.map es).at? (name :: more) := by
  obtain ⟨next, more, rfl⟩ := List.exists_cons_of_ne_nil h
  rw [sectionOf, at?_cons name]
  cases es.get? name with
  | none => rfl
  | some v => cases v <;> rfl

theorem get?_sectionOf (name inside : String) (es : Entries) :
    (sectionOf name es).get? inside = (Value.map es).at? [name, inside] := by
  rw [← at?_singleton, at?_sectionOf name (List.cons_ne_nil _ _)]

/-! ## Paths of keys -/

section Keys

variable {keys : List Scalar} {key : Scalar}

theorem lookup_cons (key : Scalar) (more : List Scalar) (es : Entries) :
    (Value.map es).lookup (key :: more) = (es.find? key).bind (Value.lookup more) := rfl

theorem lookup_singleton (key : Scalar) (es : Entries) : (Value.map es).lookup [key] = es.find? key := by
  rw [lookup_cons]
  cases es.find? key <;> rfl

/-- A path of names is a path of keys. -/
theorem lookup_keysOf (path : List String) (v : Value) : v.lookup (keysOf path) = v.at? path := by
  induction path generalizing v with
  | nil => rfl
  | cons name more ih =>
    cases v with
    | map es => exact congrArg (Entries.get? name es).bind (funext ih)
    | scalar s => rfl
    | list items => rfl

theorem lookup_append (p q : List Scalar) (v : Value) :
    v.lookup (p ++ q) = (v.lookup p).bind (Value.lookup q) := by
  induction p generalizing v with
  | nil => rfl
  | cons key p ih =>
    cases v with
    | map es =>
      rw [List.cons_append, lookup_cons, lookup_cons, Option.bind_assoc]
      exact congrArg (Entries.find? key es).bind (funext ih)
    | scalar s => rfl
    | list items => rfl

theorem lookup_sectionOf (name : String) (h : keys ≠ []) (es : Entries) :
    (Value.map (sectionOf name es)).lookup keys = (Value.map es).lookup (.str name :: keys) := by
  obtain ⟨key, more, rfl⟩ := List.exists_cons_of_ne_nil h
  show _ = (es.get? name).bind (Value.lookup (key :: more))
  rw [sectionOf]
  cases es.get? name with
  | none => rfl
  | some v => cases v <;> rfl

theorem lookup_put (name : String) (value : Value) (es : Entries) (key : Scalar) (more : List Scalar) :
    (Value.map (es.put name value)).lookup (key :: more) =
      if key = .str name then value.lookup more else (Value.map es).lookup (key :: more) := by
  rw [lookup_cons, lookup_cons, Entries.put, Entries.find?_insert]
  split <;> rfl

end Keys

/-! ## Putting -/

theorem putBelow_cons (value : Value) (name next : String) (more : List String) (es : Entries) :
    putBelow value (name :: next :: more) es =
      es.put name (.map (putBelow value (next :: more) (sectionOf name es))) := rfl

/-- What is put below a path is found there. -/
theorem at?_putBelow_self (value : Value) (h : path ≠ []) (es : Entries) :
    (Value.map (putBelow value path es)).at? path = some value := by
  induction path generalizing es with
  | nil => exact absurd rfl h
  | cons name more ih =>
    cases more with
    | nil => rw [putBelow, at?_singleton, Entries.get?_put]
    | cons next more =>
      rw [putBelow_cons, at?_cons, Entries.get?_put]
      exact ih (List.cons_ne_nil _ _) _

/-- What is put below a path is not seen below the keys that are apart from it. -/
theorem lookup_putBelow_of_apart (value : Value) {keys : List Scalar} (h : Apart (keysOf path) keys)
    (es : Entries) : (Value.map (putBelow value path es)).lookup keys = (Value.map es).lookup keys := by
  induction path generalizing keys es with
  | nil => exact absurd List.nil_prefix h.1
  | cons name more ih =>
    cases keys with
    | nil => exact absurd List.nil_prefix h.2
    | cons key keys =>
      by_cases hkey : key = .str name
      · subst hkey
        have hrest : Apart (keysOf more) keys := apart_cons.1 h
        cases more with
        | nil => exact absurd List.nil_prefix hrest.1
        | cons next more =>
          have hne : keys ≠ [] := by
            rintro rfl
            exact hrest.2 List.nil_prefix
          rw [putBelow_cons, lookup_put, if_pos rfl, ← lookup_sectionOf name hne]
          exact ih hrest _
      · cases more with
        | nil => rw [putBelow, lookup_put, if_neg hkey]
        | cons next more => rw [putBelow_cons, lookup_put, if_neg hkey]

theorem apart_keysOf {p q : List String} : Apart (keysOf p) (keysOf q) ↔ Apart p q := by
  have hprefix : ∀ p q : List String, keysOf p <+: keysOf q ↔ p <+: q := fun _ _ =>
    List.prefix_map_iff_of_injective fun _ _ => Scalar.str.inj
  rw [Apart, Apart, hprefix, hprefix]

/-- What is put below a path is not seen apart from it. -/
theorem at?_putBelow_of_apart (value : Value) (h : Apart path other) (es : Entries) :
    (Value.map (putBelow value path es)).at? other = (Value.map es).at? other := by
  rw [← lookup_keysOf, ← lookup_keysOf]
  exact lookup_putBelow_of_apart value (apart_keysOf.2 h) es

theorem distinct_sectionOf (h : (Value.map es).Distinct) (name : String) :
    (Value.map (sectionOf name es)).Distinct := by
  rw [sectionOf]
  split
  · next inner hinner => exact h.of_find? hinner
  · exact Value.distinct_nil

/-- Putting a value keeps keys apart. -/
theorem distinct_putBelow (hv : value.Distinct) (h : (Value.map es).Distinct) (path : List String) :
    (Value.map (putBelow value path es)).Distinct := by
  induction path generalizing es with
  | nil => exact h
  | cons name more ih =>
    cases more with
    | nil => exact h.insert hv _
    | cons next more =>
      rw [putBelow_cons]
      exact h.insert (ih (distinct_sectionOf h name)) _

/-! ## What is absent -/

/-- Below a path, a document without its absent values has what it had before, unless that is
absent. -/
theorem at?_dropNulls (h : (Value.map es).Distinct) (hpath : path ≠ []) :
    (Value.map (dropNullsEntries es)).at? path =
      (((Value.map es).at? path).filter fun v => !v.isNull).map dropNulls := by
  induction path generalizing es with
  | nil => exact absurd rfl hpath
  | cons name more ih =>
    have hfind : Entries.get? name (dropNullsEntries es) =
        ((es.get? name).filter fun v => !v.isNull).map dropNulls := Value.find?_dropNulls h _
    rw [at?_cons, at?_cons, hfind]
    cases hget : es.get? name with
    | none => rfl
    | some w =>
      cases more with
      | nil =>
        rw [Option.filter_some, Option.bind_some, Value.at?, Option.filter_some]
        split <;> rfl
      | cons next more =>
        cases w with
        | map inner => exact ih (h.of_find? hget) (List.cons_ne_nil _ _)
        | list items => rfl
        | scalar s => cases s <;> rfl

theorem IsSection.dropNulls (h : IsSection name es) (hkeys : (Value.map es).Distinct) :
    IsSection name (dropNullsEntries es) := by
  have hfind : Entries.get? name (dropNullsEntries es) =
      ((es.get? name).filter fun v => !v.isNull).map DocTree.dropNulls := Value.find?_dropNulls hkeys _
  rw [IsSection, hfind]
  rcases h with h | ⟨inner, h⟩
  · exact .inl (by rw [h]; rfl)
  · exact .inr ⟨_, by rw [h]; rfl⟩

end Paths

/-! ## Overriding -/

section Overriding

variable (env : Environment) {path : List String}

/-- One variable of the environment at work. -/
def override (es : Entries) (o : String × List String) : Entries :=
  match env.get? o.1 with
  | some v => putBelow (.scalar (coerce v)) o.2 es
  | none => es

/-- What variables do below a path does not depend on the document. -/
theorem at?_foldl_override (hne : path ≠ []) (os : List (String × List String))
    (h : ∀ o ∈ os, o.2 = path ∨ Apart o.2 path) :
    (∀ es, (Value.map (os.foldl (override env) es)).at? path = (Value.map es).at? path) ∨
      ∃ s : Scalar, ∀ es, (Value.map (os.foldl (override env) es)).at? path = some (.scalar s) := by
  induction os with
  | nil => exact .inl fun _ => rfl
  | cons o os ih =>
    obtain ⟨ho, hos⟩ := List.forall_mem_cons.1 h
    rcases ih hos with hkeep | ⟨s, hset⟩
    · -- the later variables leave the path alone, so the first one decides
      cases hv : env.get? o.1 with
      | none =>
        refine .inl fun es => ?_
        rw [List.foldl_cons, hkeep, override, hv]
      | some v =>
        rcases ho with rfl | hapart
        · refine .inr ⟨coerce v, fun es => ?_⟩
          rw [List.foldl_cons, hkeep, override, hv]
          exact at?_putBelow_self _ hne es
        · refine .inl fun es => ?_
          rw [List.foldl_cons, hkeep, override, hv]
          exact at?_putBelow_of_apart _ hapart es
    · exact .inr ⟨s, fun es => by rw [List.foldl_cons, hset]⟩

/-- **An environment overrides a setting in all documents or in none**, and in all of them with the
same scalar. -/
theorem at?_applyOverrides (hne : path ≠ [])
    (h : ∀ o ∈ overrides, o.2 = path ∨ Apart o.2 path) :
    (∀ es, (Value.map (applyOverrides env es)).at? path = (Value.map es).at? path) ∨
      ∃ s : Scalar, ∀ es, (Value.map (applyOverrides env es)).at? path = some (.scalar s) :=
  at?_foldl_override env hne overrides h

/-- What holds of entries and is kept by putting a scalar below the path of each variable holds after
the variables have been at work. -/
theorem foldl_override_induction (P : Entries → Prop) {os : List (String × List String)} {es : Entries}
    (start : P es) (put : ∀ o ∈ os, ∀ (s : Scalar) es, P es → P (putBelow (.scalar s) o.2 es)) :
    P (os.foldl (override env) es) := by
  refine List.foldlRecOn os (override env) start fun es hes o ho => ?_
  rw [override]
  split
  · exact put o ho _ es hes
  · exact hes

theorem applyOverrides_induction (P : Entries → Prop) {es : Entries} (start : P es)
    (put : ∀ o ∈ overrides, ∀ (s : Scalar) es, P es → P (putBelow (.scalar s) o.2 es)) :
    P (applyOverrides env es) :=
  foldl_override_induction env P start put

theorem distinct_foldl_override {es : Entries} (h : (Value.map es).Distinct)
    (os : List (String × List String)) : (Value.map (os.foldl (override env) es)).Distinct :=
  foldl_override_induction env (fun es => (Value.map es).Distinct) h fun o _ s _ hes =>
    distinct_putBelow (.scalar s) hes o.2

theorem distinct_applyOverrides {es : Entries} (h : (Value.map es).Distinct) :
    (Value.map (applyOverrides env es)).Distinct :=
  distinct_foldl_override env h overrides

/-- Where there is a mapping or nothing under a name, there is one or nothing after overriding, unless a
variable overrides the name itself. -/
theorem IsSection.applyOverrides {name : String} {es : Entries}
    (hname : ∀ o ∈ overrides, o.2 ≠ [name]) (h : IsSection name es) :
    IsSection name (DocTree.applyOverrides env es) := by
  refine applyOverrides_induction env (IsSection name) h fun o ho s es hes => ?_
  have hne := hname o ho
  cases hpath : o.2 with
  | nil => exact hes
  | cons first more =>
    rw [hpath] at hne
    cases more with
    | nil =>
      have hfirst : name ≠ first := fun heq => hne (heq ▸ rfl)
      rwa [putBelow, IsSection, Entries.get?_put_of_ne hfirst]
    | cons next more =>
      rw [putBelow_cons]
      by_cases hfirst : name = first
      · subst hfirst
        exact .inr ⟨_, Entries.get?_put _ _ _⟩
      · rwa [IsSection, Entries.get?_put_of_ne hfirst]

end Overriding

end DocTree
