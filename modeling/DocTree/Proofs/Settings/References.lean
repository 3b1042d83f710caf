import DocTree.Proofs.Value.Keys

/-!
# References in documents

A text in which no reference starts stands for itself, whatever the environment is
(`substituteText_of_not_refers`), and so does a document all of whose texts are like that
(`substitute_eq_self`). Replacing references keeps the keys of a document.
-/

namespace DocTree

/-- A reference starts somewhere in the text. -/
def Refers (s : String) : Prop :=
  ∃ before after, s.toList = before ++ after ∧ (Reference.read? after).isSome = true

/-- No text in the document refers to the environment; keys do not matter. -/
inductive Value.Literal : Value → Prop where
  | text {s : String} (h : ¬Refers s) : Literal (.str s)
  | scalar {s : Scalar} (h : ∀ t, s ≠ .str t) : Literal (.scalar s)
  | list {items : List Value} (hitems : ∀ v ∈ items, v.Literal) : Literal (.list items)
  | map {es : Entries} (hvalues : ∀ e ∈ es, e.2.Literal) : Literal (.map es)

/-- A reference starts with a dollar sign. -/
theorem not_refers_of_not_mem {s : String} (h : '$' ∉ s.toList) : ¬Refers s := by
  rintro ⟨before, after, hs, hread⟩
  unfold Reference.read? at hread
  split at hread
  · exact h (hs ▸ List.mem_append_right _ List.mem_cons_self)
  · cases hread

/-! ## Replacing -/

section Replacing

variable {env : Environment}

theorem expandReferences_eq_self {s : List Char}
    (h : ∀ before after, s = before ++ after → Reference.read? after = none) (fuel : Nat) :
    expandReferences env fuel s = s := by
  induction fuel generalizing s with
  | zero => rfl
  | succ fuel ih =>
    cases s with
    | nil => rfl
    | cons c rest =>
      have hrest : ∀ before after, rest = before ++ after → Reference.read? after = none := by
        rintro before after rfl
        exact h (c :: before) after rfl
      rw [expandReferences, h [] (c :: rest) rfl]
      exact congrArg (c :: ·) (ih hrest)

/-- **A text without a reference stands for itself.** -/
theorem substituteText_of_not_refers {s : String} (h : ¬Refers s) :
    substituteText env s = .str s := by
  have hnone : ∀ before after, s.toList = before ++ after → Reference.read? after = none := by
    intro before after hs
    by_contra hread
    exact h ⟨before, after, hs, Option.isSome_iff_ne_none.2 hread⟩
  rw [substituteText, hnone [] s.toList rfl]
  exact congrArg Scalar.str ((congrArg String.ofList (expandReferences_eq_self hnone _)).trans
    String.ofList_toList)

theorem substituteItems_eq (env : Environment) (items : List Value) :
    substituteItems env items = items.map (substitute env) := by
  induction items with
  | nil => rfl
  | cons v rest ih => rw [substituteItems, ih, List.map_cons]

theorem substituteEntries_eq (env : Environment) (es : List (Scalar × Value)) :
    substituteEntries env es = es.map fun e => (e.1, substitute env e.2) := by
  induction es with
  | nil => rfl
  | cons e rest ih => rw [substituteEntries, ih, List.map_cons]

/-- **A document without references stands for itself.** -/
theorem substitute_eq_self {v : Value} (h : v.Literal) : substitute env v = v := by
  induction h with
  | text h => exact congrArg Value.scalar (substituteText_of_not_refers h)
  | @scalar s h =>
    cases s with
    | str t => exact absurd rfl (h t)
    | null | bool | int | float | time => rfl
  | list _ ih =>
    rw [substitute, substituteItems_eq, List.map_congr_left ih, List.map_id']
  | map _ ih =>
    rw [substitute, substituteEntries_eq]
    refine congrArg Value.map ((List.map_congr_left fun e he => ?_).trans (List.map_id' _))
    rw [ih e he]

/-- Replacing references keeps keys apart. -/
theorem Value.Distinct.substitute {v : Value} (h : v.Distinct) (env : Environment) :
    (DocTree.substitute env v).Distinct := by
  induction h with
  | scalar s =>
    cases s with
    | str t => exact .scalar _
    | null | bool | int | float | time => exact .scalar _
  | list _ ih =>
    rw [DocTree.substitute, substituteItems_eq]
    exact .list (List.forall_mem_map.2 ih)
  | map hkeys _ ih =>
    rw [DocTree.substitute, substituteEntries_eq]
    refine .map ?_ (List.forall_mem_map.2 ih)
    rwa [List.map_map]

end Replacing

end DocTree
