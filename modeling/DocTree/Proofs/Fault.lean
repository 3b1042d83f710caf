import Mathlib.Data.List.Forall2

/-!
# Values and faults

An outcome is a value or a fault. Steps in sequence give a value if each of them does
(`bind_eq_ok_iff`, `mapM_eq_ok_iff`), and otherwise the fault of the first that has one (`fault?_bind`,
`fault?_mapM`).
-/

namespace DocTree

variable {ε α β : Type}

/-! ## Values -/

theorem bind_eq_ok_iff {x : Except ε α} {f : α → Except ε β} {b : β} :
    (x >>= f) = .ok b ↔ ∃ a, x = .ok a ∧ f a = .ok b := by
  cases x <;> simp [bind, Except.bind]

/-- Steps over a list give a value if each of them does, with the values in order. -/
theorem mapM_eq_ok_iff {f : α → Except ε β} {l : List α} {bs : List β} :
    l.mapM f = .ok bs ↔ List.Forall₂ (fun a b => f a = .ok b) l bs := by
  induction l generalizing bs with
  | nil =>
    rw [List.mapM_nil, List.forall₂_nil_left_iff]
    show Except.ok [] = Except.ok bs ↔ _
    rw [Except.ok.injEq, eq_comm]
  | cons a l ih =>
    rw [List.mapM_cons, List.forall₂_cons_left_iff, bind_eq_ok_iff]
    simp only [bind_eq_ok_iff, ih]
    constructor
    · rintro ⟨b, hb, bs, hbs, hcons⟩
      exact ⟨b, bs, hb, hbs, (Except.ok.inj hcons).symm⟩
    · rintro ⟨b, bs, hb, hbs, rfl⟩
      exact ⟨b, hb, bs, hbs, rfl⟩

/-- What holds of all values that steps can give holds of the values of steps over a list. -/
theorem forall_mem_of_forall₂ {R : α → β → Prop} {q : β → Prop} (h : ∀ a b, R a b → q b) {l : List α}
    {bs : List β} (hR : List.Forall₂ R l bs) : ∀ b ∈ bs, q b := by
  induction hR with
  | nil => exact fun b hb => absurd hb List.not_mem_nil
  | cons hab _ ih => exact List.forall_mem_cons.2 ⟨h _ _ hab, ih⟩

/-- An outcome is a fault if it is no value. -/
theorem exists_eq_error_iff {x : Except ε α} : (∃ e, x = .error e) ↔ ¬∃ a, x = .ok a := by
  cases x <;> simp

/-! ## Faults -/

/-- The fault of an outcome, if it has one. -/
def fault? : Except ε α → Option ε
  | .ok _ => none
  | .error e => some e

theorem fault?_eq_some_iff {x : Except ε α} {e : ε} : fault? x = some e ↔ x = .error e := by
  cases x <;> simp [fault?]

theorem fault?_eq_none_iff {x : Except ε α} : fault? x = none ↔ ∃ a, x = .ok a := by
  cases x <;> simp [fault?]

/-- A step whose result does not decide about what follows faults first. -/
theorem fault?_bind {x : Except ε α} {f : α → Except ε β} {later : Option ε}
    (h : ∀ a, fault? (f a) = later) : fault? (x >>= f) = (fault? x).or later := by
  cases x with
  | ok a => exact h a
  | error e => rfl

theorem fault?_bind_pure (x : Except ε α) (g : α → β) :
    fault? (x >>= fun a => pure (g a)) = fault? x := by
  cases x <;> rfl

/-- Steps over a list fault where the first of them does. -/
theorem fault?_mapM (f : α → Except ε β) (l : List α) :
    fault? (l.mapM f) = l.findSome? fun a => fault? (f a) := by
  induction l with
  | nil => rfl
  | cons a l ih =>
    have hrest : ∀ b, fault? (l.mapM f >>= fun bs => pure (b :: bs)) =
        l.findSome? fun a => fault? (f a) := by
      intro b
      rw [fault?_bind_pure, ih]
    rw [List.mapM_cons, fault?_bind hrest, List.findSome?_cons]
    cases fault? (f a) <;> rfl

/-- Steps over a list give values if each of them gives one. -/
theorem exists_mapM_eq_ok_iff {f : α → Except ε β} {l : List α} :
    (∃ bs, l.mapM f = .ok bs) ↔ ∀ a ∈ l, ∃ b, f a = .ok b := by
  rw [← fault?_eq_none_iff, fault?_mapM, List.findSome?_eq_none_iff]
  simp only [fault?_eq_none_iff]

end DocTree
