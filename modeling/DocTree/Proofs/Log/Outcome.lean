import DocTree.Log.Basic
import Mathlib.Data.List.Forall2

/-!
# Outcomes of computations that keep a log

The outcome of a computation does not depend on what it writes: `Traced.outcome` takes each way of
building a computation to the same way of building an outcome, a run over a list included
(`outcome_mapM_eq_ok_iff`).
-/

namespace DocTree

variable {ε ε' α β γ : Type}

namespace Logged

theorem id_map (x : Logged α) : id <$> x = x := by
  show (⟨x.value, x.log ++ []⟩ : Logged α) = x
  rw [List.append_nil]

theorem bind_assoc (x : Logged α) (f : α → Logged β) (g : β → Logged γ) :
    x >>= f >>= g = x >>= fun a => f a >>= g := by
  show (⟨_, (x.log ++ _) ++ _⟩ : Logged γ) = ⟨_, x.log ++ (_ ++ _)⟩
  rw [List.append_assoc]
  rfl

instance : LawfulMonad Logged := .mk' _ id_map (fun _ _ => rfl) bind_assoc

end Logged

namespace Traced

@[simp] theorem outcome_pure (a : α) : (pure a : Traced ε α).outcome = .ok a := rfl

@[simp] theorem outcome_ofExcept (x : Except ε α) : (ofExcept x).outcome = x := rfl

@[simp] theorem outcome_write (level : LogLevel) (source message : String) :
    (write level source message : Traced ε Unit).outcome = .ok () := rfl

theorem outcome_bind (x : Traced ε α) (f : α → Traced ε β) :
    (x >>= f).outcome = x.outcome >>= fun a => (f a).outcome := by
  show (ExceptT.run x >>= ExceptT.bindCont f).value = (ExceptT.run x).value >>= _
  rw [Logged.value_bind]
  cases (ExceptT.run x).value <;> rfl

/-- A first step that succeeds leaves the outcome to the second. -/
theorem outcome_bind_of_ok {x : Traced ε α} {a : α} (hx : x.outcome = .ok a) (f : α → Traced ε β) :
    (x >>= f).outcome = (f a).outcome := by
  rw [outcome_bind, hx]; rfl

/-- A first step that fails is the outcome. -/
theorem outcome_bind_of_error {x : Traced ε α} {e : ε} (hx : x.outcome = .error e)
    (f : α → Traced ε β) : (x >>= f).outcome = .error e := by
  rw [outcome_bind, hx]; rfl

/-- Two steps succeed if the first does and the second does after it. -/
theorem outcome_bind_eq_ok_iff {x : Traced ε α} {f : α → Traced ε β} {b : β} :
    (x >>= f).outcome = .ok b ↔ ∃ a, x.outcome = .ok a ∧ (f a).outcome = .ok b := by
  cases hx : x.outcome with
  | ok a =>
    rw [outcome_bind_of_ok hx]
    exact ⟨fun h => ⟨a, rfl, h⟩, fun ⟨_, ha, h⟩ => Except.ok.inj ha ▸ h⟩
  | error e =>
    rw [outcome_bind_of_error hx]
    constructor
    · intro h
      cases h
    · rintro ⟨a, ha, -⟩
      cases ha

theorem outcome_mapError (f : ε → ε') (x : Traced ε α) :
    (x.mapError f).outcome = x.outcome.mapError f := by
  unfold mapError
  cases x.outcome <;> rfl

/-- A run over a list succeeds if each item does, with the results of the items in order. -/
theorem outcome_mapM_eq_ok_iff {f : α → Traced ε β} {l : List α} {bs : List β} :
    (l.mapM f).outcome = .ok bs ↔ List.Forall₂ (fun a b => (f a).outcome = .ok b) l bs := by
  induction l generalizing bs with
  | nil =>
    rw [List.mapM_nil, outcome_pure, List.forall₂_nil_left_iff, Except.ok.injEq, eq_comm]
  | cons a l ih =>
    rw [List.mapM_cons, List.forall₂_cons_left_iff, outcome_bind_eq_ok_iff]
    simp only [outcome_bind_eq_ok_iff, outcome_pure, Except.ok.injEq, ih]
    constructor
    · rintro ⟨b, hb, bs, hbs, rfl⟩
      exact ⟨b, bs, hb, hbs, rfl⟩
    · rintro ⟨b, bs, hb, hbs, rfl⟩
      exact ⟨b, hb, bs, hbs, rfl⟩

/-- A run over a list of items that each succeed succeeds. -/
theorem exists_outcome_mapM {f : α → Traced ε β} {l : List α}
    (h : ∀ a ∈ l, ∃ b, (f a).outcome = .ok b) : ∃ bs, (l.mapM f).outcome = .ok bs := by
  induction l with
  | nil => exact ⟨[], rfl⟩
  | cons a l ih =>
    obtain ⟨b, hb⟩ := h a List.mem_cons_self
    obtain ⟨bs, hbs⟩ := ih fun a' ha' => h a' (List.mem_cons_of_mem a ha')
    rw [outcome_mapM_eq_ok_iff] at hbs
    exact ⟨b :: bs, outcome_mapM_eq_ok_iff.2 (.cons hb hbs)⟩

/-- In a run over a list that succeeds each item does. -/
theorem exists_outcome_of_mapM {f : α → Traced ε β} {l : List α} {bs : List β}
    (h : (l.mapM f).outcome = .ok bs) : ∀ a ∈ l, ∃ b, (f a).outcome = .ok b := by
  rw [outcome_mapM_eq_ok_iff] at h
  induction h with
  | nil => exact fun a ha => absurd ha List.not_mem_nil
  | cons hab _ ih => exact List.forall_mem_cons.2 ⟨⟨_, hab⟩, ih⟩

/-- A run over a list that stops where the results `bs` of another one have the first marked result:
it has the same results if none is marked, and else the error that goes with the first marked one. -/
theorem outcome_mapM_of_marked {f : α → Traced ε β} {marked : β → Bool} {R : ε → β → Prop}
    {l : List α} {bs : List β}
    (h : List.Forall₂ (fun a b => if marked b then ∃ e, (f a).outcome = .error e ∧ R e b
      else (f a).outcome = .ok b) l bs) :
    (bs.find? marked = none → (l.mapM f).outcome = .ok bs) ∧
      ∀ b, bs.find? marked = some b → ∃ e, (l.mapM f).outcome = .error e ∧ R e b := by
  induction h with
  | nil => exact ⟨fun _ => rfl, nofun⟩
  | @cons a b l bs hab _ ih =>
    rw [List.mapM_cons]
    cases hmarked : marked b with
    | true =>
      -- the run stops here
      rw [if_pos hmarked] at hab
      obtain ⟨e, he, hR⟩ := hab
      rw [List.find?_cons_of_pos hmarked, outcome_bind_of_error he]
      refine ⟨nofun, fun c hc => ?_⟩
      obtain rfl := Option.some.inj hc
      exact ⟨e, rfl, hR⟩
    | false =>
      have hnot : ¬marked b = true := by rw [hmarked]; exact Bool.false_ne_true
      rw [if_neg hnot] at hab
      rw [List.find?_cons_of_neg hnot, outcome_bind_of_ok hab]
      refine ⟨fun hnone => ?_, fun c hc => ?_⟩
      · rw [outcome_bind_of_ok (ih.1 hnone), outcome_pure]
      · obtain ⟨e, he, hR⟩ := ih.2 c hc
        exact ⟨e, outcome_bind_of_error he _, hR⟩

end Traced

end DocTree
