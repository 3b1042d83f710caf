import DocTree.Proofs.Run.Scheduling
import Mathlib.Algebra.BigOperators.Group.List.Basic
import Mathlib.Algebra.GroupWithZero.Nat

/-!
# Turns of a concurrent run

As long as a task is not done, `Pool.next?` finds an event that can happen, and each one leaves less to
do. So a run that is left to `Pool.advance` comes to its end in as many turns as there are steps to take
(`exists_history_advanceTimes`), and any run can be brought to its end (`exists_complete`).

From the start, `Pool.advance` grants permits in the order of the files, and the flag is raised for the
questions for which it should be (`InOrder`).
-/

namespace DocTree

/-- How many steps a task has still to take. -/
def Task.remaining {ρ : Type} : Task ρ → Nat
  | waiting => 3
  | ready => 2
  | running => 1
  | done _ => 0

/-- The sum over a list of which one element was changed. -/
theorem sum_set_add {α : Type} {f : α → Nat} {l : List α} {i : Nat} {a : α} (h : l[i]? = some a)
    (b : α) : ((l.set i b).map f).sum + f a = (l.map f).sum + f b := by
  induction l generalizing i with
  | nil => cases h
  | cons c l ih =>
    cases i with
    | zero =>
      cases h
      simp only [List.set_cons_zero, List.map_cons, List.sum_cons]
      omega
    | succ i =>
      have hrest := ih h
      simp only [List.set_cons_succ, List.map_cons, List.sum_cons]
      omega

namespace Pool

variable {ρ : Type} {permits n : Nat} {skip work : Nat → ρ} {cancelled : Nat → Bool}

/-! ## The next event -/

/-- What the next event is, if there is one. -/
inductive Turn (permits : Nat) (cancelled : Nat → Bool) (p : Pool ρ) : Option PoolEvent → Prop where
  | cancel (hcancelled : cancelled p.checks = true) (hraised : p.flag.raised = false) :
      Turn permits cancelled p (some .cancel)
  | ask {i : Nat} {rest : List Nat} (hqueue : p.queue = i :: rest)
      (hraised : cancelled p.checks = true → p.flag.raised = true) :
      Turn permits cancelled p (some (.ask i))
  | grant {i : Nat} (hi : p.tasks[i]? = some .waiting)
      (hfirst : ∀ j < i, p.tasks[j]? ≠ some .waiting) (hfree : p.held < permits) :
      Turn permits cancelled p (some (.grant i))
  | finish {i : Nat} (hi : p.tasks[i]? = some .running) :
      Turn permits cancelled p (some (.finish i))
  | complete (hdone : p.IsComplete) : Turn permits cancelled p none

theorem getElem?_of_findIdx?_isRunning {l : List (Task ρ)} {i : Nat}
    (h : l.findIdx? Task.isRunning = some i) : l[i]? = some .running := by
  obtain ⟨hi, hrunning, -⟩ := List.findIdx?_eq_some_iff_getElem.1 h
  rw [List.getElem?_eq_getElem hi]
  cases hl : l[i] with
  | running => rfl
  | _ =>
    rw [hl] at hrunning
    cases hrunning

theorem getElem?_of_findIdx?_isWaiting {l : List (Task ρ)} {i : Nat}
    (h : l.findIdx? Task.isWaiting = some i) :
    l[i]? = some .waiting ∧ ∀ j < i, l[j]? ≠ some .waiting := by
  obtain ⟨hi, hwaiting, hbefore⟩ := List.findIdx?_eq_some_iff_getElem.1 h
  constructor
  · rw [List.getElem?_eq_getElem hi]
    cases hl : l[i] with
    | waiting => rfl
    | _ =>
      rw [hl] at hwaiting
      cases hwaiting
  · intro j hj hlj
    obtain ⟨hlt, hget⟩ := List.getElem?_eq_some_iff.1 hlj
    have hnot := hbefore j hj
    rw [hget] at hnot
    exact hnot rfl

namespace Follows

variable {es : List PoolEvent} {p q : Pool ρ}

/-- With an empty queue, the tasks that hold a permit are running. -/
theorem not_ready_of_queue_eq_nil (h : Follows permits n skip work es p) (hqueue : p.queue = [])
    {t : Task ρ} (ht : t ∈ p.tasks) : t ≠ .ready := by
  rintro rfl
  obtain ⟨i, hi⟩ := List.mem_iff_getElem?.1 ht
  have hmem : i ∈ p.queue := h.past i .ready hi
  rw [hqueue] at hmem
  exact List.not_mem_nil hmem

/-- With an empty queue and no waiting task, the first running task ends, or all are done. -/
theorem turn_finish (h : Follows permits n skip work es p) (hqueue : p.queue = [])
    (hblocked : p.tasks.findIdx? Task.isWaiting = none ∨ ∃ t ∈ p.tasks, t.holdsPermit = true) :
    Turn permits cancelled p ((p.tasks.findIdx? Task.isRunning).map .finish) := by
  cases hrunning : p.tasks.findIdx? Task.isRunning with
  | some i => exact .finish (getElem?_of_findIdx?_isRunning hrunning)
  | none =>
    have hidle := List.findIdx?_eq_none_iff.1 hrunning
    rcases hblocked with hwaiting | ⟨t, ht, hpermit⟩
    · refine .complete fun t ht => ?_
      have hnot := List.findIdx?_eq_none_iff.1 hwaiting t ht
      cases t with
      | waiting => cases hnot
      | ready => exact absurd rfl (h.not_ready_of_queue_eq_nil hqueue ht)
      | running => cases hidle _ ht
      | done r => exact ⟨r, rfl⟩
    · exfalso
      cases t with
      | waiting => cases hpermit
      | ready => exact h.not_ready_of_queue_eq_nil hqueue ht rfl
      | running => cases hidle _ ht
      | done r => cases hpermit

/-- **There is a next event until all tasks are done.** -/
theorem turn_next? (h : Follows permits n skip work es p) (hpermits : 1 ≤ permits) :
    Turn permits cancelled p (p.next? permits cancelled) := by
  rw [next?]
  split
  · next i rest hqueue =>
    split
    · next hcancel =>
      rw [Bool.and_eq_true, Bool.not_eq_true'] at hcancel
      exact .cancel hcancel.1 hcancel.2
    · next hcancel =>
      refine .ask hqueue fun hcancelled => ?_
      rw [hcancelled, Bool.true_and, Bool.not_eq_true', Bool.not_eq_false] at hcancel
      exact hcancel
  · next i hqueue hwaiting =>
    split
    · next hfree =>
      obtain ⟨hi, hfirst⟩ := getElem?_of_findIdx?_isWaiting hwaiting
      exact .grant hi hfirst hfree
    · next hfree =>
      -- all permits are taken, and there is at least one
      have hheld : 0 < p.tasks.countP Task.holdsPermit := by
        have hle : permits ≤ p.tasks.countP Task.holdsPermit := Nat.le_of_not_lt hfree
        omega
      exact h.turn_finish hqueue (.inr (List.countP_pos_iff.1 hheld))
  · next hqueue hwaiting => exact h.turn_finish hqueue (.inl hwaiting)

end Follows

/-! ## What is left to do -/

/-- How many steps are left, one of them to cancel the run. -/
def effort (p : Pool ρ) : Nat :=
  (p.tasks.map Task.remaining).sum + if p.flag.raised then 0 else 1

theorem effort_initial (n : Nat) : (initial n : Pool ρ).effort = 3 * n + 1 := by
  have hsum : ((List.replicate n (.waiting : Task ρ)).map Task.remaining).sum = n * 3 := by
    rw [List.map_replicate, List.sum_replicate]
    rfl
  rw [effort, initial, hsum, Nat.mul_comm]
  rfl

/-- A task that goes on has less to do. -/
theorem remaining_set_lt {l : List (Task ρ)} {i : Nat} {t u : Task ρ} (h : l[i]? = some t)
    (hlt : u.remaining < t.remaining) :
    ((l.set i u).map Task.remaining).sum < (l.map Task.remaining).sum := by
  have hsum := sum_set_add (f := Task.remaining) h u
  omega

/-- An event that is next can happen, and leaves less to do. -/
theorem Follows.exists_step {es : List PoolEvent} {p : Pool ρ} {e : PoolEvent}
    (h : Follows permits n skip work es p) (hturn : Turn permits cancelled p (some e)) :
    ∃ q, p.step? permits skip work e = some q ∧ q.effort < p.effort := by
  cases hturn with
  | cancel _ hraised =>
    refine ⟨_, step?_eq_some_iff.2 .cancel, ?_⟩
    have hcancel : p.flag.cancel.raised = true := rfl
    simp only [effort, hcancel, hraised, if_true, Bool.false_eq_true, if_false]
    omega
  | @ask i rest hqueue _ =>
    refine ⟨_, step?_eq_some_iff.2 (.ask hqueue), ?_⟩
    have hready := h.ready_of_mem_queue (hqueue ▸ List.mem_cons_self)
    refine Nat.add_lt_add_right (remaining_set_lt hready ?_) _
    cases p.flag.raised with
    | true => exact Nat.zero_lt_two
    | false => exact Nat.one_lt_two
  | @grant i hi _ hfree =>
    refine ⟨_, step?_eq_some_iff.2 (.grant hi hfree), ?_⟩
    refine Nat.add_lt_add_right (remaining_set_lt hi ?_) _
    exact Nat.lt_succ_self 2
  | @finish i hi =>
    refine ⟨_, step?_eq_some_iff.2 (.finish hi), ?_⟩
    refine Nat.add_lt_add_right (remaining_set_lt hi ?_) _
    exact Nat.zero_lt_one

/-- **A run is at its end or goes on**, with less to do. -/
theorem Follows.complete_or_exists_step {es : List PoolEvent} {p : Pool ρ}
    (h : Follows permits n skip work es p) (hpermits : 1 ≤ permits) (cancelled : Nat → Bool) :
    (p.next? permits cancelled = none ∧ p.IsComplete) ∨
      ∃ e q, p.next? permits cancelled = some e ∧ Turn permits cancelled p (some e) ∧
        p.step? permits skip work e = some q ∧ q.effort < p.effort := by
  have hturn : Turn permits cancelled p (p.next? permits cancelled) := h.turn_next? hpermits
  cases hnext : p.next? permits cancelled with
  | none =>
    rw [hnext] at hturn
    cases hturn with
    | complete hdone => exact .inl ⟨rfl, hdone⟩
  | some e =>
    rw [hnext] at hturn
    obtain ⟨q, hstep, hlt⟩ := h.exists_step hturn
    exact .inr ⟨e, q, rfl, hturn, hstep, hlt⟩

/-- What each turn keeps of a history. -/
def KeptByTurns (permits n : Nat) (cancelled : Nat → Bool) (skip work : Nat → ρ)
    (P : List PoolEvent → Prop) : Prop :=
  ∀ es e (p : Pool ρ), Follows permits n skip work es p → Turn permits cancelled p (some e) → P es →
    P (es ++ [e])

/-- A run without a next event stays as it is. -/
theorem advanceTimes_of_next?_eq_none {p : Pool ρ} (h : p.next? permits cancelled = none) (k : Nat) :
    p.advanceTimes permits cancelled skip work k = p := by
  induction k with
  | zero => rfl
  | succ k ih =>
    rw [advanceTimes, advance, h]
    exact ih

/-- **A run that takes its turns comes to its end**, and what each turn keeps holds of its history. -/
theorem exists_history_advanceTimes {P : List PoolEvent → Prop} (hpermits : 1 ≤ permits)
    (hP : KeptByTurns permits n cancelled skip work P) (k : Nat) {es : List PoolEvent} {p : Pool ρ}
    (h : Reaches permits n skip work es p) (hes : P es) (hk : p.effort ≤ k) :
    ∃ fs, Reaches permits n skip work (es ++ fs) (p.advanceTimes permits cancelled skip work k) ∧
      P (es ++ fs) ∧ (p.advanceTimes permits cancelled skip work k).IsComplete := by
  induction k generalizing es p with
  | zero =>
    obtain ⟨-, hdone⟩ | ⟨e, q, -, -, -, hlt⟩ :=
      h.follows.complete_or_exists_step hpermits cancelled
    · exact ⟨[], (List.append_nil es).symm ▸ ⟨h, hes, hdone⟩⟩
    · omega
  | succ k ih =>
    obtain ⟨hnext, hdone⟩ | ⟨e, q, hnext, hturn, hstep, hlt⟩ :=
      h.follows.complete_or_exists_step hpermits cancelled
    · rw [advanceTimes_of_next?_eq_none hnext]
      exact ⟨[], (List.append_nil es).symm ▸ ⟨h, hes, hdone⟩⟩
    · obtain ⟨fs, hrun⟩ := ih (h.step hstep) (hP es e p h.follows hturn hes) (by omega)
      refine ⟨e :: fs, ?_⟩
      rw [List.append_cons, advanceTimes, advance, hnext]
      simp only [hstep, Option.getD_some]
      exact hrun

/-- **A run can always go on to its end.** -/
theorem Reaches.exists_complete {es : List PoolEvent} {p : Pool ρ} (hpermits : 1 ≤ permits)
    (h : Reaches permits n skip work es p) :
    ∃ fs q, Reaches permits n skip work (es ++ fs) q ∧ q.IsComplete := by
  have hP : KeptByTurns permits n (fun _ => false) skip work fun _ => True :=
    fun _ _ _ _ _ _ => trivial
  obtain ⟨fs, hreach, -, hdone⟩ :=
    exists_history_advanceTimes hpermits hP p.effort h trivial (Nat.le_refl _)
  exact ⟨fs, _, hreach, hdone⟩

/-! ## Permits in the order of the files -/

/-- Permits are granted in the order of the files, and the `k`-th question is answered by
`cancelled k`. -/
structure InOrder (cancelled : Nat → Bool) (es : List PoolEvent) : Prop where
  granted : grants es = List.range (grants es).length
  answered : (answers es).map Prod.snd = (List.range (answers es).length).map cancelled
  raised : es.contains .cancel = true → cancelled (answers es).length = true

/-- If permits were granted in order, the first tasks have them. -/
theorem mem_grants_iff_of_range {es : List PoolEvent}
    (hgranted : grants es = List.range (grants es).length) (j : Nat) :
    j ∈ grants es ↔ j < (grants es).length := by
  rw [hgranted, List.mem_range, List.length_range]

namespace Follows

variable {es : List PoolEvent} {p : Pool ρ}

/-- A task that does not wait was granted a permit. -/
theorem mem_grants (h : Follows permits n skip work es p) {i : Nat} (hi : i < n)
    (hwaiting : p.tasks[i]? ≠ some .waiting) : i ∈ grants es := by
  obtain ⟨t, ht⟩ := h.exists_task hi
  have hpast := h.past i t ht
  rw [h.granted, List.mem_append]
  cases t with
  | waiting => exact absurd ht hwaiting
  | ready => exact .inr hpast
  | running => exact .inl (List.mem_map_of_mem hpast)
  | done r =>
    obtain ⟨a, ha, -⟩ := hpast
    exact .inl (List.mem_map_of_mem ha)

/-- If permits were granted in order, the first waiting task is the next in order. -/
theorem first_waiting (h : Follows permits n skip work es p)
    (hgranted : grants es = List.range (grants es).length) {i : Nat}
    (hi : p.tasks[i]? = some .waiting) (hfirst : ∀ j < i, p.tasks[j]? ≠ some .waiting) :
    i = (grants es).length := by
  have hin : i < n := h.length ▸ (List.getElem?_eq_some_iff.1 hi).1
  have hmem := mem_grants_iff_of_range hgranted
  have hnew : ¬i < (grants es).length := fun hlt => h.past i .waiting hi ((hmem i).2 hlt)
  have hold : ¬(grants es).length < i := fun hlt =>
    Nat.lt_irrefl _ ((hmem _).1 (h.mem_grants (Nat.lt_trans hlt hin) (hfirst _ hlt)))
  omega

end Follows

theorem InOrder.start : InOrder cancelled [] where
  granted := rfl
  answered := rfl
  raised := fun h => absurd h Bool.false_ne_true

/-- **Each turn keeps the order.** Once the run is cancelled, it stays so. -/
theorem keptByTurns_inOrder (hmono : ∀ k, cancelled k = true → cancelled (k + 1) = true) :
    KeptByTurns permits n cancelled skip work (InOrder cancelled) := by
  intro es e p h hturn hes
  cases hturn with
  | cancel hcancelled _ =>
    have hgrants : grants (es ++ [.cancel]) = grants es := grants_concat (by simp) es
    have hanswers : answers (es ++ [.cancel]) = answers es := answers_concat (by simp) es
    exact {
      granted := hgrants ▸ hes.granted
      answered := hanswers ▸ hes.answered
      raised := fun _ => by rw [hanswers, ← h.checks, hcancelled] }
  | @ask i rest hqueue hraised =>
    have hgrants : grants (es ++ [.ask i]) = grants es := grants_concat (by simp) es
    have hanswers : answers (es ++ [.ask i]) = answers es ++ [(i, es.contains .cancel)] :=
      answers_ask es [] i
    have hanswer : es.contains .cancel = cancelled (answers es).length := by
      rw [h.raised, h.checks] at hraised
      exact Bool.eq_iff_iff.2 ⟨hes.raised, hraised⟩
    exact {
      granted := hgrants ▸ hes.granted
      answered := by
        rw [hanswers, List.map_append, List.length_append, List.length_singleton, List.range_succ,
          List.map_append, hes.answered, hanswer]
        rfl
      raised := by
        rw [contains_cancel_concat (by simp), hanswers, List.length_append, List.length_singleton]
        exact fun hcancel => hmono _ (hes.raised hcancel) }
  | @grant i hi hfirst _ =>
    have hgrants : grants (es ++ [.grant i]) = grants es ++ [i] := grants_append es _
    have hanswers : answers (es ++ [.grant i]) = answers es := answers_concat (by simp) es
    exact {
      granted := by
        rw [hgrants, List.length_append, List.length_singleton, List.range_succ, ← hes.granted,
          ← h.first_waiting hes.granted hi hfirst]
      answered := hanswers ▸ hes.answered
      raised := by
        rw [contains_cancel_concat (by simp), hanswers]
        exact hes.raised }
  | @finish i _ =>
    have hgrants : grants (es ++ [.finish i]) = grants es := grants_concat (by simp) es
    have hanswers : answers (es ++ [.finish i]) = answers es := answers_concat (by simp) es
    exact {
      granted := hgrants ▸ hes.granted
      answered := hanswers ▸ hes.answered
      raised := by
        rw [contains_cancel_concat (by simp), hanswers]
        exact hes.raised }

/-- A run from the start that takes its turns comes to its end in order. -/
theorem exists_inOrder_advanceTimes (hpermits : 1 ≤ permits)
    (hmono : ∀ k, cancelled k = true → cancelled (k + 1) = true) (n : Nat) (skip work : Nat → ρ) :
    ∃ es, Reaches permits n skip work es
        ((initial n).advanceTimes permits cancelled skip work (3 * n + 1)) ∧
      InOrder cancelled es ∧
      ((initial n).advanceTimes permits cancelled skip work (3 * n + 1)).IsComplete :=
  exists_history_advanceTimes hpermits (keptByTurns_inOrder hmono) (3 * n + 1) .start .start
    (Nat.le_of_eq (effort_initial n))

/-- At the end of a run in order, each file had its permit in its turn. -/
theorem InOrder.grants_eq {es : List PoolEvent} {p : Pool ρ} (hes : InOrder cancelled es)
    (h : Follows permits n skip work es p) (hdone : p.IsComplete) : grants es = List.range n := by
  have hmem := mem_grants_iff_of_range hes.granted
  have hle : (grants es).length ≤ n := by
    by_contra hlt
    exact absurd (h.bound n ((hmem n).2 (by omega))) (Nat.lt_irrefl n)
  have hge : n ≤ (grants es).length := by
    by_contra hlt
    refine absurd (h.mem_grants (Nat.lt_of_not_le hlt) fun hwaiting => ?_)
      fun hgrant => Nat.lt_irrefl _ ((hmem _).1 hgrant)
    obtain ⟨r, hr⟩ := hdone _ (List.mem_of_getElem? hwaiting)
    cases hr
  rw [hes.granted, Nat.le_antisymm hle hge]

/-- **If permits were granted in the order of the files**, the files at whose turn the run was not
cancelled are exported, and the others are skipped. -/
theorem Follows.results_inOrder {es : List PoolEvent} {p : Pool ρ}
    (h : Follows permits n skip work es p) (hdone : p.IsComplete)
    (hgrants : grants es = List.range n)
    (hanswers : (answers es).map Prod.snd = (List.range (answers es).length).map cancelled)
    {i : Nat} (hi : i < n) :
    p.results[i]? = some (if cancelled i then skip i else work i) := by
  have hfst : (answers es).map Prod.fst = List.range n := by
    rw [← hgrants, h.granted, h.queue_eq_nil hdone, List.append_nil]
  have hlength : (answers es).length = n := by
    rw [← List.length_map (f := Prod.fst), hfst, List.length_range]
  -- the `i`-th answer was given to task `i`
  obtain ⟨⟨j, a⟩, hanswer⟩ : ∃ x, (answers es)[i]? = some x :=
    ⟨_, List.getElem?_eq_getElem (hlength.symm ▸ hi)⟩
  have hj : j = i := by
    have hget := congrArg (·[i]?) hfst
    simp only [List.getElem?_map, hanswer, Option.map_some, List.getElem?_range hi] at hget
    exact Option.some.inj hget
  have ha : a = cancelled i := by
    have hget := congrArg (·[i]?) hanswers
    simp only [List.getElem?_map, hanswer, hlength, Option.map_some, List.getElem?_range hi] at hget
    exact Option.some.inj hget
  rw [hj, ha] at hanswer
  exact h.results_of_answer hdone (List.mem_of_getElem? hanswer)

end Pool

end DocTree
