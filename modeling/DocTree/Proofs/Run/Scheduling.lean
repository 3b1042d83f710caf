import DocTree.Run.Concurrent
import Mathlib.Data.List.Induction
import Mathlib.Data.List.Nodup

/-!
# What happens in a concurrent run

A history of a run is the list of its events (`Pool.Reaches`). It determines what has become of each
task: one starts its file exactly if cancellation was not asked for before it asked (`started_iff`), and
its result follows from what it was told (`results_of_answer`). At no time are more files in progress
than there are permits (`inProgress_le`).

## Shape of the proof

`Step` says what an event does, and `Follows` what holds after a history: which tasks were granted
permits, in which order they asked and what they were told, and what each task is on account of it. Each
event keeps this (`Follows.step`), so it holds of every history (`Reaches.follows`).
-/

namespace DocTree

theorem countP_set_add {α : Type} {p : α → Bool} {l : List α} {i : Nat} {a : α}
    (h : l[i]? = some a) (b : α) :
    (l.set i b).countP p + (if p a then 1 else 0) = l.countP p + (if p b then 1 else 0) := by
  obtain ⟨hi, rfl⟩ := List.getElem?_eq_some_iff.1 h
  have hle : (if p l[i] = true then 1 else 0) ≤ l.countP p := by
    split
    · next hp => exact List.countP_pos_iff.2 ⟨l[i], List.getElem_mem hi, hp⟩
    · exact Nat.zero_le _
  rw [List.countP_set hi]
  omega

/-- An element that is counted takes the place of one that is. -/
theorem countP_set_le {α : Type} {p : α → Bool} {l : List α} {i : Nat} {a b : α}
    (h : l[i]? = some a) (hab : p b = true → p a = true) : (l.set i b).countP p ≤ l.countP p := by
  have hcount := countP_set_add (p := p) h b
  have hle : (if p b then 1 else 0) ≤ if p a then 1 else 0 := by
    split
    · next hb => exact Nat.le_of_eq (if_pos (hab hb)).symm
    · exact Nat.zero_le _
  omega

namespace Pool

variable {ρ : Type} {permits n : Nat} {skip work : Nat → ρ}

/-! ## Steps -/

/-- What an event does. -/
inductive Step (permits : Nat) (skip work : Nat → ρ) (p : Pool ρ) : PoolEvent → Pool ρ → Prop where
  | cancel : Step permits skip work p .cancel { p with flag := p.flag.cancel }
  | grant {i : Nat} (hi : p.tasks[i]? = some .waiting) (hfree : p.held < permits) :
      Step permits skip work p (.grant i)
        { p with tasks := p.tasks.set i .ready, queue := p.queue ++ [i] }
  | ask {i : Nat} {rest : List Nat} (hqueue : p.queue = i :: rest) :
      Step permits skip work p (.ask i)
        { p with
          tasks := p.tasks.set i (if p.flag.raised then .done (skip i) else .running)
          queue := rest
          checks := p.checks + 1 }
  | finish {i : Nat} (hi : p.tasks[i]? = some .running) :
      Step permits skip work p (.finish i) { p with tasks := p.tasks.set i (.done (work i)) }

theorem step?_eq_some_iff {p q : Pool ρ} {e : PoolEvent} :
    p.step? permits skip work e = some q ↔ Step permits skip work p e q := by
  constructor
  · intro h
    cases e with
    | cancel =>
      cases h
      exact .cancel
    | grant i =>
      rw [step?] at h
      split at h
      · next hi =>
        split at h
        · next hfree =>
          cases h
          exact .grant hi hfree
        · cases h
      · cases h
    | ask i =>
      rw [step?] at h
      split at h
      · next hqueue =>
        split at h
        · next hij =>
          subst hij
          cases h
          exact .ask hqueue
        · cases h
      · cases h
    | finish i =>
      rw [step?] at h
      split at h
      · next hi =>
        cases h
        exact .finish hi
      · cases h
  · intro h
    cases h with
    | cancel => rfl
    | grant hi hfree => simp only [step?, hi, hfree, if_true]
    | ask hqueue => simp only [step?, hqueue, if_true]
    | finish hi => simp only [step?, hi]

/-! ## Histories -/

/-- The events, in their order, lead from the start of a run of `n` tasks to the pool. -/
inductive Reaches (permits n : Nat) (skip work : Nat → ρ) : List PoolEvent → Pool ρ → Prop where
  | start : Reaches permits n skip work [] (initial n)
  | step {es : List PoolEvent} {e : PoolEvent} {p q : Pool ρ}
      (h : Reaches permits n skip work es p) (hstep : p.step? permits skip work e = some q) :
      Reaches permits n skip work (es ++ [e]) q

/-- The last event of a history. -/
theorem Reaches.exists_last {es : List PoolEvent} {e : PoolEvent} {q : Pool ρ}
    (h : Reaches permits n skip work (es ++ [e]) q) :
    ∃ p, Reaches permits n skip work es p ∧ Step permits skip work p e q := by
  generalize hes : es ++ [e] = fs at h
  cases h with
  | start => exact absurd hes (List.append_ne_nil_of_right_ne_nil es (List.cons_ne_nil e []))
  | step h hstep =>
    obtain ⟨rfl, he⟩ := List.append_inj' hes rfl
    cases he
    exact ⟨_, h, step?_eq_some_iff.1 hstep⟩

/-- A history is one up to each of its moments. -/
theorem Reaches.exists_before {es fs : List PoolEvent} {q : Pool ρ}
    (h : Reaches permits n skip work (es ++ fs) q) : ∃ p, Reaches permits n skip work es p := by
  induction fs using List.reverseRecOn generalizing q with
  | nil =>
    rw [List.append_nil] at h
    exact ⟨q, h⟩
  | append_singleton fs e ih =>
    rw [← List.append_assoc] at h
    obtain ⟨p, hp, -⟩ := h.exists_last
    exact ih hp

/-- The tasks that were granted a permit, in order. -/
def grants (es : List PoolEvent) : List Nat :=
  es.filterMap fun
    | .grant i => some i
    | _ => none

/-- The tasks that asked and whether they were told that the run is cancelled, in order; `raised` says
whether it was cancelled before. -/
def answersFrom (raised : Bool) : List PoolEvent → List (Nat × Bool)
  | [] => []
  | .cancel :: es => answersFrom true es
  | .ask i :: es => (i, raised) :: answersFrom raised es
  | .grant _ :: es => answersFrom raised es
  | .finish _ :: es => answersFrom raised es

/-- The tasks that asked and what they were told, in order. -/
def answers (es : List PoolEvent) : List (Nat × Bool) := answersFrom false es

theorem grants_append (es fs : List PoolEvent) : grants (es ++ fs) = grants es ++ grants fs :=
  List.filterMap_append

/-- Other events than grants grant nothing. -/
theorem grants_concat {e : PoolEvent} (he : ∀ i, e ≠ .grant i) (es : List PoolEvent) :
    grants (es ++ [e]) = grants es := by
  rw [grants_append]
  cases e with
  | grant i => exact absurd rfl (he i)
  | _ => exact List.append_nil _

theorem answersFrom_append (raised : Bool) (es fs : List PoolEvent) :
    answersFrom raised (es ++ fs) =
      answersFrom raised es ++ answersFrom (raised || es.contains .cancel) fs := by
  induction es generalizing raised with
  | nil => rw [List.nil_append, List.contains_nil, Bool.or_false]; rfl
  | cons e es ih =>
    cases e with
    | cancel =>
      have hraised : (raised || (PoolEvent.cancel :: es).contains .cancel) = true := by
        simp only [List.contains_cons, beq_self_eq_true, Bool.true_or, Bool.or_true]
      rw [hraised, List.cons_append, answersFrom, answersFrom, ih, Bool.true_or]
    | ask i =>
      have hsame : (PoolEvent.ask i :: es).contains .cancel = es.contains .cancel := rfl
      rw [hsame, List.cons_append, answersFrom, answersFrom, ih, List.cons_append]
    | grant i =>
      have hsame : (PoolEvent.grant i :: es).contains .cancel = es.contains .cancel := rfl
      rw [hsame, List.cons_append, answersFrom, answersFrom, ih]
    | finish i =>
      have hsame : (PoolEvent.finish i :: es).contains .cancel = es.contains .cancel := rfl
      rw [hsame, List.cons_append, answersFrom, answersFrom, ih]

/-- Only cancellation cancels the run. -/
theorem contains_cancel_concat {e : PoolEvent} (he : e ≠ .cancel) (es : List PoolEvent) :
    (es ++ [e]).contains .cancel = es.contains .cancel := by
  rw [List.contains_append]
  cases e with
  | cancel => exact absurd rfl he
  | _ => exact Bool.or_false _

/-- A task that asks is told whether cancellation was asked for before. -/
theorem answers_ask (es fs : List PoolEvent) (i : Nat) :
    answers (es ++ .ask i :: fs) =
      answers es ++ (i, es.contains .cancel) :: answersFrom (es.contains .cancel) fs := by
  rw [answers, answersFrom_append, Bool.false_or]
  rfl

/-- Other events than questions bring no answers. -/
theorem answers_concat {e : PoolEvent} (he : ∀ i, e ≠ .ask i) (es : List PoolEvent) :
    answers (es ++ [e]) = answers es := by
  rw [answers, answersFrom_append]
  cases e with
  | ask i => exact absurd rfl (he i)
  | _ => exact List.append_nil _

/-- An answer in a history comes from a question in it. -/
theorem exists_ask_of_mem_answersFrom {raised : Bool} {es : List PoolEvent} {i : Nat} {a : Bool}
    (h : (i, a) ∈ answersFrom raised es) :
    ∃ pre post, es = pre ++ .ask i :: post ∧ a = (raised || pre.contains .cancel) := by
  induction es generalizing raised with
  | nil => exact absurd h List.not_mem_nil
  | cons e es ih =>
    cases e with
    | cancel =>
      obtain ⟨pre, post, rfl, rfl⟩ := ih h
      refine ⟨.cancel :: pre, post, rfl, ?_⟩
      simp only [List.contains_cons, beq_self_eq_true, Bool.true_or, Bool.or_true]
    | ask j =>
      rcases List.mem_cons.1 h with h | h
      · cases h
        exact ⟨[], es, rfl, (Bool.or_false _).symm⟩
      · obtain ⟨pre, post, rfl, rfl⟩ := ih h
        exact ⟨.ask j :: pre, post, rfl, rfl⟩
    | grant j =>
      obtain ⟨pre, post, rfl, rfl⟩ := ih h
      exact ⟨.grant j :: pre, post, rfl, rfl⟩
    | finish j =>
      obtain ⟨pre, post, rfl, rfl⟩ := ih h
      exact ⟨.finish j :: pre, post, rfl, rfl⟩

theorem mem_answers_append {es : List PoolEvent} {x : Nat × Bool} (h : x ∈ answers es)
    (fs : List PoolEvent) : x ∈ answers (es ++ fs) := by
  rw [answers, answersFrom_append]
  exact List.mem_append_left _ h

/-! ## What a history says about the tasks -/

/-- What has become of a task on account of a history. -/
def Past (skip work : Nat → ρ) (es : List PoolEvent) (queue : List Nat) (i : Nat) : Task ρ → Prop
  | .waiting => i ∉ grants es
  | .ready => i ∈ queue
  | .running => (i, false) ∈ answers es
  | .done r => ∃ a, (i, a) ∈ answers es ∧ r = if a then skip i else work i

/-- An event leaves the other tasks as they are. -/
theorem Past.mono {es fs : List PoolEvent} {queue queue' : List Nat} {i : Nat} {t : Task ρ}
    (h : Past skip work es queue i t) (hgrants : i ∉ grants fs) (hqueue : i ∈ queue → i ∈ queue') :
    Past skip work (es ++ fs) queue' i t := by
  cases t with
  | waiting =>
    show i ∉ grants (es ++ fs)
    rw [grants_append, List.mem_append]
    exact fun hi => hi.elim h hgrants
  | ready => exact hqueue h
  | running => exact mem_answers_append h fs
  | done r =>
    obtain ⟨a, ha, hr⟩ := h
    exact ⟨a, mem_answers_append ha fs, hr⟩

/-- The pool is what the history makes of it. -/
structure Follows (permits n : Nat) (skip work : Nat → ρ) (es : List PoolEvent) (p : Pool ρ) :
    Prop where
  length : p.tasks.length = n
  /-- A task asks after it was granted a permit, in the order of the grants. -/
  granted : grants es = (answers es).map Prod.fst ++ p.queue
  /-- No task is granted two permits. -/
  nodup : (grants es).Nodup
  bound : ∀ i ∈ grants es, i < n
  raised : p.flag.raised = es.contains .cancel
  checks : p.checks = (answers es).length
  past : ∀ i t, p.tasks[i]? = some t → Past skip work es p.queue i t
  held : p.held ≤ permits

/-- The tasks of a list of which one was changed. -/
theorem getElem?_set_cases {l : List (Task ρ)} {i j : Nat} {t u : Task ρ}
    (h : (l.set i t)[j]? = some u) : (j = i ∧ u = t) ∨ (j ≠ i ∧ l[j]? = some u) := by
  rw [List.getElem?_set] at h
  split at h
  · next hij =>
    split at h
    · cases h
      exact .inl ⟨hij.symm, rfl⟩
    · cases h
  · next hij => exact .inr ⟨fun hji => hij hji.symm, h⟩

namespace Follows

variable {es : List PoolEvent} {p q : Pool ρ}

theorem start : Follows permits n skip work [] (initial n : Pool ρ) where
  length := List.length_replicate
  granted := rfl
  nodup := List.nodup_nil
  bound := fun _ h => absurd h List.not_mem_nil
  raised := rfl
  checks := rfl
  past := by
    intro i t ht
    rw [initial, List.getElem?_replicate] at ht
    split at ht
    · cases ht
      exact List.not_mem_nil
    · cases ht
  held := by
    have hzero : (initial n : Pool ρ).held = 0 := by
      refine List.countP_eq_zero.2 fun t ht => ?_
      rw [List.eq_of_mem_replicate ht]
      exact Bool.false_ne_true
    rw [hzero]
    exact Nat.zero_le permits

/-- The tasks that asked are different ones, and none of them is still ready. -/
theorem nodup_answers (h : Follows permits n skip work es p) :
    ((answers es).map Prod.fst ++ p.queue).Nodup := h.granted ▸ h.nodup

/-- A task is told one thing only. -/
theorem answer_unique (h : Follows permits n skip work es p) {i : Nat} {a b : Bool}
    (ha : (i, a) ∈ answers es) (hb : (i, b) ∈ answers es) : a = b := by
  have hnodup := (List.nodup_append.1 h.nodup_answers).1
  have hpair := List.inj_on_of_nodup_map hnodup ha hb rfl
  exact (Prod.mk.inj hpair).2

/-- There is a task for each file. -/
theorem exists_task (h : Follows permits n skip work es p) {i : Nat} (hi : i < n) :
    ∃ t, p.tasks[i]? = some t :=
  ⟨_, List.getElem?_eq_getElem (h.length.symm ▸ hi)⟩

/-- The tasks in the queue are the ones that are ready. -/
theorem ready_of_mem_queue (h : Follows permits n skip work es p) {i : Nat} (hi : i ∈ p.queue) :
    p.tasks[i]? = some .ready := by
  have hgrant : i ∈ grants es := by
    rw [h.granted]
    exact List.mem_append_right _ hi
  have hasked (a : Bool) : (i, a) ∉ answers es := fun ha =>
    (List.nodup_append.1 h.nodup_answers).2.2 i (List.mem_map_of_mem ha) i hi rfl
  obtain ⟨t, ht⟩ := h.exists_task (h.bound i hgrant)
  have hpast := h.past i t ht
  cases t with
  | waiting => exact absurd hgrant hpast
  | ready => exact ht
  | running => exact absurd hpast (hasked false)
  | done r =>
    obtain ⟨a, ha, -⟩ := hpast
    exact absurd ha (hasked a)

theorem cancel (h : Follows permits n skip work es p) :
    Follows permits n skip work (es ++ [.cancel]) { p with flag := p.flag.cancel } := by
  have hgrants : grants (es ++ [.cancel]) = grants es := grants_concat (by simp) es
  have hanswers : answers (es ++ [.cancel]) = answers es := answers_concat (by simp) es
  exact {
    length := h.length
    granted := by rw [hgrants, hanswers, h.granted]
    nodup := hgrants ▸ h.nodup
    bound := hgrants ▸ h.bound
    raised := by
      rw [List.contains_append, List.contains_cons, beq_self_eq_true, Bool.true_or, Bool.or_true]
      rfl
    checks := by rw [hanswers, ← h.checks]
    past := fun i t ht => (h.past i t ht).mono List.not_mem_nil id
    held := h.held }

theorem grant (h : Follows permits n skip work es p) {i : Nat} (hi : p.tasks[i]? = some .waiting)
    (hfree : p.held < permits) :
    Follows permits n skip work (es ++ [.grant i])
      { p with tasks := p.tasks.set i .ready, queue := p.queue ++ [i] } := by
  have hgrants : grants (es ++ [.grant i]) = grants es ++ [i] := grants_append es _
  have hanswers : answers (es ++ [.grant i]) = answers es := answers_concat (by simp) es
  have hnew : i ∉ grants es := h.past i .waiting hi
  exact {
    length := by rw [List.length_set, h.length]
    granted := by rw [hgrants, hanswers, h.granted, List.append_assoc]
    nodup := by
      rw [hgrants, List.nodup_append]
      refine ⟨h.nodup, List.nodup_singleton i, fun j hj k hk => ?_⟩
      rw [List.mem_singleton.1 hk]
      rintro rfl
      exact hnew hj
    bound := by
      intro j hj
      rw [hgrants, List.mem_append, List.mem_singleton] at hj
      rcases hj with hj | rfl
      · exact h.bound j hj
      · exact h.length ▸ (List.getElem?_eq_some_iff.1 hi).1
    raised := by rw [h.raised, contains_cancel_concat (by simp)]
    checks := by rw [hanswers, ← h.checks]
    past := by
      intro j t ht
      obtain ⟨rfl, rfl⟩ | ⟨hij, ht⟩ := getElem?_set_cases ht
      · exact List.mem_append_right _ (List.mem_singleton_self j)
      · exact (h.past j t ht).mono (fun hj => hij (List.mem_singleton.1 hj))
          (List.mem_append_left _)
    held := by
      have hcount := countP_set_add (p := Task.holdsPermit) hi .ready
      simp only [Task.holdsPermit, if_true, Bool.false_eq_true, if_false] at hcount
      show (p.tasks.set i .ready).countP Task.holdsPermit ≤ permits
      have hheld : p.tasks.countP Task.holdsPermit < permits := hfree
      omega }

theorem ask (h : Follows permits n skip work es p) {i : Nat} {rest : List Nat}
    (hqueue : p.queue = i :: rest) :
    Follows permits n skip work (es ++ [.ask i])
      { p with
        tasks := p.tasks.set i (if p.flag.raised then .done (skip i) else .running)
        queue := rest
        checks := p.checks + 1 } := by
  have hready : p.tasks[i]? = some .ready :=
    h.ready_of_mem_queue (hqueue ▸ List.mem_cons_self)
  have hgrants : grants (es ++ [.ask i]) = grants es := grants_concat (by simp) es
  have hanswers : answers (es ++ [.ask i]) = answers es ++ [(i, p.flag.raised)] := by
    rw [answers_ask, h.raised]
    rfl
  have htold : (i, p.flag.raised) ∈ answers (es ++ [.ask i]) := by
    rw [hanswers]
    exact List.mem_append_right _ (List.mem_singleton_self _)
  exact {
    length := by rw [List.length_set, h.length]
    granted := by
      rw [hgrants, hanswers, h.granted, hqueue, List.map_append, List.append_assoc]
      rfl
    nodup := hgrants ▸ h.nodup
    bound := hgrants ▸ h.bound
    raised := by rw [h.raised, contains_cancel_concat (by simp)]
    checks := by rw [hanswers, List.length_append, ← h.checks]; rfl
    past := by
      intro j t ht
      obtain ⟨rfl, rfl⟩ | ⟨hij, ht⟩ := getElem?_set_cases ht
      · cases hraised : p.flag.raised with
        | true => exact ⟨true, hraised ▸ htold, rfl⟩
        | false => exact (hraised ▸ htold : (j, false) ∈ answers (es ++ [.ask j]))
      · refine (h.past j t ht).mono List.not_mem_nil fun hj => ?_
        rw [hqueue, List.mem_cons] at hj
        exact hj.resolve_left hij
    held := Nat.le_trans (countP_set_le hready fun _ => rfl) h.held }

theorem finish (h : Follows permits n skip work es p) {i : Nat} (hi : p.tasks[i]? = some .running) :
    Follows permits n skip work (es ++ [.finish i])
      { p with tasks := p.tasks.set i (.done (work i)) } := by
  have hgrants : grants (es ++ [.finish i]) = grants es := grants_concat (by simp) es
  have hanswers : answers (es ++ [.finish i]) = answers es := answers_concat (by simp) es
  exact {
    length := by rw [List.length_set, h.length]
    granted := by rw [hgrants, hanswers, h.granted]
    nodup := hgrants ▸ h.nodup
    bound := hgrants ▸ h.bound
    raised := by rw [h.raised, contains_cancel_concat (by simp)]
    checks := by rw [hanswers, ← h.checks]
    past := by
      intro j t ht
      obtain ⟨rfl, rfl⟩ | ⟨hij, ht⟩ := getElem?_set_cases ht
      · exact ⟨false, mem_answers_append (h.past j .running hi) _, rfl⟩
      · exact (h.past j t ht).mono List.not_mem_nil id
    held := Nat.le_trans (countP_set_le hi fun _ => rfl) h.held }

/-- **Each event keeps the pool what the history makes of it.** -/
theorem step {e : PoolEvent} (h : Follows permits n skip work es p)
    (hstep : Step permits skip work p e q) : Follows permits n skip work (es ++ [e]) q := by
  cases hstep with
  | cancel => exact h.cancel
  | grant hi hfree => exact h.grant hi hfree
  | ask hqueue => exact h.ask hqueue
  | finish hi => exact h.finish hi

end Follows

/-- **The pool is what its history makes of it.** -/
theorem Reaches.follows {es : List PoolEvent} {p : Pool ρ} (h : Reaches permits n skip work es p) :
    Follows permits n skip work es p := by
  induction h with
  | start => exact .start
  | step _ hstep ih => exact ih.step (step?_eq_some_iff.1 hstep)

/-! ## Files in progress -/

/-- A task that exports its file holds a permit. -/
theorem inProgress_le_held (p : Pool ρ) : p.inProgress ≤ p.held := by
  refine List.countP_mono_left fun t _ ht => ?_
  cases t with
  | running => rfl
  | _ => cases ht

theorem Follows.inProgress_le {es : List PoolEvent} {p : Pool ρ}
    (h : Follows permits n skip work es p) : p.inProgress ≤ permits :=
  Nat.le_trans (inProgress_le_held p) h.held

/-- At some moment of the history, the task exports its file. -/
def Started (permits n : Nat) (skip work : Nat → ρ) (es : List PoolEvent) (i : Nat) : Prop :=
  ∃ pre p, pre <+: es ∧ Reaches permits n skip work pre p ∧ p.tasks[i]? = some .running

/-- **A task starts its file exactly if it is told that the run is not cancelled.** -/
theorem started_iff {es : List PoolEvent} {p : Pool ρ} (h : Reaches permits n skip work es p)
    (i : Nat) : Started permits n skip work es i ↔ (i, false) ∈ answers es := by
  constructor
  · rintro ⟨pre, q, ⟨post, rfl⟩, hq, hi⟩
    exact mem_answers_append (hq.follows.past i .running hi) post
  · intro htold
    obtain ⟨pre, post, rfl, hraised⟩ := exists_ask_of_mem_answersFrom htold
    rw [List.append_cons] at h ⊢
    obtain ⟨q, hq⟩ := h.exists_before
    refine ⟨pre ++ [.ask i], q, List.prefix_append _ _, hq, ?_⟩
    obtain ⟨before, hbefore, hstep⟩ := hq.exists_last
    have hfollows := hbefore.follows
    have hlowered : before.flag.raised = false := by
      rw [hfollows.raised, hraised, Bool.false_or]
    cases hstep with
    | ask hqueue =>
      have hready := hfollows.ready_of_mem_queue (hqueue ▸ List.mem_cons_self)
      have hlt := (List.getElem?_eq_some_iff.1 hready).1
      rw [hlowered, if_neg Bool.false_ne_true]
      exact List.getElem?_set_self hlt

/-- A task that asks after cancellation was asked for does not start its file. -/
theorem not_started_of_cancelled {es pre post : List PoolEvent} {p : Pool ρ} {i : Nat}
    (h : Reaches permits n skip work es p) (hes : es = pre ++ .ask i :: post)
    (hcancel : .cancel ∈ pre) : ¬Started permits n skip work es i := by
  rw [started_iff h]
  intro hfalse
  have htrue : (i, true) ∈ answers es := by
    rw [hes, answers_ask, List.contains_iff_mem.2 hcancel]
    exact List.mem_append_right _ List.mem_cons_self
  exact Bool.false_ne_true (h.follows.answer_unique hfalse htrue)

/-! ## The end of a run -/

/-- Every task is done. -/
def IsComplete (p : Pool ρ) : Prop := ∀ t ∈ p.tasks, ∃ r, t = .done r

/-- At the end, the tasks are their results. -/
theorem tasks_eq_of_isComplete {p : Pool ρ} (h : p.IsComplete) : p.tasks = p.results.map .done := by
  have hdone (l : List (Task ρ)) (hl : ∀ t ∈ l, ∃ r, t = .done r) :
      l = (l.filterMap Task.result?).map .done := by
    induction l with
    | nil => rfl
    | cons t l ih =>
      obtain ⟨r, rfl⟩ := hl t List.mem_cons_self
      have hcons : (Task.done r :: l).filterMap Task.result? = r :: l.filterMap Task.result? := rfl
      rw [hcons, List.map_cons, ← ih fun u hu => hl u (List.mem_cons_of_mem _ hu)]
  exact hdone p.tasks h

namespace Follows

variable {es : List PoolEvent} {p : Pool ρ}

/-- There is a result for each file. -/
theorem length_results (h : Follows permits n skip work es p) (hdone : p.IsComplete) :
    p.results.length = n := by
  rw [← h.length, tasks_eq_of_isComplete hdone, List.length_map]

/-- At the end, each task has asked, and has the result that goes with the answer. -/
theorem exists_answer (h : Follows permits n skip work es p) (hdone : p.IsComplete) {i : Nat}
    (hi : i < n) :
    ∃ a, (i, a) ∈ answers es ∧ p.results[i]? = some (if a then skip i else work i) := by
  obtain ⟨t, ht⟩ := h.exists_task hi
  obtain ⟨r, rfl⟩ := hdone t (List.mem_of_getElem? ht)
  obtain ⟨a, ha, hr⟩ := h.past i _ ht
  refine ⟨a, ha, ?_⟩
  rw [tasks_eq_of_isComplete hdone, List.getElem?_map, Option.map_eq_some_iff] at ht
  obtain ⟨r', hr', heq⟩ := ht
  cases heq
  rw [hr', hr]

/-- **The result of a task follows from what it was told.** -/
theorem results_of_answer (h : Follows permits n skip work es p) (hdone : p.IsComplete) {i : Nat}
    {a : Bool} (ha : (i, a) ∈ answers es) :
    p.results[i]? = some (if a then skip i else work i) := by
  have hgrant : i ∈ grants es := by
    rw [h.granted]
    exact List.mem_append_left _ (List.mem_map_of_mem ha)
  obtain ⟨b, hb, hresult⟩ := h.exists_answer hdone (h.bound i hgrant)
  rw [h.answer_unique ha hb, hresult]

/-- At the end, no task is left in the queue. -/
theorem queue_eq_nil (h : Follows permits n skip work es p) (hdone : p.IsComplete) :
    p.queue = [] := by
  refine List.eq_nil_iff_forall_not_mem.2 fun i hi => ?_
  obtain ⟨r, hr⟩ := hdone _ (List.mem_of_getElem? (h.ready_of_mem_queue hi))
  cases hr

end Follows

end Pool

end DocTree
