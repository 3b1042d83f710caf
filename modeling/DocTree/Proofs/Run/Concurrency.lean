import DocTree.Proofs.Run.Isolation
import DocTree.Proofs.Run.Turns

/-!
# Concurrent runs and runs one after another

Whatever the order in which the tasks of a concurrent run get their permits and end, and whenever
cancellation is asked for, its results are those of the files on their own: a file that was started has
the result of `exportOne`, and any other is skipped. If permits are granted in the order of the files,
the run is the one that exports one file after another, cancelled after as many questions
(`concurrent_run_agrees`).

## Shape of the proof

`Pool.Follows.exists_answer` gives the result of each task, and `gather` keeps results in their places
(`exists_getElem?_of_gather`). Exporting one file after another is also a list of tasks, one per file
(`outcome_run`); in order, the two lists are the same. The one run is cancelled if a file was skipped and
the other if it is at the turn of a file, which comes to the same (`any_skipped_eq`).
-/

namespace DocTree.Batch

variable {b : Batch} {files : List FileInput}

/-! ## Histories of a batch -/

/-- The events lead from the start of a concurrent run over the files to the pool. -/
abbrev History (b : Batch) (files : List FileInput) (es : List PoolEvent)
    (p : Pool (Traced RunError FileResult)) : Prop :=
  Pool.Reaches b.settings.exporting.parallelFiles files.length (skipTask files) (b.exportTask files) es p

/-- At some moment of the history, the file at the position is being exported. -/
abbrev Started (b : Batch) (files : List FileInput) (es : List PoolEvent) (i : Nat) : Prop :=
  Pool.Started b.settings.exporting.parallelFiles files.length (skipTask files) (b.exportTask files) es i

/-- The tasks are told that the run is not cancelled as often as it is allowed, and not again. -/
def Told (allowed : Option Nat) (es : List PoolEvent) : Prop :=
  (Pool.answers es).map Prod.snd = (List.range (Pool.answers es).length).map (cancelledAt allowed)

theorem inputAt_eq {i : Nat} {input : FileInput} (h : files[i]? = some input) :
    inputAt files i = input := by
  rw [inputAt, h]
  rfl

/-- A run that is cancelled stays so. -/
theorem cancelledAt_succ (allowed : Option Nat) (k : Nat) (h : cancelledAt allowed k = true) :
    cancelledAt allowed (k + 1) = true := by
  cases allowed with
  | none => cases h
  | some n =>
    simp only [cancelledAt, decide_eq_true_eq] at h ⊢
    omega

/-! ## Gathering -/

theorem outcome_gather_eq_ok_iff {p : Pool (Traced RunError FileResult)} {run : RunResult} :
    (b.gather p).outcome = .ok run ↔
      ∃ rs, List.Forall₂ (fun x r => x.outcome = .ok r) p.results rs ∧ run = b.conclude rs := by
  rw [gather, Traced.outcome_bind_eq_ok_iff]
  simp only [Traced.outcome_mapM_eq_ok_iff, id_eq]
  refine exists_congr fun rs => and_congr_right fun _ => ?_
  exact ⟨fun h => (Except.ok.inj h).symm, fun h => congrArg Except.ok h.symm⟩

/-- Tasks that each return are gathered. -/
theorem exists_outcome_gather {p : Pool (Traced RunError FileResult)}
    (h : ∀ x ∈ p.results, ∃ r, x.outcome = .ok r) : ∃ run, (b.gather p).outcome = .ok run := by
  obtain ⟨rs, hrs⟩ := Traced.exists_outcome_mapM (f := id) h
  exact ⟨b.conclude rs, outcome_gather_eq_ok_iff.2 ⟨rs, Traced.outcome_mapM_eq_ok_iff.1 hrs, rfl⟩⟩

/-- Gathering keeps each result in its place. -/
theorem exists_getElem?_of_gather {p : Pool (Traced RunError FileResult)} {run : RunResult}
    (h : (b.gather p).outcome = .ok run) :
    run.results.length = p.results.length ∧ ∀ (i : Nat) (x : Traced RunError FileResult),
      p.results[i]? = some x → ∃ r, run.results[i]? = some r ∧ x.outcome = .ok r := by
  obtain ⟨rs, hrs, rfl⟩ := outcome_gather_eq_ok_iff.1 h
  refine ⟨hrs.length_eq.symm, fun i x hx => ?_⟩
  obtain ⟨hi, rfl⟩ := List.getElem?_eq_some_iff.1 hx
  have hi' : i < rs.length := hrs.length_eq ▸ hi
  exact ⟨rs[i], List.getElem?_eq_getElem hi', hrs.get hi hi'⟩

/-- A run is cancelled exactly if a file was skipped. -/
theorem cancelled_of_gather {p : Pool (Traced RunError FileResult)} {run : RunResult}
    (h : (b.gather p).outcome = .ok run) :
    run.cancelled = true ↔ ∃ r ∈ run.results, r.status = .skipped := by
  obtain ⟨rs, -, rfl⟩ := outcome_gather_eq_ok_iff.1 h
  simp only [conclude, List.any_eq_true, beq_iff_eq]

/-! ## One file after another -/

/-- Files are skipped at the turns at which the run is cancelled. -/
theorem any_skipped_eq {allowed : Option Nat} {qs : List (FileInput × Nat)} {rs : List FileResult}
    (h : List.Forall₂ (fun q r => (b.turnTask allowed q).outcome = .ok r) qs rs) :
    (rs.any fun r => r.status == .skipped) = qs.any fun q => cancelledAt allowed q.2 := by
  induction h with
  | nil => rfl
  | cons hqr _ ih =>
    rw [List.any_cons, List.any_cons, ih]
    refine congrArg (· || _) (Bool.eq_iff_iff.2 ?_)
    rw [beq_iff_eq]
    exact skipped_iff_of_outcome_turnTask hqr

/-- **Tasks of which each does what is done at its turn** give the run of one file after another. -/
theorem outcome_gather_eq_outcome_run {allowed : Option Nat}
    {p : Pool (Traced RunError FileResult)} (hlength : p.results.length = files.length)
    (hresults : ∀ i, i < files.length → p.results[i]? =
      some (if cancelledAt allowed i then skipTask files i else b.exportTask files i)) :
    (b.gather p).outcome = (b.run allowed files).outcome := by
  have htasks : p.results = files.zipIdx.map (b.turnTask allowed) := by
    refine List.ext_getElem? fun i => ?_
    by_cases hi : i < files.length
    · have hinput : files[i]? = some files[i] := List.getElem?_eq_getElem hi
      rw [hresults i hi, List.getElem?_map, List.getElem?_zipIdx, hinput, skipTask, exportTask,
        inputAt_eq hinput, Option.map_some, Option.map_some, Nat.zero_add, turnTask]
    · rw [List.getElem?_eq_none (by omega), List.getElem?_eq_none]
      rw [List.length_map, List.length_zipIdx]
      omega
  rw [gather, htasks, List.mapM_map, outcome_run, Traced.outcome_bind]
  show (files.zipIdx.mapM (b.turnTask allowed)).outcome >>= _ = _
  cases hrun : (files.zipIdx.mapM (b.turnTask allowed)).outcome with
  | error e => rfl
  | ok rs =>
    -- the one is cancelled if it skipped a file, the other at the turn of one
    have hcancelled := any_skipped_eq (Traced.outcome_mapM_eq_ok_iff.1 hrun)
    show Except.ok (b.conclude rs) = Except.ok _
    rw [conclude, hcancelled]

/-! ## Complete runs -/

section Complete

variable {es : List PoolEvent} {p : Pool (Traced RunError FileResult)}

/-- Each file that was started has its result, and each other file is skipped. -/
theorem result_of_history (h : b.History files es p) (hdone : p.IsComplete) {i : Nat}
    {input : FileInput} (hinput : files[i]? = some input) :
    (b.Started files es i → p.results[i]? = some (b.exportOne i input)) ∧
      (¬b.Started files es i → p.results[i]? = some (pure (skip i input))) := by
  have hi : i < files.length := (List.getElem?_eq_some_iff.1 hinput).1
  obtain ⟨a, ha, hresult⟩ := h.follows.exists_answer hdone hi
  rw [skipTask, exportTask, inputAt_eq hinput] at hresult
  rw [Started, Pool.started_iff h]
  constructor
  · intro hstarted
    rw [h.follows.answer_unique ha hstarted] at hresult
    exact hresult
  · intro hstarted
    cases a with
    | true => exact hresult
    | false => exact absurd ha hstarted

/-- Where files are exported without failure, there is an end of the run. -/
theorem exists_gather_of_history
    (hreturns : ∀ i input, files[i]? = some input → ∃ r, (b.exportOne i input).outcome = .ok r)
    (h : b.History files es p) (hdone : p.IsComplete) :
    ∃ run, (b.gather p).outcome = .ok run := by
  refine exists_outcome_gather fun x hx => ?_
  obtain ⟨i, hx⟩ := List.mem_iff_getElem?.1 hx
  have hi : i < files.length := by
    rw [← h.follows.length_results hdone]
    exact (List.getElem?_eq_some_iff.1 hx).1
  have hinput : files[i]? = some files[i] := List.getElem?_eq_getElem hi
  obtain ⟨hstarted, hskipped⟩ := result_of_history h hdone hinput
  by_cases hcase : b.Started files es i
  · obtain rfl := Option.some.inj (hx.symm.trans (hstarted hcase))
    exact hreturns i _ hinput
  · obtain rfl := Option.some.inj (hx.symm.trans (hskipped hcase))
    exact ⟨_, Traced.outcome_pure _⟩

/-- In a run without cancellation, every task is told so. -/
theorem told_of_not_cancelled {i : Nat} {a : Bool} (hcancel : .cancel ∉ es)
    (ha : (i, a) ∈ Pool.answers es) : a = false := by
  obtain ⟨pre, post, rfl, rfl⟩ := Pool.exists_ask_of_mem_answersFrom ha
  rw [Bool.false_or, ← Bool.not_eq_true, List.contains_iff_mem]
  exact fun hmem => hcancel (List.mem_append_left _ hmem)

/-- A run without cancellation is the run of one file after another. -/
theorem outcome_gather_of_not_cancelled (h : b.History files es p) (hdone : p.IsComplete)
    (hcancel : .cancel ∉ es) : (b.gather p).outcome = (b.run none files).outcome := by
  refine outcome_gather_eq_outcome_run (h.follows.length_results hdone) fun i hi => ?_
  obtain ⟨a, ha, hresult⟩ := h.follows.exists_answer hdone hi
  rw [told_of_not_cancelled hcancel ha] at hresult
  exact hresult

/-- A run in order is the run of one file after another. -/
theorem outcome_gather_of_inOrder {allowed : Option Nat} (h : b.History files es p)
    (hdone : p.IsComplete) (hgrants : Pool.grants es = List.range files.length)
    (htold : Told allowed es) : (b.gather p).outcome = (b.run allowed files).outcome :=
  outcome_gather_eq_outcome_run (h.follows.length_results hdone) fun _ hi =>
    h.follows.results_inOrder hdone hgrants htold hi

/-- In a run in order, the files are skipped at whose turn the run is cancelled. -/
theorem skipped_iff_of_inOrder {allowed : Option Nat} (h : b.History files es p)
    (hdone : p.IsComplete) (hgrants : Pool.grants es = List.range files.length)
    (htold : Told allowed es) {run : RunResult} (hrun : (b.gather p).outcome = .ok run) {i : Nat}
    {r : FileResult} (hr : run.results[i]? = some r) :
    r.status = .skipped ↔ cancelledAt allowed i = true := by
  obtain ⟨hlength, hplaces⟩ := exists_getElem?_of_gather hrun
  have hi : i < files.length := by
    rw [← h.follows.length_results hdone, ← hlength]
    exact (List.getElem?_eq_some_iff.1 hr).1
  obtain ⟨r', hr', houtcome⟩ :=
    hplaces i _ (h.follows.results_inOrder hdone hgrants htold hi)
  obtain rfl := Option.some.inj (hr.symm.trans hr')
  exact skipped_iff_of_outcome_turnTask (q := (inputAt files i, i)) houtcome

/-- A run in order is cancelled exactly if it is at the turn of some file. -/
theorem cancelled_iff_of_inOrder {allowed : Option Nat} (h : b.History files es p)
    (hdone : p.IsComplete) (hgrants : Pool.grants es = List.range files.length)
    (htold : Told allowed es) {run : RunResult} (hrun : (b.gather p).outcome = .ok run) :
    run.cancelled = true ↔ ∃ i < files.length, cancelledAt allowed i = true := by
  have hlength : run.results.length = files.length := by
    rw [(exists_getElem?_of_gather hrun).1, h.follows.length_results hdone]
  rw [cancelled_of_gather hrun]
  constructor
  · rintro ⟨r, hr, hstatus⟩
    obtain ⟨i, hi⟩ := List.mem_iff_getElem?.1 hr
    exact ⟨i, hlength ▸ (List.getElem?_eq_some_iff.1 hi).1,
      (skipped_iff_of_inOrder h hdone hgrants htold hrun hi).1 hstatus⟩
  · rintro ⟨i, hi, hcancelled⟩
    have hr : run.results[i]? = some run.results[i] := List.getElem?_eq_getElem (hlength.symm ▸ hi)
    exact ⟨_, List.mem_of_getElem? hr,
      (skipped_iff_of_inOrder h hdone hgrants htold hrun hr).2 hcancelled⟩

end Complete

/-- The concurrent run that grants permits in order is the run of one file after another. -/
theorem outcome_runConcurrently (hpermits : 1 ≤ b.settings.exporting.parallelFiles)
    (allowed : Option Nat) :
    (b.runConcurrently allowed files).outcome = (b.run allowed files).outcome := by
  obtain ⟨es, hreach, horder, hdone⟩ := Pool.exists_inOrder_advanceTimes hpermits
    (cancelledAt_succ allowed) files.length (skipTask files) (b.exportTask files)
  have hgrants := horder.grants_eq hreach.follows hdone
  rw [← outcome_gather_of_inOrder hreach hdone hgrants horder.answered]
  exact Traced.outcome_bind_of_ok (Traced.outcome_write ..) _

/-- **A concurrent run agrees with exporting one file after another.** At each moment of each history, no
more files are in progress than there are permits, no task that asks after cancellation starts its file,
and the run can come to its end. At the end there is one result per file, that of exporting it if it was
started, and the run is cancelled exactly if a file was skipped. Without cancellation, and with permits
in the order of the files and a run that turns out to be cancelled after as many questions, the result is
that of exporting one file after another. -/
theorem concurrent_run_agrees (b : Batch) (files : List FileInput)
    (hpermits : 1 ≤ b.settings.exporting.parallelFiles)
    (hreturns : ∀ i input, files[i]? = some input → ∃ r, (b.exportOne i input).outcome = .ok r) :
    (∀ es p, b.History files es p →
      p.inProgress ≤ b.settings.exporting.parallelFiles ∧
      (∀ pre i post, es = pre ++ .ask i :: post → .cancel ∈ pre → ¬b.Started files es i) ∧
      (∃ fs q, b.History files (es ++ fs) q ∧ q.IsComplete) ∧
      (p.IsComplete → ∃ run, (b.gather p).outcome = .ok run ∧
        run.results.length = files.length ∧
        (∀ i input, files[i]? = some input → ∃ r, run.results[i]? = some r ∧
          (b.Started files es i → (b.exportOne i input).outcome = .ok r) ∧
          (¬b.Started files es i → r = skip i input)) ∧
        (run.cancelled = true ↔ ∃ r ∈ run.results, r.status = .skipped) ∧
        (.cancel ∉ es → (b.run none files).outcome = .ok run) ∧
        ∀ allowed, Pool.grants es = List.range files.length → Told allowed es →
          (b.run allowed files).outcome = .ok run ∧
          (∀ i r, run.results[i]? = some r →
            (r.status = .skipped ↔ cancelledAt allowed i = true)) ∧
          (run.cancelled = true ↔ ∃ i < files.length, cancelledAt allowed i = true))) ∧
    ∀ allowed, (b.runConcurrently allowed files).outcome = (b.run allowed files).outcome := by
  refine ⟨fun es p h => ⟨h.follows.inProgress_le, fun pre i post hes hcancel =>
    Pool.not_started_of_cancelled h hes hcancel, h.exists_complete hpermits, fun hdone => ?_⟩,
    outcome_runConcurrently hpermits⟩
  obtain ⟨run, hrun⟩ := exists_gather_of_history hreturns h hdone
  obtain ⟨hlength, hplaces⟩ := exists_getElem?_of_gather hrun
  refine ⟨run, hrun, hlength.trans (h.follows.length_results hdone), ?_, cancelled_of_gather hrun,
    ?_, ?_⟩
  · intro i input hinput
    obtain ⟨hstarted, hskipped⟩ := result_of_history h hdone hinput
    by_cases hcase : b.Started files es i
    · obtain ⟨r, hr, houtcome⟩ := hplaces i _ (hstarted hcase)
      exact ⟨r, hr, fun _ => houtcome, fun hnot => absurd hcase hnot⟩
    · obtain ⟨r, hr, houtcome⟩ := hplaces i _ (hskipped hcase)
      exact ⟨r, hr, fun hyes => absurd hyes hcase, fun _ => (Except.ok.inj houtcome).symm⟩
  · intro hcancel
    rw [← outcome_gather_of_not_cancelled h hdone hcancel, hrun]
  · intro allowed hgrants htold
    refine ⟨?_, fun i r hr => skipped_iff_of_inOrder h hdone hgrants htold hrun hr,
      cancelled_iff_of_inOrder h hdone hgrants htold hrun⟩
    rw [← outcome_gather_of_inOrder h hdone hgrants htold, hrun]

/-- The batch of the default settings, with two files at a time. -/
def inPairs (root : String) : Batch :=
  { standard root with
    settings := { Settings.standard with
      exporting := { ExportSection.standard with parallelFiles := 2 } } }

/-- Two files that say no more than where they are. -/
def twoFiles : List FileInput :=
  [.raw (.record [("path", .str "a.php")]), .raw (.record [("path", .str "b.php")])]

/-- Two files have their permits at once, and the run is cancelled between their questions: it is the
run that exports the first file and is cancelled after it. -/
theorem concurrent_run_agrees_cancelled :
    ∃ p run, (inPairs "/srv").History twoFiles
        [.grant 0, .grant 1, .ask 0, .cancel, .ask 1, .finish 0] p ∧
      p.IsComplete ∧ ((inPairs "/srv").gather p).outcome = .ok run ∧
      ((inPairs "/srv").run (some 1) twoFiles).outcome = .ok run ∧
      run.results.map (·.status) = [.completed, .skipped] ∧ run.cancelled = true := by
  have hreturns : ∀ i input, twoFiles[i]? = some input →
      ∃ r, ((inPairs "/srv").exportOne i input).outcome = .ok r := by
    intro i input hinput
    refine exists_outcome_exportOne rfl (fun hstuck => ?_) i
    have hmem := List.mem_of_getElem? hinput
    rw [twoFiles, List.mem_cons, List.mem_singleton] at hmem
    rcases hmem with rfl | rfl
    · have hfault := classify_eq_noItems_iff.2 hstuck
      cases hfault
    · have hfault := classify_eq_noItems_iff.2 hstuck
      cases hfault
  obtain ⟨p, hhistory, hdone⟩ : ∃ p, (inPairs "/srv").History twoFiles
      [.grant 0, .grant 1, .ask 0, .cancel, .ask 1, .finish 0] p ∧ p.IsComplete := by
    have hgranted : (inPairs "/srv").History twoFiles [.grant 0, .grant 1] _ :=
      (Pool.Reaches.start.step rfl).step rfl
    have hasked : (inPairs "/srv").History twoFiles [.grant 0, .grant 1, .ask 0, .cancel] _ :=
      (hgranted.step rfl).step rfl
    have hended : (inPairs "/srv").History twoFiles
        [.grant 0, .grant 1, .ask 0, .cancel, .ask 1, .finish 0] _ := (hasked.step rfl).step rfl
    exact ⟨_, hended, List.forall_mem_cons.2 ⟨⟨_, rfl⟩, List.forall_mem_cons.2 ⟨⟨_, rfl⟩, fun t ht =>
      absurd ht List.not_mem_nil⟩⟩⟩
  obtain ⟨run, hrun, -, -, -, -, horder⟩ :=
    ((concurrent_run_agrees (inPairs "/srv") _ (by decide) hreturns).1 _ p hhistory).2.2.2 hdone
  obtain ⟨hsame, -, -⟩ := horder (some 1) rfl rfl
  have hstatuses : ((inPairs "/srv").run (some 1) twoFiles).outcome.map
      (fun run => (run.results.map (·.status), run.cancelled)) = .ok ([.completed, .skipped], true) :=
    rfl
  rw [hsame] at hstatuses
  obtain ⟨hresults, hcancelled⟩ := Prod.mk.inj (Except.ok.inj hstatuses)
  exact ⟨p, run, hhistory, hdone, hrun, hsame, hresults, hcancelled⟩

end DocTree.Batch
