import DocTree.Proofs.Log.Outcome
import DocTree.Proofs.Source.Classifying
import DocTree.Run.Batch
import Mathlib.Data.List.Forall2

/-!
# Each file of a run stands alone

A run that goes on after failures records every file that cannot be exported, with one exception: a
document in which classification gets stuck (`Stuck`) ends the whole run. If no input is such a
document, the run has one result for each input, in order, and each result depends on its own input
alone (`run_complete_iff_not_stuck`).

The run is a recursion over the inputs. `outcome_exportFrom` gives its outcome as that of one task per
file, `outcome_run_eq_ok_iff` relates inputs and results one by one, and everything else is read off
that relation.
-/

namespace DocTree

/-- Classification gets stuck in the input. -/
def FileInput.Stuck (r : Registry) : FileInput → Prop
  | .checked _ => False
  | .raw v => DocTree.Stuck r v

/-- The file was exported and has a record, or it failed and the failure is reported. -/
def FileResult.Settled (r : FileResult) : Prop :=
  (r.status = .completed ∧ r.record.isSome = true) ∨ (r.status = .failed ∧ r.error.isSome = true)

/-- A run with the results of more files, at some of whose turns it may have been cancelled. -/
def RunResult.extend (run : RunResult) (cancelled : Bool) (rs : List FileResult) : RunResult :=
  { run with cancelled := run.cancelled || cancelled, results := run.results ++ rs }

theorem RunResult.extend_extend (run : RunResult) (c d : Bool) (rs ss : List FileResult) :
    (run.extend c rs).extend d ss = run.extend (c || d) (rs ++ ss) := by
  simp only [RunResult.extend, Bool.or_assoc, List.append_assoc]

namespace Batch

variable {b : Batch}

/-! ## One file -/

theorem sourceFile_eq_noItems_iff (path : String) {input : FileInput} :
    b.sourceFile path input = .error .noItems ↔ input.Stuck b.registry := by
  cases input with
  | checked f =>
    constructor
    · intro h
      cases h
    · exact False.elim
  | raw v =>
    rw [FileInput.Stuck, ← classify_eq_noItems_iff, sourceFile]
    cases classify b.registry v with
    | ok w =>
      constructor
      · intro h
        dsimp only at h
        split at h <;> cases h
      · intro h
        cases h
    | error e =>
      cases e with
      | rejected r =>
        constructor
        · intro h
          cases h
        · intro h
          cases h
      | noItems => exact ⟨fun _ => rfl, fun _ => rfl⟩

theorem outcome_record_eq_noItems_iff {path : String} {input : FileInput} :
    (b.record path input).outcome = .error .noItems ↔ input.Stuck b.registry := by
  rw [← sourceFile_eq_noItems_iff path, record]
  cases h : b.sourceFile path input with
  | error e =>
    rw [Traced.outcome_bind_of_error (Traced.outcome_ofExcept _), Except.error.injEq,
      Except.error.injEq]
  | ok f =>
    rw [Traced.outcome_bind_of_ok (Traced.outcome_ofExcept _), Traced.outcome_mapError]
    cases (b.exporter.file b.root f).outcome with
    | ok v =>
      constructor
      · intro h
        cases h
      · intro h
        cases h
    | error e =>
      constructor
      · intro h
        cases h
      · intro h
        cases h

/-- What becomes of a file, its log forgotten. -/
theorem outcome_exportOne (b : Batch) (index : Nat) (input : FileInput) :
    (b.exportOne index input).outcome =
      match (b.record (input.path index) input).outcome with
      | .ok record => .ok ⟨input.path index, .completed, some record, none, none⟩
      | .error (.failure f) =>
        if b.settings.exporting.continueOnError then .ok (failedResult (input.path index) f)
        else .error (.failed f.error)
      | .error .noItems => .error .noItems := by
  show (match (b.record (input.path index) input).outcome with
    | .ok record => (do
        Logged.write ⟨.debug, runLogSource, "Exported " ++ input.path index⟩
        return .ok ⟨input.path index, .completed, some record, none, none⟩ :
        Logged (Except RunError FileResult))
    | .error (.failure f) =>
      if b.settings.exporting.continueOnError then do
        Logged.write ⟨.warning, runLogSource,
          "Failed to export " ++ input.path index ++ ": " ++ f.report⟩
        return .ok (failedResult (input.path index) f)
      else return .error (.failed f.error)
    | .error .noItems => return .error .noItems).value = _
  split
  · rfl
  · split <;> rfl
  · rfl

/-- A file in which classification gets stuck ends the run. -/
theorem outcome_exportOne_of_stuck {input : FileInput} (h : input.Stuck b.registry) (index : Nat) :
    (b.exportOne index input).outcome = .error .noItems := by
  rw [outcome_exportOne, outcome_record_eq_noItems_iff.2 h]

/-- Any other file has a result in a run that goes on after failures. -/
theorem exists_outcome_exportOne (hgo : b.settings.exporting.continueOnError = true)
    {input : FileInput} (h : ¬input.Stuck b.registry) (index : Nat) :
    ∃ r, (b.exportOne index input).outcome = .ok r := by
  rw [outcome_exportOne]
  cases hrecord : (b.record (input.path index) input).outcome with
  | ok record => exact ⟨_, rfl⟩
  | error e =>
    cases e with
    | failure f => exact ⟨failedResult (input.path index) f, if_pos hgo⟩
    | noItems => exact absurd (outcome_record_eq_noItems_iff.1 hrecord) h

/-- The result of a file names the file, and it is settled. -/
theorem settled_of_outcome_exportOne {index : Nat} {input : FileInput} {r : FileResult}
    (h : (b.exportOne index input).outcome = .ok r) : r.path = input.path index ∧ r.Settled := by
  rw [outcome_exportOne] at h
  split at h
  · cases h
    exact ⟨rfl, .inl ⟨rfl, rfl⟩⟩
  · split at h
    · cases h
      exact ⟨rfl, .inr ⟨rfl, rfl⟩⟩
    · cases h
  · cases h

/-! ## All files -/

/-- What is done about a file at its turn. -/
def turnTask (b : Batch) (allowed : Option Nat) (q : FileInput × Nat) : Traced RunError FileResult :=
  if cancelledAt allowed q.2 then pure (skip q.2 q.1) else b.exportOne q.2 q.1

/-- A file is skipped at its turn exactly if the run has been cancelled. -/
theorem skipped_iff_of_outcome_turnTask {allowed : Option Nat} {q : FileInput × Nat} {r : FileResult}
    (h : (b.turnTask allowed q).outcome = .ok r) :
    r.status = .skipped ↔ cancelledAt allowed q.2 = true := by
  rw [turnTask] at h
  split at h
  · next hcancelled =>
    cases h
    exact ⟨fun _ => hcancelled, fun _ => rfl⟩
  · next hcancelled =>
    -- an exported file is completed or failed
    obtain ⟨-, ⟨hstatus, -⟩ | ⟨hstatus, -⟩⟩ := settled_of_outcome_exportOne h
    · simp only [hstatus, hcancelled, reduceCtorEq]
    · simp only [hstatus, hcancelled, reduceCtorEq]

theorem outcome_exportNext (b : Batch) (allowed : Option Nat) (index : Nat) (input : FileInput)
    (run : RunResult) : (b.exportNext allowed index input run).outcome =
      (b.turnTask allowed (input, index)).outcome.map fun r =>
        run.extend (cancelledAt allowed index) [r] := by
  rw [exportNext, turnTask]
  cases cancelledAt allowed index with
  | true =>
    rw [if_pos rfl, if_pos rfl]
    show Except.ok _ = Except.ok (run.extend true [skip index input])
    rw [RunResult.extend, Bool.or_true]
  | false =>
    rw [if_neg Bool.false_ne_true, if_neg Bool.false_ne_true, Traced.outcome_bind]
    cases (b.exportOne index input).outcome with
    | error e => rfl
    | ok r =>
      show Except.ok _ = Except.ok (run.extend false [r])
      rw [RunResult.extend, Bool.or_false]

/-- **Files are exported one by one**, and the run is cancelled if it is at the turn of one. -/
theorem outcome_exportFrom (b : Batch) (allowed : Option Nat) (index : Nat) (files : List FileInput)
    (run : RunResult) : (b.exportFrom allowed index files run).outcome =
      ((files.zipIdx index).mapM (b.turnTask allowed)).outcome.map fun rs =>
        run.extend ((files.zipIdx index).any fun q => cancelledAt allowed q.2) rs := by
  induction files generalizing index run with
  | nil =>
    show Except.ok run = Except.ok (run.extend false [])
    rw [RunResult.extend, Bool.or_false, List.append_nil]
  | cons input rest ih =>
    rw [exportFrom, Traced.outcome_bind, outcome_exportNext, List.zipIdx_cons, List.mapM_cons,
      Traced.outcome_bind]
    cases (b.turnTask allowed (input, index)).outcome with
    | error e => rfl
    | ok r =>
      show (b.exportFrom allowed (index + 1) rest _).outcome =
        Except.map _ (Traced.outcome (_ >>= fun rs => pure (r :: rs)))
      rw [ih, Traced.outcome_bind]
      cases ((rest.zipIdx (index + 1)).mapM (b.turnTask allowed)).outcome with
      | error e => rfl
      | ok rs => exact congrArg Except.ok (run.extend_extend _ _ [r] rs)

/-! ## The run -/

/-- A run ends with a result for each input, in order, none of which was skipped. -/
structure Complete (files : List FileInput) (run : RunResult) : Prop where
  not_cancelled : run.cancelled = false
  length : run.results.length = files.length
  settled : ∀ (i : Nat) (input : FileInput) (r : FileResult), files[i]? = some input →
    run.results[i]? = some r → r.path = input.path i ∧ r.Settled

/-- The outcome of a run, its log forgotten. -/
theorem outcome_run (b : Batch) (allowed : Option Nat) (files : List FileInput) :
    (b.run allowed files).outcome =
      (files.zipIdx.mapM (b.turnTask allowed)).outcome.map fun rs =>
        ⟨b.root, rs, files.zipIdx.any fun q => cancelledAt allowed q.2⟩ := by
  rw [Batch.run, Traced.outcome_bind_of_ok (Traced.outcome_write ..), Traced.outcome_bind,
    outcome_exportFrom]
  cases (files.zipIdx.mapM (b.turnTask allowed)).outcome <;> rfl

/-- Inputs and results of a run that is not cancelled are related one by one. -/
theorem outcome_run_eq_ok_iff {files : List FileInput} {run : RunResult} :
    (b.run none files).outcome = .ok run ↔
      ∃ rs, List.Forall₂ (fun q r => (b.exportOne q.2 q.1).outcome = .ok r) files.zipIdx rs ∧
        run = ⟨b.root, rs, false⟩ := by
  have hnone : (files.zipIdx.any fun q => cancelledAt none q.2) = false :=
    List.any_eq_false.2 fun _ _ => Bool.false_ne_true
  simp only [outcome_run, hnone, ← Traced.outcome_mapM_eq_ok_iff]
  have htask : b.turnTask none = fun q => b.exportOne q.2 q.1 := rfl
  rw [htask]
  cases (files.zipIdx.mapM fun q => b.exportOne q.2 q.1).outcome with
  | error e => simp only [Except.map, reduceCtorEq, false_and, exists_false]
  | ok rs => simp only [Except.map, Except.ok.injEq, exists_eq_left', eq_comm]

/-- Files that each have a result are exported. -/
theorem exists_outcome_run (hgo : b.settings.exporting.continueOnError = true)
    {files : List FileInput} (h : ∀ input ∈ files, ¬input.Stuck b.registry) :
    ∃ run, (b.run none files).outcome = .ok run := by
  obtain ⟨rs, hrs⟩ := Traced.exists_outcome_mapM (f := b.turnTask none) (l := files.zipIdx)
    fun q hq => exists_outcome_exportOne hgo (h q.1 (List.fst_mem_of_mem_zipIdx hq)) q.2
  exact ⟨_, outcome_run_eq_ok_iff.2 ⟨rs, Traced.outcome_mapM_eq_ok_iff.1 hrs, rfl⟩⟩

/-- The result at a position is that of the input there. -/
theorem outcome_exportOne_of_run {files : List FileInput} {run : RunResult}
    (h : (b.run none files).outcome = .ok run) :
    run.results.length = files.length ∧ ∀ (i : Nat) (input : FileInput) (r : FileResult),
      files[i]? = some input → run.results[i]? = some r →
        (b.exportOne i input).outcome = .ok r := by
  -- inputs and results are related one by one; read the relation off at position `i`
  obtain ⟨rs, hall, rfl⟩ := outcome_run_eq_ok_iff.1 h
  have hlength : rs.length = files.length := by
    rw [← hall.length_eq, List.length_zipIdx]
  refine ⟨hlength, fun i input r hinput hr => ?_⟩
  obtain ⟨hi, hinput⟩ := List.getElem?_eq_some_iff.1 hinput
  obtain ⟨hi', hr⟩ := List.getElem?_eq_some_iff.1 hr
  have hone := hall.get (by rwa [List.length_zipIdx]) hi'
  rw [List.get_eq_getElem, List.get_eq_getElem, List.getElem_zipIdx, Nat.zero_add] at hone
  dsimp only at hone
  rw [hinput] at hone
  rw [hone]
  exact congrArg Except.ok hr

theorem complete_of_outcome_run {files : List FileInput} {run : RunResult}
    (h : (b.run none files).outcome = .ok run) : Complete files run := by
  obtain ⟨hlength, hresults⟩ := outcome_exportOne_of_run h
  have hsettled : ∀ (i : Nat) (input : FileInput) (r : FileResult), files[i]? = some input →
      run.results[i]? = some r → r.path = input.path i ∧ r.Settled := fun i input r hinput hr =>
    settled_of_outcome_exportOne (hresults i input r hinput hr)
  refine ⟨?_, hlength, hsettled⟩
  obtain ⟨rs, -, rfl⟩ := outcome_run_eq_ok_iff.1 h
  rfl

/-- A run with a file in which classification gets stuck has no result. -/
theorem not_stuck_of_outcome_run {files : List FileInput} {run : RunResult}
    (h : (b.run none files).outcome = .ok run) : ∀ input ∈ files, ¬input.Stuck b.registry := by
  obtain ⟨hlength, hresults⟩ := outcome_exportOne_of_run h
  intro input hmem hstuck
  obtain ⟨i, hi, rfl⟩ := List.getElem_of_mem hmem
  have hi' : i < run.results.length := by rwa [hlength]
  have hone := hresults i files[i] run.results[i] (List.getElem?_eq_getElem hi)
    (List.getElem?_eq_getElem hi')
  rw [outcome_exportOne_of_stuck hstuck] at hone
  cases hone

/-- Inputs that agree at a position have the same result there. -/
theorem results_eq_of_getElem? {files files' : List FileInput} {run run' : RunResult}
    (h : (b.run none files).outcome = .ok run) (h' : (b.run none files').outcome = .ok run')
    {i : Nat} (hi : files[i]? = files'[i]?) : run.results[i]? = run'.results[i]? := by
  obtain ⟨hlength, hresults⟩ := outcome_exportOne_of_run h
  obtain ⟨hlength', hresults'⟩ := outcome_exportOne_of_run h'
  by_cases hin : i < files.length
  · have hinput := List.getElem?_eq_getElem hin
    have hin' : i < files'.length := (List.getElem?_eq_some_iff.1 (hi ▸ hinput)).1
    have hr := List.getElem?_eq_getElem (l := run.results) (by rwa [hlength])
    have hr' := List.getElem?_eq_getElem (l := run'.results) (by rwa [hlength'])
    have hone := hresults i _ _ hinput hr
    rw [hresults' i _ _ (hi ▸ hinput) hr'] at hone
    rw [hr, hr', Except.ok.inj hone]
  · -- beyond the inputs there are no results
    have hout : files[i]? = none := List.getElem?_eq_none (Nat.le_of_not_lt hin)
    have hout' : files'.length ≤ i := List.getElem?_eq_none_iff.1 (hi ▸ hout)
    rw [List.getElem?_eq_none (by omega), List.getElem?_eq_none (by omega)]

/-- **A run that goes on after failures is complete exactly when classification gets stuck in no
input**, and then replacing one input leaves the results of the others unchanged. -/
theorem run_complete_iff_not_stuck (b : Batch) (files : List FileInput)
    (hgo : b.settings.exporting.continueOnError = true) :
    ((∃ run, (b.run none files).outcome = .ok run ∧ Complete files run) ↔
      ∀ input ∈ files, ¬input.Stuck b.registry) ∧
    ∀ (i : Nat) (input : FileInput) (run run' : RunResult), (b.run none files).outcome = .ok run →
      (b.run none (files.set i input)).outcome = .ok run' →
      ∀ j, j ≠ i → run'.results[j]? = run.results[j]? := by
  refine ⟨⟨?_, ?_⟩, ?_⟩
  · rintro ⟨run, hrun, -⟩
    exact not_stuck_of_outcome_run hrun
  · intro hfiles
    obtain ⟨run, hrun⟩ := exists_outcome_run hgo hfiles
    exact ⟨run, hrun, complete_of_outcome_run hrun⟩
  · intro i input run run' hrun hrun' j hj
    exact results_eq_of_getElem? hrun' hrun (List.getElem?_set_ne (Ne.symm hj))

/-- The batch of the default settings. -/
def standard (root : String) : Batch :=
  ⟨root, .standard, .standard, ⟨⟨⟨.standard, 3, true⟩, true⟩, defaultDeprecationFunctions⟩,
    shortWording⟩

/-- A run over a document that is no mapping and one with an empty doc comment is complete. -/
theorem run_complete_over_malformed :
    Batch.make shortWording "/srv" .standard .standard = .ok (standard "/srv") ∧
      ∃ run, ((standard "/srv").run none [.raw (.int 5), .raw (.record [("path", .str "a.php"),
        ("docblock", .map [])])]).outcome = .ok run := by
  have hfiles : ∀ input ∈ [FileInput.raw (.int 5), .raw (.record [("path", .str "a.php"),
      ("docblock", .map [])])], ¬input.Stuck (standard "/srv").registry := by
    intro input hinput hstuck
    rw [List.mem_cons, List.mem_singleton] at hinput
    rcases hinput with rfl | rfl
    · have hfault := classify_eq_noItems_iff.2 hstuck
      cases hfault
    · have hfault := classify_eq_noItems_iff.2 hstuck
      cases hfault
  obtain ⟨run, hrun, -⟩ := (run_complete_iff_not_stuck (standard "/srv") _ rfl).1.2 hfiles
  exact ⟨rfl, run, hrun⟩

/-- A number in the place of the annotations of one file ends the run over two files. -/
theorem run_stuck_at_number :
    (standard "/srv").settings.exporting.continueOnError = true ∧
      ¬∃ run, ((standard "/srv").run none [.raw (.record [("path", .str "a.php")]),
        .raw (.record [("docblock", .record [("tags", .int 5)]), ("path", .str "p")])]).outcome =
          .ok run := by
  refine ⟨rfl, ?_⟩
  rintro ⟨run, hrun⟩
  refine not_stuck_of_outcome_run hrun _ (List.mem_cons_of_mem _ List.mem_cons_self) ?_
  exact ⟨[], _, [], rfl, fun d hd => absurd hd List.not_mem_nil, rfl⟩

end Batch

end DocTree
