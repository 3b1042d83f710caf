import DocTree.Proofs.Run.Isolation
import DocTree.Proofs.Schema.Stability

/-!
# Records of a run

A run counts its files by what became of them and hands on the records that its results have. The rule
for a single result (`FileResult.payloadRule`) wants a record of a completed file and an error of a
failed one. It does not forbid a failed or a skipped file to have a record as well, and such a *stray*
record is handed on with the others. So the records of a run are those of its completed files exactly
if none of them is stray (`records_of_completed_iff`), and not for all results that obey the rule
(`records_with_stray`). The runs of a batch have no stray records (`not_stray_of_outcome_run`).
-/

namespace DocTree

open Schema Checked

/-- The result is one that a document can give. -/
def FileResult.Valid (f : FileResult) : Prop := ∃ v, FileResult.check v = .ok f

/-- The file was not completed, and has a record all the same. -/
def FileResult.Stray (f : FileResult) : Prop := f.status ≠ .completed ∧ f.record.isSome = true

/-- The results of the files that were completed, in order. -/
def RunResult.completed (r : RunResult) : List FileResult :=
  r.results.filter fun f => f.status == .completed

/-! ## Single results -/

section Results

variable {f : FileResult} {r : RunResult} {v : Value}

theorem FileResult.Valid.payloadRule (h : f.Valid) : f.payloadRule = none := by
  obtain ⟨v, hv⟩ := h
  obtain ⟨es, -, hes⟩ := ofFields_eq_ok_iff.1 hv
  exact (obeying_eq_ok_iff.1 hes).2

/-- A completed file has a record. -/
theorem FileResult.Valid.exists_record (h : f.Valid) (hstatus : f.status = .completed) :
    ∃ w, f.record = some w := by
  have hrule := h.payloadRule
  rw [FileResult.payloadRule, hstatus] at hrule
  cases hrecord : f.record with
  | some w => exact ⟨w, rfl⟩
  | none =>
    rw [hrecord] at hrule
    cases hrule

/-- The results of a run that a document gives are given by parts of the document. -/
theorem RunResult.valid_of_check (h : RunResult.check v = .ok r) : ∀ f ∈ r.results, f.Valid := by
  obtain ⟨es, -, hes⟩ := ofFields_eq_ok_iff.1 h
  rw [seq_eq_ok_iff] at hes
  simp only [exists_seq_eq_ok_iff, exists_fmap_eq_ok_iff] at hes
  obtain ⟨root, -, results, hresults, cancelled, -, rfl⟩ := hes
  rcases field_eq_ok_iff.1 hresults with ⟨w, -, hw⟩ | ⟨-, rfl⟩
  · obtain ⟨items, -, hitems⟩ := listOf_eq_ok_iff.1 hw
    exact forall_mem_of_forall₂ (fun u f hf => ⟨u, hf⟩) hitems
  · exact fun f hf => absurd hf List.not_mem_nil

end Results

/-! ## All results -/

namespace RunResult

variable {r : RunResult}

/-- Every file has one status. -/
theorem count_add_count (r : RunResult) :
    r.count .completed + r.count .failed + r.count .skipped = r.results.length := by
  simp only [count, ← List.countP_eq_length_filter]
  induction r.results with
  | nil => rfl
  | cons f fs ih =>
    have hone : ((if f.status == .completed then 1 else 0) + (if f.status == .failed then 1 else 0) +
        if f.status == .skipped then 1 else 0) = 1 := by
      cases f.status <;> rfl
    simp only [List.countP_cons, List.length_cons]
    omega

/-- Completed files and their records are related one by one. -/
theorem forall₂_completed (h : ∀ f ∈ r.results, f.Valid) :
    List.Forall₂ (fun f v => f.record = some v) r.completed (r.completed.filterMap (·.record)) := by
  have hall : ∀ f ∈ r.completed, ∃ w, f.record = some w := fun f hf =>
    (h f (List.mem_filter.1 hf).1).exists_record (beq_iff_eq.1 (List.mem_filter.1 hf).2)
  generalize r.completed = fs at hall
  induction fs with
  | nil => exact .nil
  | cons f fs ih =>
    obtain ⟨⟨w, hw⟩, hfs⟩ := List.forall_mem_cons.1 hall
    rw [List.filterMap_cons_some hw]
    exact .cons hw (ih hfs)

/-- The records of the completed files are handed on, in order. -/
theorem completed_sublist_records (r : RunResult) :
    (r.completed.filterMap (·.record)).Sublist r.records :=
  List.filter_sublist.filterMap _

/-- Beside the records of the completed files, the stray ones are handed on. -/
theorem length_records (r : RunResult) : r.records.length =
    (r.completed.filterMap (·.record)).length +
      r.results.countP fun f => f.record.isSome && !(f.status == .completed) := by
  rw [records, completed, List.length_filterMap_eq_countP, List.length_filterMap_eq_countP,
    List.countP_eq_countP_filter_add _ _ fun f => f.status == .completed]
  simp only [List.countP_filter]

/-- **The records are those of the completed files exactly if none is stray.** -/
theorem records_eq_iff :
    r.records = r.completed.filterMap (·.record) ↔ ∀ f ∈ r.results, ¬f.Stray := by
  have hnone : (∀ f ∈ r.results, ¬f.Stray) ↔
      (r.results.countP fun f => f.record.isSome && !(f.status == .completed)) = 0 := by
    rw [List.countP_eq_zero]
    refine forall_congr' fun f => forall_congr' fun _ => ?_
    simp only [FileResult.Stray, Bool.and_eq_true, Bool.not_eq_true', beq_eq_false_iff_ne, and_comm]
  have hlength := r.length_records
  rw [hnone]
  constructor
  · intro h
    rw [h] at hlength
    omega
  · intro h
    exact (r.completed_sublist_records.eq_of_length (by omega)).symm

end RunResult

/-- **A run hands on the records of its completed files, in order, and those alone exactly if no other
file has one.** Its counts always agree with its results. -/
theorem records_of_completed_iff {r : RunResult} (h : ∀ f ∈ r.results, f.Valid) :
    r.failures.length = r.count .failed ∧
    r.count .completed + r.count .failed + r.count .skipped = r.results.length ∧
    ∃ rs, List.Forall₂ (fun f v => f.record = some v) r.completed rs ∧
      rs.length = r.count .completed ∧ rs.Sublist r.records ∧
      (r.records = rs ↔ ∀ f ∈ r.results, ¬f.Stray) ∧
      (r.records.length = r.count .completed ↔ ∀ f ∈ r.results, ¬f.Stray) ∧
      ((∀ f ∈ r.results, ¬f.Stray) → ∀ indent, r.toJson indent = Json.write indent (.list rs)) := by
  have hrecords := r.forall₂_completed h
  have hlength : (r.completed.filterMap (·.record)).length = r.count .completed :=
    hrecords.length_eq.symm
  have hsublist := r.completed_sublist_records
  refine ⟨rfl, r.count_add_count, _, hrecords, hlength, hsublist, RunResult.records_eq_iff, ?_, ?_⟩
  · rw [← hlength, ← RunResult.records_eq_iff]
    exact ⟨fun h => (hsublist.eq_of_length h.symm).symm, congrArg List.length⟩
  · intro hstray indent
    rw [RunResult.toJson, RunResult.records_eq_iff.2 hstray]

/-- The results of two files: one that was completed, and one that failed over a part of its record. -/
def runOfTwo (record : List (String × Value)) : Value :=
  .record [("root", .str "/srv"), ("results", .list [
    .record [("path", .str "a.php"), ("status", .str "completed"), ("record", .record [])],
    .record ([("path", .str "b.php"), ("status", .str "failed"), ("error", .str "boom")] ++ record)])]

/-- The record of the completed file alone is handed on if the failed one has none. -/
theorem records_of_completed_runOfTwo : ∃ r rs, RunResult.check (runOfTwo []) = .ok r ∧
    r.records = rs ∧ rs.length = 1 ∧ r.toJson none = Json.write none (.list rs) := by
  obtain ⟨r, hr, hcount⟩ : ∃ r, RunResult.check (runOfTwo []) = .ok r ∧ r.count .completed = 1 :=
    ⟨_, rfl, rfl⟩
  have hstray : ∀ f ∈ r.results, ¬f.Stray := by
    cases hr
    rintro f hf ⟨hstatus, hrecord⟩
    simp only [List.mem_cons, List.not_mem_nil, or_false] at hf
    rcases hf with rfl | rfl
    · exact hstatus rfl
    · cases hrecord
  obtain ⟨-, -, rs, -, hlength, -, hrecords, -, hjson⟩ :=
    records_of_completed_iff (RunResult.valid_of_check hr)
  exact ⟨r, rs, hr, hrecords.2 hstray, hlength.trans hcount, hjson hstray none⟩

/-- The record of a failed file is handed on with the others. -/
theorem records_with_stray : ∃ r, RunResult.check (runOfTwo [("record", .record [])]) = .ok r ∧
    r.count .completed = 1 ∧ r.records.length = 2 := ⟨_, rfl, rfl, rfl⟩

/-! ## The runs of a batch -/

namespace Batch

variable {b : Batch} {allowed : Option Nat} {files : List FileInput} {f : FileResult}

/-- What is recorded about a file that was started is not stray. -/
theorem not_stray_of_outcome_exportOne {i : Nat} {input : FileInput}
    (h : (b.exportOne i input).outcome = .ok f) : ¬f.Stray := by
  rintro ⟨hstatus, hrecord⟩
  rw [outcome_exportOne] at h
  split at h
  · cases h
    exact hstatus rfl
  · split at h
    · cases h
      cases hrecord
    · cases h
  · cases h

theorem not_stray_of_outcome_turnTask {q : FileInput × Nat}
    (h : (b.turnTask allowed q).outcome = .ok f) : ¬f.Stray := by
  rw [turnTask] at h
  split at h
  · cases h
    exact fun hstray => by cases hstray.2
  · exact not_stray_of_outcome_exportOne h

/-- **A run of a batch has no stray records**, wherever it is cancelled. -/
theorem not_stray_of_outcome_run {run : RunResult} (h : (b.run allowed files).outcome = .ok run) :
    ∀ f ∈ run.results, ¬f.Stray := by
  rw [outcome_run] at h
  cases hrs : (files.zipIdx.mapM (b.turnTask allowed)).outcome with
  | error e =>
    rw [hrs] at h
    cases h
  | ok rs =>
    rw [hrs] at h
    cases h
    have hall := Traced.outcome_mapM_eq_ok_iff.1 hrs
    exact forall_mem_of_forall₂ (fun q f hf => not_stray_of_outcome_turnTask hf) hall

end Batch

end DocTree
