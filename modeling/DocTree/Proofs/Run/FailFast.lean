import DocTree.Proofs.Record.Strictness
import DocTree.Proofs.Run.Isolation
import DocTree.Proofs.Source.Classified
import DocTree.Proofs.Source.Stability

/-!
# Going on after failures and stopping at the first one

Settings may ask to go on after a file that fails or to stop there. Both kinds of run see the same
failures: where the run that goes on has no failed result, the run that stops has the same results, and
otherwise it ends with the failure of the first failed result, naming the same file and the same place
in it (`failFast_run`).

The two kinds of batch differ only in what they do with a failure (`record_goingOn`), so the matter
comes down to one file: a failure is laid at the path under which its input is known
(`path_of_outcome_record`). That is immediate for documents that are rejected and for elements at
fault. A fault in the doc comment of a whole file names the file itself, and the path of the file is
that of its document because classification leaves scalars alone (`path_of_sourceFile`).
-/

namespace DocTree

open Schema Checked

/-! ## Settings and batches that go on or stop -/

/-- The settings, going on after a file that fails or stopping there. -/
def Settings.goingOn (s : Settings) (go : Bool) : Settings :=
  { s with exporting := { s.exporting with continueOnError := go } }

/-- The failed result records the failure: the file and the place in it. -/
def FileError.RecordedBy (e : FileError) (r : FileResult) : Prop := e.path = r.path ∧ e.place = r.place

namespace Batch

/-- The batch, going on after a file that fails or stopping there. -/
def goingOn (b : Batch) (go : Bool) : Batch := { b with settings := b.settings.goingOn go }

/-- A batch takes from its settings whether to go on, and nothing else depends on that. -/
theorem make_goingOn (wording : Wording) (root : String) (s : Settings) (base : Registry) (go : Bool) :
    Batch.make wording root (s.goingOn go) base =
      (Batch.make wording root s base).map (goingOn · go) := by
  rw [Batch.make, Batch.make]
  show (s.registry base >>= _) = _
  cases s.registry base <;> rfl

/-- Files are read and exported in the same way, whether the run goes on or not. -/
theorem record_goingOn (b : Batch) (go : Bool) (path : String) (input : FileInput) :
    (b.goingOn go).record path input = b.record path input := rfl

/-! ## The path of a failure -/

/-- A file keeps the path that its document has. -/
theorem path_raw_of_check {r : Registry} {v w : Value} {f : SourceFile} (hw : classify r v = .ok w)
    (hf : SourceFile.check w = .ok f) (index : Nat) : (FileInput.raw v).path index = f.path := by
  obtain ⟨fs, rfl, hpath, -⟩ := SourceFile.check_eq_ok_iff.1 hf
  obtain ⟨p, hp, hread⟩ := required_eq_ok_iff.1 hpath
  obtain ⟨rfl, hne⟩ := nonEmptyText_eq_ok_iff.1 hread
  obtain ⟨es, rfl⟩ := exists_of_classify_eq_map hw
  obtain ⟨fs', hfs, hsame⟩ := classify_map_eq_ok_iff.1 hw
  obtain rfl := Value.map.inj hsame
  have hgiven : Entries.get? "path" es = some (.str f.path) := get?_of_classifyEntries hfs hp
  have htruthy : (Value.str f.path).truthy = true := bne_iff_ne.2 hne
  simp only [FileInput.path, hgiven, htruthy, if_true]
  rfl

/-- The file of an input has the path under which the input is known. -/
theorem path_of_sourceFile {b : Batch} {path : String} {index : Nat} {input : FileInput}
    {f : SourceFile} (h : b.sourceFile path input = .ok f) : input.path index = f.path := by
  cases input with
  | checked g =>
    obtain rfl := Except.ok.inj h
    rfl
  | raw v =>
    rw [sourceFile] at h
    split at h
    · cases h
    · cases h
    · next w hw =>
      split at h
      · next g hg =>
        obtain rfl := Except.ok.inj h
        exact path_raw_of_check hw (against_eq_ok_iff.1 hg) index
      · cases h

/-- A document that is rejected is rejected under the path it is known by. -/
theorem path_of_sourceFile_failure {b : Batch} {path : String} {input : FileInput} {f : Failure}
    (h : b.sourceFile path input = .error (.failure f)) : f.error.path = path := by
  cases input with
  | checked g => cases h
  | raw v =>
    rw [sourceFile] at h
    split at h
    · cases h
    · obtain rfl := Obstacle.failure.inj (Except.error.inj h)
      rfl
    · split at h
      · cases h
      · obtain rfl := Obstacle.failure.inj (Except.error.inj h)
        rfl

/-- The only owner in a file that is a file is the file itself. -/
theorem path_of_mem_owners {f : SourceFile} {path : String} {d : Option Docblock}
    (h : Owner.file path d ∈ f.owners) : path = f.path := by
  simp only [SourceFile.owners, FunctionDecl.owners, ClassDecl.owners, MethodDecl.owners, Hook.owner,
    PropertyDecl.owner, List.mem_cons, List.mem_append, List.mem_map, List.mem_flatMap, reduceCtorEq,
    List.not_mem_nil, and_false, exists_false, or_false, Owner.file.injEq] at h
  exact h.1

/-- A failure that names a file names the one that is exported. -/
theorem path_of_outcome_file {x : Exporter} {root : String} {f : SourceFile} {e : FileError}
    (h : (x.file root f).outcome = .error (.file e)) : e.path = f.path := by
  obtain ⟨⟨dialect, lenient⟩, markers⟩ := x
  have hfile := failsOnlyFor_file dialect markers root f
  cases lenient with
  | true =>
    obtain ⟨record, hrecord, -⟩ := hfile
    cases h.symm.trans hrecord
  | false =>
    obtain ⟨before, o, after, cause, hsplit, -, -, hblame⟩ :=
      firstFailure?_eq_some_iff.1 ((hfile.outcome_eq_error_iff _).1 h)
    cases o with
    | element kind head => cases hblame
    | file path d =>
      obtain rfl := ExportError.file.inj hblame
      exact path_of_mem_owners (hsplit ▸ List.mem_append_right before List.mem_cons_self)

/-- **A failure is laid at the path under which the input is known.** -/
theorem path_of_outcome_record {b : Batch} {index : Nat} {input : FileInput} {f : Failure}
    (h : (b.record (input.path index) input).outcome = .error (.failure f)) :
    f.error.path = input.path index := by
  rw [record] at h
  cases hfile : b.sourceFile (input.path index) input with
  | error o =>
    rw [hfile, Traced.outcome_bind_of_error (Traced.outcome_ofExcept _)] at h
    obtain rfl := Except.error.inj h
    exact path_of_sourceFile_failure hfile
  | ok g =>
    rw [hfile, Traced.outcome_bind_of_ok (Traced.outcome_ofExcept _), Traced.outcome_mapError] at h
    cases hexport : (b.exporter.file b.root g).outcome with
    | ok record =>
      rw [hexport] at h
      cases h
    | error e =>
      rw [hexport] at h
      obtain rfl := Obstacle.failure.inj (Except.error.inj h)
      cases e with
      | element e => rfl
      | file e => exact (path_of_outcome_file hexport).trans (path_of_sourceFile hfile).symm

/-! ## One file -/

/-- What a batch that goes on records as a failure ends the run of one that stops; nothing else
differs. -/
theorem outcome_exportOne_stopping {b : Batch} {index : Nat} {input : FileInput} {r : FileResult}
    (h : ((b.goingOn true).exportOne index input).outcome = .ok r) :
    if r.status == .failed then
      ∃ err, ((b.goingOn false).exportOne index input).outcome = .error err ∧
        ∃ e, err = .failed e ∧ e.RecordedBy r
    else ((b.goingOn false).exportOne index input).outcome = .ok r := by
  rw [outcome_exportOne, record_goingOn] at h ⊢
  cases hrecord : (b.record (input.path index) input).outcome with
  | ok record =>
    rw [hrecord] at h
    obtain rfl := Except.ok.inj h
    exact rfl
  | error o =>
    rw [hrecord] at h
    cases o with
    | noItems => cases h
    | failure f =>
      obtain rfl := Except.ok.inj h
      exact ⟨.failed f.error, rfl, f.error, rfl, path_of_outcome_record hrecord, rfl⟩

/-- The same at the turn of a file, which may be skipped. -/
theorem outcome_turnTask_stopping {b : Batch} {allowed : Option Nat} {q : FileInput × Nat}
    {r : FileResult} (h : ((b.goingOn true).turnTask allowed q).outcome = .ok r) :
    if r.status == .failed then
      ∃ err, ((b.goingOn false).turnTask allowed q).outcome = .error err ∧
        ∃ e, err = .failed e ∧ e.RecordedBy r
    else ((b.goingOn false).turnTask allowed q).outcome = .ok r := by
  rw [turnTask] at h ⊢
  cases hcancelled : cancelledAt allowed q.2 with
  | true =>
    rw [hcancelled, if_pos rfl] at h
    obtain rfl := Except.ok.inj h
    exact rfl
  | false =>
    rw [hcancelled, if_neg Bool.false_ne_true] at h
    rw [if_neg Bool.false_ne_true]
    exact outcome_exportOne_stopping h

/-! ## The run -/

/-- Files that each have a result have one at their turns. -/
theorem exists_outcome_turnTasks {b : Batch} {files : List FileInput} (allowed : Option Nat)
    (h : ∀ i input, files[i]? = some input → ∃ r, (b.exportOne i input).outcome = .ok r) :
    ∃ rs, (files.zipIdx.mapM (b.turnTask allowed)).outcome = .ok rs := by
  refine Traced.exists_outcome_mapM fun q hq => ?_
  rw [turnTask]
  split
  · exact ⟨_, rfl⟩
  · exact h q.2 q.1 (List.mk_mem_zipIdx_iff_getElem?.1 hq)

/-- **Going on and stopping describe the same failures.** If each file has a result in a batch that goes
on, a run of it has results, however often it is told that it is not cancelled. The batch that stops,
all else being the same, has the same run if none of them failed, and else ends with the failure of the
first failed result, which has the path and the place of that result. -/
theorem failFast_run (wording : Wording) (root : String) (s : Settings) (base : Registry) {b : Batch}
    (hb : Batch.make wording root (s.goingOn true) base = .ok b) (allowed : Option Nat)
    (files : List FileInput)
    (hfiles : ∀ i input, files[i]? = some input → ∃ r, (b.exportOne i input).outcome = .ok r) :
    ∃ stopping run, Batch.make wording root (s.goingOn false) base = .ok stopping ∧
      (b.run allowed files).outcome = .ok run ∧
      (run.failures = [] → (stopping.run allowed files).outcome = .ok run) ∧
      ∀ r, run.failures.head? = some r → ∃ e, (stopping.run allowed files).outcome =
        .error (.failed e) ∧ e.path = r.path ∧ e.place = r.place := by
  rw [make_goingOn] at hb ⊢
  cases hmake : Batch.make wording root s base with
  | error e =>
    rw [hmake] at hb
    cases hb
  | ok b₀ =>
    rw [hmake] at hb
    obtain rfl := Except.ok.inj hb
    obtain ⟨rs, hrs⟩ := exists_outcome_turnTasks allowed hfiles
    -- each file is treated alike by the two batches, so the lists are until the first failure
    have hagree := (Traced.outcome_mapM_eq_ok_iff.1 hrs).imp fun _ _ => outcome_turnTask_stopping
    obtain ⟨hnone, hsome⟩ := Traced.outcome_mapM_of_marked hagree
    have hrun := outcome_run (b₀.goingOn true) allowed files
    rw [hrs] at hrun
    refine ⟨b₀.goingOn false, _, rfl, hrun, fun hempty => ?_, fun r hr => ?_⟩
    · have hfind := congrArg List.head? hempty
      rw [RunResult.failures, List.head?_filter] at hfind
      rw [outcome_run, hnone hfind]
      rfl
    · rw [RunResult.failures, List.head?_filter] at hr
      obtain ⟨err, herr, e, rfl, hpath, hplace⟩ := hsome r hr
      refine ⟨e, ?_, hpath, hplace⟩
      rw [outcome_run, herr]
      rfl

/-- Settings under which a bad hash is a failure. -/
def strictSettings : Settings := { Settings.standard with hashes := ⟨3, true, false⟩ }

/-- A file without fault, one with a bad hash in its doc comment, and one whose function has no name. -/
def sampleFiles : List FileInput :=
  [.raw (.record [("path", .str "a.php")]),
    .raw (.record [("path", .str "b.php"), ("docblock", .record [("tags",
      .list [.record [("name", .str "param"), ("text", .str "array $a \x7b oops")]])])]),
    .raw (.record [("path", .str "c.php"), ("functions", .list [.record [("line", .int 3)]])])]

/-- Of two files that fail, the first one ends the run that stops. -/
theorem failFast_run_samples :
    ∃ b stopping run e, Batch.make shortWording "/srv" (strictSettings.goingOn true) .standard = .ok b ∧
      Batch.make shortWording "/srv" (strictSettings.goingOn false) .standard = .ok stopping ∧
      (b.run (some 9) sampleFiles).outcome = .ok run ∧
      run.failures.map (fun r => (r.path, r.place)) =
        [("b.php", some "file docblock"), ("c.php", some "functions.0.name")] ∧
      (stopping.run (some 9) sampleFiles).outcome = .error (.failed e) ∧
      e.path = "b.php" ∧ e.place = some "file docblock" := by
  obtain ⟨b, hb⟩ : ∃ b, b = goingOn ⟨"/srv", strictSettings, .standard,
      ⟨⟨⟨.standard, 3, true⟩, false⟩, defaultDeprecationFunctions⟩, shortWording⟩ true :=
    ⟨_, rfl⟩
  have hmake : Batch.make shortWording "/srv" (strictSettings.goingOn true) .standard = .ok b := by
    rw [hb]
    rfl
  have hreturns : ∀ i input, sampleFiles[i]? = some input →
      ∃ r, (b.exportOne i input).outcome = .ok r := by
    intro i input hinput
    rw [hb]
    match i, hinput with
    | 0, rfl => exact ⟨_, rfl⟩
    | 1, rfl => exact ⟨_, rfl⟩
    | 2, rfl => exact ⟨_, rfl⟩
  have hfailures : (b.run (some 9) sampleFiles).outcome.toOption.map (fun run =>
      run.failures.map fun r => (r.path, r.place)) =
        some [("b.php", some "file docblock"), ("c.php", some "functions.0.name")] := by
    rw [hb]
    decide +kernel
  obtain ⟨stopping, run, hstopping, hrun, -, hfirst⟩ :=
    failFast_run shortWording "/srv" strictSettings .standard hmake (some 9) sampleFiles hreturns
  rw [hrun] at hfailures
  have hlist := Option.some.inj hfailures
  obtain ⟨r, rs, hr, hone, -⟩ := List.map_eq_cons_iff.1 hlist
  obtain ⟨e, he, hpath, hplace⟩ := hfirst r (by rw [hr]; rfl)
  rw [Prod.mk.injEq] at hone
  exact ⟨b, stopping, run, e, hmake, hstopping, hrun, hlist, he, hpath.trans hone.1,
    hplace.trans hone.2⟩

end Batch

end DocTree
