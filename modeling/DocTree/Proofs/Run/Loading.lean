import DocTree.Proofs.Run.FailFast
import DocTree.Proofs.Source.Loading
import DocTree.Proofs.Source.Reading

/-!
# Loading a dump and exporting its documents

A dump can be loaded first and then exported, or its documents can be exported as they were read. The
two ways agree (`load_agrees_with_run`): if loading succeeds, both runs are the same, whatever is
cancelled, and if it does not, its findings are those for which the single documents fail.

Two inputs that are known by one path and give one file are `Alike`, and a run does not tell them apart
(`run_congr`). A document that is a source file and that file are alike (`alike_raw_checked`): the path
is the same, and classifying the document, for the first or for the second time, gives what was
checked.
-/

namespace DocTree.Batch

open Schema Checked

variable {b : Batch}

/-! ## Inputs that a run does not tell apart -/

/-- Inputs with the same path, wherever they stand, that give the same file. -/
structure Alike (b : Batch) (input other : FileInput) : Prop where
  path : ∀ index, input.path index = other.path index
  sourceFile : ∀ path, b.sourceFile path input = b.sourceFile path other

theorem Alike.exportNext {input other : FileInput} (h : b.Alike input other) (allowed : Option Nat)
    (index : Nat) (run : RunResult) :
    b.exportNext allowed index input run = b.exportNext allowed index other run := by
  have hone : b.exportOne index input = b.exportOne index other := by
    rw [exportOne, exportOne, h.path, record, record, h.sourceFile]
  have hskip : skip index input = skip index other := by
    rw [skip, skip, h.path]
  rw [Batch.exportNext, Batch.exportNext, hone, hskip]

theorem exportFrom_congr {files others : List FileInput} (h : List.Forall₂ b.Alike files others)
    (allowed : Option Nat) (index : Nat) (run : RunResult) :
    b.exportFrom allowed index files run = b.exportFrom allowed index others run := by
  induction h generalizing index run with
  | nil => rfl
  | cons hone _ ih =>
    rw [exportFrom, exportFrom, hone.exportNext]
    exact congrArg _ (funext fun run => ih (index + 1) run)

/-- **Runs over inputs that are alike are the same**, their logs included. -/
theorem run_congr {files others : List FileInput} (h : List.Forall₂ b.Alike files others)
    (allowed : Option Nat) : b.run allowed files = b.run allowed others := by
  have hopening : b.openingMessage files = b.openingMessage others := by
    rw [openingMessage, openingMessage, h.length_eq]
  rw [Batch.run, Batch.run, hopening, exportFrom_congr h]

/-- What a document that can be classified gives is decided by its check. -/
theorem sourceFile_raw_of_classify {v w : Value} (hw : classify b.registry v = .ok w) (path : String) :
    b.sourceFile path (.raw v) = ((SourceFile.check w).against "ReflectedFile").mapError fun r =>
      .failure (b.rejected path v r) := by
  rw [sourceFile, hw]
  dsimp only
  cases SourceFile.check w <;> rfl

theorem sourceFile_raw_of_check {v w : Value} {f : SourceFile}
    (hw : classify b.registry v = .ok w) (hf : SourceFile.check w = .ok f) (path : String) :
    b.sourceFile path (.raw v) = .ok f := by
  rw [sourceFile_raw_of_classify hw, hf]
  rfl

/-- A document that is a source file and the file are alike. -/
theorem alike_raw_checked {v w : Value} {f : SourceFile} (hw : classify b.registry v = .ok w)
    (hf : SourceFile.check w = .ok f) : b.Alike (.raw v) (.checked f) where
  path := path_raw_of_check hw hf
  sourceFile := sourceFile_raw_of_check hw hf

/-! ## Documents that are classified -/

variable {xs cs : List Value}

/-- A run that goes on after failures exports documents that can be classified. -/
theorem exists_outcome_run_raw (hgo : b.settings.exporting.continueOnError = true)
    (h : classifyItems b.registry xs = .ok cs) (allowed : Option Nat) :
    ∃ run, (b.run allowed (xs.map .raw)).outcome = .ok run := by
  have hreturns : ∀ i input, (xs.map FileInput.raw)[i]? = some input →
      ∃ r, (b.exportOne i input).outcome = .ok r := by
    intro i input hinput
    rw [List.getElem?_map, Option.map_eq_some_iff] at hinput
    obtain ⟨v, hv, rfl⟩ := hinput
    refine exists_outcome_exportOne hgo (fun hstuck => ?_) i
    have hall := exists_mapM_eq_ok_iff.1 ⟨cs, (classifyItems_eq_mapM _ _).symm.trans h⟩
    obtain ⟨w, hw⟩ := hall v (List.mem_of_getElem? hv)
    cases (classify_eq_noItems_iff.2 hstuck).symm.trans hw
  obtain ⟨rs, hrs⟩ := exists_outcome_turnTasks allowed hreturns
  exact ⟨_, by rw [outcome_run, hrs]; rfl⟩

/-- Documents that are source files are exported as those files are. -/
theorem run_raw_eq_run_checked {fs : List SourceFile} (h : classifyItems b.registry xs = .ok cs)
    (hfs : List.Forall₂ (fun c f => SourceFile.check c = .ok f) cs fs) (allowed : Option Nat) :
    b.run allowed (xs.map .raw) = b.run allowed (fs.map .checked) := by
  refine run_congr ?_ allowed
  rw [List.forall₂_map_left_iff, List.forall₂_map_right_iff]
  have hdocs := classifyItems_eq_ok_iff.1 h
  clear h
  induction hdocs generalizing fs with
  | nil =>
    cases hfs
    exact .nil
  | cons hw _ ih =>
    cases hfs with
    | cons hf hrest => exact .cons (alike_raw_checked hw hf) (ih hrest)

/-- Each document that is no source file has failed, at the place of its first issue. -/
def RefusedIn (cs : List Value) (run : RunResult) : Prop :=
  ∀ (i : Nat) (c : Value) (issues : List Issue), cs[i]? = some c → SourceFile.check c = .bad issues →
    ∃ (first : Issue) (more : List Issue) (r : FileResult), issues = first :: more ∧
      run.results[i]? = some r ∧ r.status = .failed ∧ r.place = some first.placeText

/-- A document that is no source file fails, at the place of its first issue. -/
theorem outcome_exportOne_of_refused (hgo : b.settings.exporting.continueOnError = true)
    {v w : Value} {first : Issue} {more : List Issue} (hw : classify b.registry v = .ok w)
    (hbad : SourceFile.check w = .bad (first :: more)) (index : Nat) :
    ∃ r, (b.exportOne index (.raw v)).outcome = .ok r ∧ r.status = .failed ∧
      r.place = some first.placeText := by
  have hfile := sourceFile_raw_of_classify hw ((FileInput.raw v).path index)
  rw [hbad, against, Except.mapError] at hfile
  rw [outcome_exportOne, record, hfile, Traced.outcome_bind_of_error (Traced.outcome_ofExcept _)]
  dsimp only
  rw [if_pos hgo]
  exact ⟨_, rfl, rfl, rfl⟩

theorem refusedIn_of_outcome_run (hgo : b.settings.exporting.continueOnError = true)
    (h : classifyItems b.registry xs = .ok cs) {run : RunResult}
    (hrun : (b.run none (xs.map .raw)).outcome = .ok run) : RefusedIn cs run := by
  intro i c issues hc hbad
  cases issues with
  | nil => exact absurd hbad (explained_sourceFile c)
  | cons first more =>
    have hdocs := classifyItems_eq_ok_iff.1 h
    obtain ⟨hlength, hresults⟩ := outcome_exportOne_of_run hrun
    rw [List.length_map, hdocs.length_eq] at hlength
    obtain ⟨hi, rfl⟩ := List.getElem?_eq_some_iff.1 hc
    have hi' : i < xs.length := by rwa [hdocs.length_eq]
    obtain ⟨r, hr, hstatus, hplace⟩ := outcome_exportOne_of_refused hgo (hdocs.get hi' hi) hbad i
    -- the result at `i` is that of the document there
    have hgiven : (xs.map FileInput.raw)[i]? = some (.raw xs[i]) := by
      rw [List.getElem?_map, List.getElem?_eq_getElem hi', Option.map_some]
    have hresult := List.getElem?_eq_getElem (l := run.results) (by rwa [hlength])
    have hone := hresults i _ _ hgiven hresult
    obtain rfl := Except.ok.inj (hr.symm.trans hone)
    exact ⟨first, more, _, rfl, hresult, hstatus, hplace⟩

/-! ## The two ways agree -/

/-- **Loading a dump and exporting its documents agree.** Let documents `ms` be classified as `cs`. A
dump of these documents is loaded by accepting `cs`, which succeeds exactly if each of them is a source
file. Then the files that are loaded and the documents, classified or not, are exported alike. If it
fails, its findings are the issues of each document that is no source file, in order, each laid at the
document; and the export of that document fails at the place of the first of them. -/
theorem load_agrees_with_run (b : Batch) (hgo : b.settings.exporting.continueOnError = true)
    {ms cs : List Value} (hms : classifyItems b.registry ms = .ok cs) (path : String) :
    (∀ d v, Dump.open? d (Path.normal path) = .ok v → Dump.fileMappings (Path.normal path) v = .ok ms →
      (Dump.load d path b.registry).outcome = Dump.accept (Path.normal path) cs) ∧
    ((∃ fs, Dump.accept (Path.normal path) cs = .ok fs) ↔
      ∀ c ∈ cs, ∃ f, SourceFile.check c = .ok f) ∧
    (∀ fs, Dump.accept (Path.normal path) cs = .ok fs → ∀ xs ∈ [ms, cs], ∀ allowed, ∃ run,
      (b.run allowed (fs.map .checked)).outcome = .ok run ∧
        (b.run allowed (xs.map .raw)).outcome = .ok run) ∧
    ((¬∀ c ∈ cs, ∃ f, SourceFile.check c = .ok f) →
      (∃ report, Dump.accept (Path.normal path) cs = .error (.reported report) ∧
        report.findings = cs.zipIdx.flatMap fun q => Dump.findingsAt q.2 q.1) ∧
      ∀ xs ∈ [ms, cs], ∃ run, (b.run none (xs.map .raw)).outcome = .ok run ∧ RefusedIn cs run) := by
  have hcs : ∀ xs ∈ [ms, cs], classifyItems b.registry xs = .ok cs := by
    intro xs hxs
    rw [List.mem_cons, List.mem_singleton] at hxs
    rcases hxs with rfl | rfl
    · exact hms
    · exact classifyItems_classified hms
  refine ⟨fun d v hopen hitems => ?_, Dump.exists_accept_eq_ok_iff, fun fs hfs xs hxs allowed => ?_,
    fun hrefused => ⟨?_, fun xs hxs => ?_⟩⟩
  · rw [Dump.outcome_load, Dump.outcome_read, hopen]
    show (Dump.fileMappings _ v >>= _) >>= _ = _
    rw [hitems]
    show (Except.mapError _ (classifyItems _ ms)) >>= _ = _
    rw [hms]
    rfl
  · obtain ⟨run, hrun⟩ := exists_outcome_run_raw hgo (hcs xs hxs) allowed
    have hsame := run_raw_eq_run_checked (hcs xs hxs) (Dump.forall₂_of_accept hfs) allowed
    exact ⟨run, hsame ▸ hrun, hrun⟩
  · refine Dump.accept_of_findings_ne_nil _ fun hnil => hrefused ?_
    exact Dump.findings_eq_nil_iff.1 hnil
  · obtain ⟨run, hrun⟩ := exists_outcome_run_raw hgo (hcs xs hxs) none
    exact ⟨run, hrun, refusedIn_of_outcome_run hgo (hcs xs hxs) hrun⟩

/-- A dump of two files: one with a raw annotation, and one whose function has no name. -/
def sampleText : String :=
  "[\x7b\"path\": \"a.php\", \"docblock\": \x7b\"tags\": [\x7b\"name\": \"package\"\x7d]\x7d\x7d, " ++
    "\x7b\"path\": \"b.php\", \"functions\": [\x7b\"line\": 3\x7d]\x7d]"

/-- The two files with these annotations of the first one. -/
def sampleDocuments (tags : List Value) : List Value :=
  [.record [("path", .str "a.php"), ("docblock", .record [("tags", .list tags)])],
    .record [("path", .str "b.php"), ("functions", .list [.record [("line", .int 3)]])]]

/-- The dump is not loaded because of its second file, which fails for the same reason when the
documents are exported. -/
theorem load_agrees_with_run_samples :
    ∃ (report : Report) (run : RunResult) (r : FileResult),
      (Dump.load (Dump.folderOf sampleText) "d.json" .standard).outcome =
        .error (.reported report) ∧
      report.findings = [⟨[.name "files", .index 1, .name "functions", .index 0, .name "name"],
        some "missing", some "Field required"⟩] ∧
      ((standard "/srv").run none
        ((sampleDocuments [.record [("name", .str "package")]]).map .raw)).outcome = .ok run ∧
      run.results[1]? = some r ∧ r.status = .failed ∧ r.place = some "functions.0.name" := by
  have hopen : Dump.open? (Dump.folderOf sampleText) (Path.normal "d.json") =
      .ok (.list (sampleDocuments [.record [("name", .str "package")]])) := by
    decide +kernel
  have hms : classifyItems (standard "/srv").registry
      (sampleDocuments [.record [("name", .str "package")]]) =
        .ok (sampleDocuments [Tag.toValue ⟨"package", "", .plain⟩]) := by
    decide +kernel
  obtain ⟨hload, -, -, hfails⟩ := load_agrees_with_run (standard "/srv") rfl hms "d.json"
  obtain ⟨⟨report, hreport, hfindings⟩, hruns⟩ := hfails fun hall => by
    obtain ⟨f, hf⟩ := hall _ (List.mem_cons_of_mem _ List.mem_cons_self)
    cases hf
  obtain ⟨run, hrun, hresults⟩ := hruns _ List.mem_cons_self
  obtain ⟨first, more, r, hissues, hr, hstatus, hplace⟩ := hresults 1 _ _ rfl rfl
  refine ⟨report, run, r, ?_, ?_, hrun, hr, hstatus, ?_⟩
  · exact (hload _ _ hopen rfl).trans hreport
  · rw [hfindings]
    decide +kernel
  · obtain ⟨rfl, -⟩ := List.cons.inj hissues
    rw [hplace]
    decide +kernel

end DocTree.Batch
