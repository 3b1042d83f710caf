import DocTree.Record.Element
import DocTree.Run.Result
import DocTree.Source.Check
import DocTree.Source.Classify

/-!
# Exporting a batch of files

A batch fixes the root, the settings and what follows from them. Each file is exported on its own, and
a failure concerns that file only: it is recorded and the run goes on, unless the settings ask to stop
at the first failure.

The run asks before each file whether it has been cancelled. `allowed` says how often the answer is
no; without it, the run is never cancelled.
-/

namespace DocTree

open Schema

/-- A file as it is given to a run. -/
inductive FileInput where
  /-- A file that was checked before. -/
  | checked (f : SourceFile)
  /-- A document that still has to be checked. -/
  | raw (v : Value)

/-- The name of the file at a position, by its path if it has one. -/
def FileInput.path (input : FileInput) (index : Nat) : String :=
  let unnamed := "<file #" ++ toString index ++ ">"
  match input with
  | .checked f => f.path
  | .raw (.map es) =>
    match Entries.get? "path" es with
    | some v => if v.truthy then v.display else unnamed
    | none => unnamed
  | .raw _ => unnamed

/-- What is said about a document that is refused. -/
abbrev Wording := Value → Rejection → String

/-- A refusal in one line. -/
def shortWording : Wording := fun _ r => r.headline

/-- Root, settings and exporter of a run. -/
structure Batch where
  root : String
  settings : Settings
  registry : Registry
  exporter : Exporter
  wording : Wording

/-- Why a run stops. -/
inductive RunError where
  /-- A file failed, and the settings ask to stop there. -/
  | failed (e : FileError)
  /-- The annotations of a doc comment have no items. -/
  | noItems
  deriving DecidableEq, Repr

/-- The source of records about a run. -/
def runLogSource : String := "docexport.export.orchestrator"

namespace Batch

/-- The batch that settings and a registry ask for. -/
def make (wording : Wording) (root : String) (settings : Settings) (base : Registry) :
    Except RegistryError Batch := do
  let registry ← settings.registry base
  let dialect : Hash.Dialect := ⟨registry, settings.hashes.maxDepth, settings.hashes.sharedIndex⟩
  let normalizer : Normalizer := ⟨dialect, settings.hashes.fallbackToRaw⟩
  return ⟨root, settings, registry, ⟨normalizer, settings.exporting.deprecationFunctions⟩, wording⟩

/-! ## One file -/

/-- A file that could not be exported: the failure of the file, and what is recorded about it. -/
structure Failure where
  error : FileError
  report : String

/-- What keeps a file from being exported. -/
inductive Obstacle where
  | failure (f : Failure)
  | noItems

/-- A document that is no source file. -/
def rejected (b : Batch) (path : String) (v : Value) (r : Rejection) : Failure :=
  ⟨⟨"Invalid reflected file: " ++ toString r.issues.length ++ " errors", path,
    r.issues.head?.map Issue.placeText⟩, b.wording v r⟩

/-- The source file that an input gives. -/
def sourceFile (b : Batch) (path : String) : FileInput → Except Obstacle SourceFile
  | .checked f => .ok f
  | .raw v =>
    match classify b.registry v with
    | .error .noItems => .error .noItems
    | .error (.rejected r) => .error (.failure (b.rejected path v r))
    | .ok classified =>
      match (SourceFile.check classified).against "ReflectedFile" with
      | .ok f => .ok f
      | .error r => .error (.failure (b.rejected path v r))

/-- The record of a file. -/
def record (b : Batch) (path : String) (input : FileInput) : Traced Obstacle Value := do
  let f ← Traced.ofExcept (b.sourceFile path input)
  (b.exporter.file b.root f).mapError fun e => .failure ⟨e.toFileError path, e.message⟩

/-- The result of a file that failed. -/
def failedResult (path : String) (f : Failure) : FileResult :=
  ⟨path, .failed, none, some f.report, f.error.place⟩

/-- Export one file. -/
def exportOne (b : Batch) (index : Nat) (input : FileInput) : Traced RunError FileResult :=
  let path := input.path index
  let attempt := b.record path input
  ExceptT.mk (do
    match ← attempt.run with
    | .ok record =>
      Logged.write ⟨.debug, runLogSource, "Exported " ++ path⟩
      return .ok ⟨path, .completed, some record, none, none⟩
    | .error (.failure f) =>
      if b.settings.exporting.continueOnError then
        Logged.write ⟨.warning, runLogSource, "Failed to export " ++ path ++ ": " ++ f.report⟩
        return .ok (failedResult path f)
      else return .error (.failed f.error)
    | .error .noItems => return .error .noItems)

/-- The result of a file that is not started. -/
def skip (index : Nat) (input : FileInput) : FileResult :=
  ⟨input.path index, .skipped, none, none, none⟩

/-! ## All files -/

/-- The run is cancelled at the check with number `k`, counted from zero. -/
def cancelledAt (allowed : Option Nat) (k : Nat) : Bool :=
  match allowed with
  | some n => n ≤ k
  | none => false

/-- Export one more file of a run, or skip it if the run has been cancelled. -/
def exportNext (b : Batch) (allowed : Option Nat) (index : Nat) (input : FileInput)
    (run : RunResult) : Traced RunError RunResult :=
  if cancelledAt allowed index then
    return { run with cancelled := true, results := run.results ++ [skip index input] }
  else do
    let r ← b.exportOne index input
    return { run with results := run.results ++ [r] }

/-- Export files one after another, the first of them having position `index`. -/
def exportFrom (b : Batch) (allowed : Option Nat) :
    Nat → List FileInput → RunResult → Traced RunError RunResult
  | _, [], run => return run
  | index, input :: rest, run => do
    let run ← b.exportNext allowed index input run
    b.exportFrom allowed (index + 1) rest run

/-- What the log says at the end of a run. -/
def closingRecords (r : RunResult) : List LogRecord :=
  (if r.cancelled then
    [⟨.info, runLogSource,
      "Export cancelled: " ++ toString (r.count .skipped) ++ " files not started"⟩]
  else []) ++
  [⟨.info, runLogSource, "Export finished: " ++ toString (r.count .completed) ++ " completed, " ++
    toString (r.count .failed) ++ " failed, " ++ toString (r.count .skipped) ++ " skipped"⟩]

/-- Say in the log that a run has ended. -/
def finish (run : RunResult) : Traced RunError RunResult := ExceptT.mk ⟨.ok run, closingRecords run⟩

/-- What the log says at the start of a run. -/
def openingMessage (b : Batch) (files : List FileInput) : String :=
  "Exporting " ++ toString files.length ++ " files relative to " ++ b.root

/-- Export files one after another. -/
def run (b : Batch) (allowed : Option Nat) (files : List FileInput) :
    Traced RunError RunResult := do
  Traced.write .info runLogSource (b.openingMessage files)
  let run ← b.exportFrom allowed 0 files ⟨b.root, [], false⟩
  finish run

end Batch

end DocTree
