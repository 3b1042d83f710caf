import DocTree.Command.Outcome
import DocTree.Hash.Export
import DocTree.Hash.Parser
import DocTree.Json.Write
import DocTree.Run.Concurrent

/-!
# Performing commands

A command works on a workspace: it loads the settings, does its task, and says what came of it. An
export writes its records to the standard output or to a file, keeps its log, and shows how many files
were exported.

An export can be interrupted. The first interruption cancels the run: files that have been started are
finished and the others are skipped. A second one aborts it, and then nothing is written.
-/

namespace DocTree.Command

/-- What a command is performed in. -/
structure Setting where
  console : Console
  /-- What is said about documents that are refused. -/
  wording : Wording
  /-- The time that the log shows. -/
  time : String
  /-- The files right after which an export is interrupted. -/
  interruptions : List Nat

/-- How the records and trees are indented on the standard output. -/
def outputIndent : Option Nat := some 2

/-! ## Interruptions -/

/-- An interruption of a run: how many files are started before it, and whether there is another one
before they are finished. -/
structure Interruption where
  started : Nat
  again : Bool
  deriving DecidableEq, Repr

/-- The first file of `n` after which a run is interrupted. -/
def firstInterruption? (n : Nat) (at? : List Nat) : Option Nat :=
  (List.range n).find? fun i => at?.contains i

/-- The interruption of a run of `n` files, `permits` of them at once, that is interrupted after some of
them. -/
def interruption? (permits n : Nat) (at? : List Nat) : Option Interruption :=
  (firstInterruption? n at?).map fun i =>
    let started := i + permits
    ⟨started, 2 ≤ (at?.filter fun j => j < min n started).length⟩

/-- What comes to an export from outside. -/
structure Circumstances where
  console : Console
  /-- The time that the log shows. -/
  time : String
  interruption : Option Interruption

/-- The circumstances of a run of `n` files, `permits` of them at once. -/
def Setting.circumstances (s : Setting) (permits n : Nat) : Circumstances :=
  ⟨s.console, s.time, interruption? permits n s.interruptions⟩

/-! ## The end of an export -/

/-- Write records to the log of a workspace. -/
def keepLog (log : LogSetup) (time : String) (rs : List LogRecord) (w : Workspace) : Workspace :=
  { w with folder := log.emitAll time rs w.folder }

/-- The rows that sum a run up. -/
def summaryRows (r : RunResult) (output : Option String) : List (String × String) :=
  let failed := r.count .failed
  [("Root", r.root), ("Completed", toString (r.count .completed)),
   ("Failed", styled (if failed == 0 then .green else .red) (toString failed))] ++
  (if r.cancelled then [("Skipped", styled .yellow (toString (r.count .skipped)))] else []) ++
  (match output with
    | some path => [("Output", path)]
    | none => [])

/-- The texts in the table of failures, which is laid out column by column: the paths of the files, the
places of their failures, as far as they are known, and what is said about them. -/
def failureTexts (failures : List FileResult) : List String :=
  failures.map (·.path) ++ failures.map (fun f => (f.place.filter (· != "")).getD "-") ++
    failures.map fun f => f.error.getD ""

/-- The message about a run that was interrupted. -/
def interruptionText (r : RunResult) : String :=
  styled .yellow ("Export interrupted: " ++ toString (r.count .skipped) ++ " files skipped.")

/-- Say how a run ended. -/
def conclude (c : Console) (r : RunResult) (o : Outcome) : Outcome :=
  if o.breakdown.isSome then o
  else if r.cancelled then (o.say c (interruptionText r)).exit interruptedCode
  else o.exit (if r.count .failed == 0 then 0 else failureCode)

/-- Sum a run up. -/
def summarize (c : Console) (r : RunResult) (output : Option String) (o : Outcome) : Outcome :=
  conclude c r ((o.showRows c (summaryRows r output)).showTexts c (failureTexts r.failures))

/-- Write the records of a run and sum it up. -/
def deliver (c : Console) (r : RunResult) (output : Option String) (w : Workspace) :
    Outcome × Workspace :=
  let text := r.toJson outputIndent
  if !r.records.all Json.hasNames then (.broken .noItems, w)
  else match output with
    | none => (summarize c r output (Outcome.done.withStdout text), w)
    | some path =>
      match w.folder.write (Path.normal path) (text ++ "\n") with
      | .error e => (.broken (.output e), w)
      | .ok folder => (summarize c r output .done, { w with folder := folder })

/-! ## Exporting -/

/-- What an export works with: the batch, the log, and the files of the dump. -/
structure Job where
  batch : Batch
  log : LogSetup
  files : List Value

/-- How many files of a job are exported at once. -/
def Job.permits (j : Job) (concurrent : Bool) : Nat :=
  if concurrent then j.batch.settings.exporting.parallelFiles else 1

/-- Load the settings, set the log up and read the dump. -/
def prepare (s : Setting) (verbose : Bool) (dump root : String) (config : Option String)
    (w : Workspace) : Except Outcome Job × Workspace :=
  let (loaded, w) := w.loadSettings config defaultEnvFile
  match loaded with
  | .error e => (.error (settingsFailure s.console e), w)
  | .ok settings =>
    let (set, log, folder) := LogSetup.configure settings.log (verbose || settings.debug) w.folder
    let w := { w with folder := folder }
    match set, Batch.make s.wording root settings Registry.standard with
    | .error e, _ => (.error (.broken (.log e)), w)
    | _, .error e => (.error (.broken (.registry e)), w)
    | .ok (), .ok b =>
      let x := Dump.read w.folder dump b.registry
      let w := keepLog log s.time x.records w
      match x.outcome with
      | .error e => (.error (dumpFailure s.console e), w)
      | .ok files => (.ok ⟨b, log, files⟩, w)

/-- Export the files of a job. -/
def exportFiles (c : Circumstances) (j : Job) (concurrent : Bool) (output : Option String)
    (w : Workspace) : Outcome × Workspace :=
  let inputs := j.files.map FileInput.raw
  let allowed := c.interruption.map (·.started)
  let x := if concurrent then j.batch.runConcurrently allowed inputs else j.batch.run allowed inputs
  match x.outcome with
  | .error (.failed e) =>
    (.failed c.console "Export failed:" e.message, keepLog j.log c.time x.records w)
  | .error .noItems => (.broken .noItems, keepLog j.log c.time x.records w)
  | .ok r =>
    if c.interruption.any (·.again) then
      let kept := x.records.length - (Batch.closingRecords r).length
      ((Outcome.done.say c.console (styled .yellow "Export aborted.")).exit interruptedCode,
        keepLog j.log c.time (x.records.take kept) w)
    else deliver c.console r output (keepLog j.log c.time x.records w)

/-- Export a dump. -/
def exportDump (s : Setting) (verbose : Bool) (dump root : String) (config output : Option String)
    (concurrent : Bool) (w : Workspace) : Outcome × Workspace :=
  match prepare s verbose dump root config w with
  | (.error o, w) => (o, w)
  | (.ok j, w) =>
    exportFiles (s.circumstances (j.permits concurrent) j.files.length) j concurrent
      (output.filter (· != "")) w

/-! ## The other commands -/

/-- Read a hash. -/
def readHash (c : Console) (text : String) (config : Option String) (w : Workspace) : Outcome × Workspace :=
  let (loaded, w) := w.loadSettings config defaultEnvFile
  match loaded with
  | .error e => (settingsFailure c e, w)
  | .ok settings =>
    match settings.registry Registry.standard with
    | .error e => (.broken (.registry e), w)
    | .ok r =>
      match Hash.parse ⟨r, settings.hashes.maxDepth, settings.hashes.sharedIndex⟩ text.toList with
      | .error e => (.failed c "Hash notation error:" e.message, w)
      | .ok t => (Outcome.done.withStdout (Json.write outputIndent t.toValue), w)

/-- A truth value in a row. -/
def truthText (b : Bool) : String := (Value.bool b).display

/-- The rows that show the settings. -/
def settingRows (s : Settings) : List (String × String) :=
  let kindOf (name : String) : String := (s.extraTags.get? name).getD ""
  [("Max Depth", toString s.hashes.maxDepth), ("Shared Index", truthText s.hashes.sharedIndex),
   ("Fallback To Raw", truthText s.hashes.fallbackToRaw),
   ("Parallel Files", toString s.exporting.parallelFiles),
   ("Continue On Error", truthText s.exporting.continueOnError),
   ("Deprecation Functions", ", ".intercalate s.exporting.deprecationFunctions),
   ("Log Level", s.log.level.name)] ++
  (if s.extraTags.isEmpty then []
  else
    [("Extra Tags", ", ".intercalate
      ((Text.sortNames s.extraTags.names).map fun n => "@" ++ n ++ "=" ++ kindOf n))])

/-- Show the settings. -/
def showSettings (c : Console) (config : Option String) (w : Workspace) : Outcome × Workspace :=
  let (loaded, w) := w.loadSettings config defaultEnvFile
  match loaded with
  | .error e => (settingsFailure c e, w)
  | .ok settings => (Outcome.done.showRows c (settingRows settings), w)

/-! ## Command lines -/

/-- Perform a task. -/
def perform (s : Setting) (verbose : Bool) (t : Task) (w : Workspace) : Outcome × Workspace :=
  match t with
  | .exportDump dump root config output concurrent =>
    exportDump s verbose dump root config output concurrent w
  | .readHash text config => readHash s.console text config w
  | .showSettings config => showSettings s.console config w

/-- The version of the program. -/
def versionText : String := "docexport, version 0.1.0"

/-- How the program is used. -/
def helpText : String :=
  "Usage: docexport [--verbose] COMMAND\n\n" ++
  "  export DUMP --root ROOT [--config FILE] [--output FILE] [--concurrent]\n" ++
  "  parse-hash TEXT [--config FILE]\n" ++
  "  config [--config FILE]"

/-- Perform what a command line asks for. -/
def run (s : Setting) (words : List String) (w : Workspace) : Outcome × Workspace :=
  match Request.read w.folder words with
  | .error e => (.misused e, w)
  | .ok .showVersion => (Outcome.done.withStdout versionText, w)
  | .ok .showHelp => (Outcome.done.withStdout helpText, w)
  | .ok (.perform verbose t) => perform s verbose t w

end DocTree.Command
