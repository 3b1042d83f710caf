import DocTree.Json.Write
import DocTree.Schema.Check

/-!
# Results of a run

A run gives one result per file, in the order of the files. A completed file has a record, a failed
one says why it failed, and a skipped one was not started because the run was cancelled.
-/

namespace DocTree

open Schema

/-- What became of a file. -/
inductive Status where
  | completed
  | failed
  | skipped
  deriving DecidableEq, Repr

/-- The name of a status. -/
def Status.name : Status → String
  | completed => "completed"
  | failed => "failed"
  | skipped => "skipped"

/-- The statuses by name. -/
def Status.choices : List (String × Status) :=
  [("completed", .completed), ("failed", .failed), ("skipped", .skipped)]

/-- The result of one file. -/
structure FileResult where
  path : String
  status : Status
  record : Option Value
  error : Option String
  /-- The element at fault, if it is known. -/
  place : Option String

/-- The results of a run. -/
structure RunResult where
  root : String
  results : List FileResult
  cancelled : Bool

/-- A completed result needs a record and a failed one an error. -/
def FileResult.payloadRule (r : FileResult) : Option String :=
  match r.status with
  | .completed => if r.record.isNone then some "completed result requires a record" else none
  | .failed =>
    if r.error.getD "" == "" then some "failed result requires an error" else none
  | .skipped => none

/-- A result from a document. -/
def FileResult.check : Value → Checked FileResult :=
  ofFields "FileExportResult" fun es =>
    (FileResult.mk <$> required es "path" text <*> required es "status" (choice Status.choices) <*>
      field es "record" none (optional fun v => (mapOf anything v).map Value.record) <*>
      field es "error" none (optional text) <*>
      field es "error_location" none (optional text)).obeying FileResult.payloadRule

/-- The results of a run from a document. -/
def RunResult.check : Value → Checked RunResult :=
  ofFields "ExportRunResult" fun es =>
    RunResult.mk <$> required es "root" text <*>
      field es "results" [] (listOf FileResult.check) <*> field es "cancelled" false truth

namespace RunResult

/-- How many files have a status. -/
def count (r : RunResult) (s : Status) : Nat := (r.results.filter fun f => f.status == s).length

/-- The records of the files that have one, in order. -/
def records (r : RunResult) : List Value := r.results.filterMap (·.record)

/-- The results of the files that failed. -/
def failures (r : RunResult) : List FileResult := r.results.filter fun f => f.status == .failed

/-- The records as JSON. -/
def toJson (r : RunResult) (indent : Option Nat) : String := Json.write indent (.list r.records)

end RunResult

end DocTree
