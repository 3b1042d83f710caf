import DocTree.Schema.Issue

/-!
# Reports about a file

When a file cannot be used, the report says what the trouble is, which file it concerns, and lists what
was found in it. The text of a report shows the first few findings and counts the others.
-/

namespace DocTree.Schema

/-- One thing found in a file: where, of what sort, and in words, as far as each is known. -/
structure Finding where
  place : List Step
  code : Option String
  text : Option String
  deriving DecidableEq, Repr

/-- What is reported about a file. -/
structure Report where
  message : String
  path : Option String
  findings : List Finding
  deriving DecidableEq, Repr

/-- An issue as a finding. -/
def Issue.toFinding (i : Issue) : Finding := ⟨i.place, some i.fault.code, some i.fault.message⟩

/-- How many findings the text of a report shows. -/
def shownFindings : Nat := 5

/-- A finding on a line of its own. -/
def Finding.line (f : Finding) : String :=
  "\n  - " ++ ".".intercalate (f.place.map Step.text) ++ ": " ++ f.text.getD "Unknown error"

namespace Report

/-- The message and the file. -/
def headline (r : Report) : String :=
  match r.path with
  | some p => if p == "" then r.message else r.message ++ " (file: " ++ p ++ ")"
  | none => r.message

/-- The whole report. -/
def text (r : Report) : String :=
  let more := r.findings.length - shownFindings
  r.headline ++ String.join ((r.findings.take shownFindings).map Finding.line) ++
    (if more == 0 then "" else "\n  ... and " ++ toString more ++ " more errors")

/-- A report without findings about a file. -/
def about (path message : String) : Report := ⟨message, some path, []⟩

end Report

end DocTree.Schema
