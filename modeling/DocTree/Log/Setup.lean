import DocTree.Files.Folder
import DocTree.Log.Format
import DocTree.Settings.Basic

/-!
# Where the log goes

The settings say from which level on records are kept, and in which file. The console gets them in any
case. A file is added to, never started anew, and the folder that it lies in is made if need be.
-/

namespace DocTree

/-- The name of the program's log. -/
def logName : String := "docexport"

/-- The name of the log of a part of the program, or of the whole. -/
def logNameOf : Option String → String
  | none => logName
  | some part => if part == "" then logName else logName ++ "." ++ part

/-- A file that the log goes to. -/
structure LogFile where
  path : String
  format : String
  deriving DecidableEq, Repr

/-- Where the log goes: to the console, and to a file if there is one. -/
structure LogSetup where
  level : LogLevel
  file : Option LogFile
  deriving DecidableEq, Repr

/-- Why the log cannot be set up. -/
inductive LogError where
  | unopened (e : OpenError)
  | badFormat (format : String)
  deriving DecidableEq, Repr

/-- What is reported about a log that cannot be set up. -/
def LogError.message : LogError → String
  | .unopened e => e.message
  | .badFormat format => "Invalid format '" ++ format ++ "' for '%' style"

namespace LogSetup

/-- Make the file of the log if it is not there. -/
def openFile (path : String) (d : Folder) : Except OpenError Folder := do
  let d ← d.makeParent path
  d.append path ""

/-- The level from which on records are kept. -/
def levelFor (s : LogSection) (verbose : Bool) : LogLevel := if verbose then .debug else s.level

/-- Set the log up. On failure the console still gets the records. -/
def configure (s : LogSection) (verbose : Bool) (d : Folder) :
    Except LogError Unit × LogSetup × Folder :=
  let console : LogSetup := ⟨levelFor s verbose, none⟩
  match s.file.filter (· != "") with
  | none => (.ok (), console, d)
  | some path =>
    match openFile path d with
    | .error e => (.error (.unopened e), console, d)
    | .ok d =>
      let format := LogFormat.orDefault s.format
      if LogFormat.mentionsField format.toList then
        (.ok (), { console with file := some ⟨path, format⟩ }, d)
      else (.error (.badFormat format), console, d)

/-- A record is important enough. -/
def keeps (l : LogSetup) (r : LogRecord) : Bool := l.level.rank ≤ r.level.rank

/-- Write a record to the file of the log, if there is one. -/
def emit (l : LogSetup) (time : String) (r : LogRecord) (d : Folder) : Folder :=
  match l.file with
  | none => d
  | some f =>
    if l.keeps r then
      match LogFormat.line? f.format time r with
      | some line =>
        match d.append f.path (line ++ "\n") with
        | .ok d => d
        | .error _ => d
      | none => d
    else d

/-- Write records one after another. -/
def emitAll (l : LogSetup) (time : String) (rs : List LogRecord) (d : Folder) : Folder :=
  rs.foldl (fun d r => l.emit time r d) d

end LogSetup

end DocTree
