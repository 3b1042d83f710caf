/-!
# Why an element or a file cannot be exported

A failure names the element at fault by its kind, its name and its line, or the file by its path and
the part of the file.
-/

namespace DocTree

/-- An element that cannot be exported. -/
structure ElementError where
  cause : String
  kind : String
  name : String
  line : Option Int
  deriving DecidableEq, Repr

/-- A file that cannot be exported, and the part at fault if it is known. -/
structure FileError where
  cause : String
  path : String
  place : Option String
  deriving DecidableEq, Repr

/-- The element at fault. -/
def ElementError.place (e : ElementError) : String :=
  e.kind ++ " " ++ e.name ++ match e.line with
    | some n => " (line " ++ toString n ++ ")"
    | none => ""

/-- What is reported about an element. -/
def ElementError.message (e : ElementError) : String := e.cause ++ " in " ++ e.place

/-- What is reported about a file. -/
def FileError.message (e : FileError) : String := e.cause ++ " (file: " ++ e.path ++ ")"

/-- An export that fails. -/
inductive ExportError where
  | element (e : ElementError)
  | file (e : FileError)
  deriving DecidableEq, Repr

namespace ExportError

/-- What is reported. -/
def message : ExportError → String
  | element e => e.message
  | file e => e.message

/-- The element or part at fault, if it is known. -/
def place : ExportError → Option String
  | element e => some e.place
  | file e => e.place

/-- The failure as one of the file at a path. -/
def toFileError (path : String) : ExportError → FileError
  | element e => ⟨e.message, path, some e.place⟩
  | file e => e

end ExportError

end DocTree
