import DocTree.Files.Folder
import DocTree.Json.Read
import DocTree.Log.Basic
import DocTree.Schema.Report
import DocTree.Source.Check
import DocTree.Source.Classify
import DocTree.Yaml.Read

/-!
# Dumps in files

A reflector writes its dump as JSON or as YAML, and the suffix of the file's name says which. The
document is a list of files, or a mapping with such a list under `files`; each file is a mapping.

`Dump.read` gives those mappings with their annotations classified, and `Dump.load` checks them all and
reports the issues of all of them together.
-/

namespace DocTree

open Schema

/-- Why a dump cannot be loaded. -/
inductive LoadError where
  /-- There is no such file. -/
  | missing (path : String)
  | unopened (e : OpenError)
  /-- The text is not a document of its format. -/
  | malformed (format path : String)
  /-- A scalar of the document has no value. -/
  | badScalar (e : Yaml.Error)
  | reported (r : Report)
  | unclassified (e : ClassifyError)
  deriving DecidableEq, Repr

/-- What is reported about a dump that cannot be loaded. -/
def LoadError.message : LoadError → String
  | .missing path => "Reflection dump not found: " ++ path
  | .unopened e => e.message
  | .malformed format _ => "Invalid " ++ format ++ " document"
  | .badScalar e => e.message
  | .reported r => r.text
  | .unclassified _ => ""

/-- The source of records about dumps. -/
def loadLogSource : String := "docexport.reflection.loader"

namespace Dump

/-- The suffixes of dumps, in order. -/
def suffixes : List String := [".json", ".yaml", ".yml"]

/-- A dump with another suffix. -/
def unsupported (path : String) : Report :=
  .about path ("Unsupported dump format '" ++ Path.kind path ++ "', expected one of " ++
    Text.quotedList suffixes)

/-- The document that a text in YAML writes. -/
def yamlDocument (format path : String) (text : List Char) : Except LoadError Value :=
  match Yaml.read text with
  | .ok v => .ok v
  | .error .malformed => .error (.malformed format path)
  | .error e => .error (.badScalar e)

/-- The document that a text writes in the format of the file's suffix. -/
def document (path : String) (text : List Char) : Except LoadError Value :=
  match Path.kind path with
  | ".json" =>
    match Json.read? text with
    | some v => .ok v
    | none => .error (.malformed "JSON" path)
  | ".yaml" => yamlDocument "YAML" path text
  | ".yml" => yamlDocument "YML" path text
  | _ => .error (.reported (unsupported path))

/-- The files of a dump: its items, or those under `files`. -/
def filesOf? : Value → Option (List Value)
  | .list items => some items
  | .map es =>
    match Entries.get? "files" es with
    | some (.list items) => some items
    | _ => none
  | _ => none

/-- The position of the first item that is not a mapping. -/
def firstStray? (items : List Value) : Option Nat :=
  items.findIdx? fun v => match v with
    | .map _ => false
    | _ => true

/-- The files of a document, each of which is a mapping. -/
def fileMappings (path : String) (v : Value) : Except LoadError (List Value) :=
  match filesOf? v with
  | none =>
    .error (.reported (.about path "Dump must be a list of files or contain a 'files' list"))
  | some items =>
    match firstStray? items with
    | some i =>
      .error (.reported (.about path ("File entry #" ++ toString i ++ " is not a mapping")))
    | none => .ok items

/-- The document in a file of the folder. -/
def open? (d : Folder) (path : String) : Except LoadError Value :=
  if !d.has path then .error (.missing path)
  else match d.read path with
    | .ok text => document path (Text.unifyBreaks text.toList)
    | .error e => .error (.unopened e)

/-- The files of a dump with their annotations classified. -/
def read (d : Folder) (path : String) (r : Registry) : Traced LoadError (List Value) := do
  let path := Path.normal path
  let v ← Traced.ofExcept (open? d path)
  let items ← Traced.ofExcept (fileMappings path v)
  let files ← match classifyItems r items with
    | .ok files => pure files
    | .error e => throw (.unclassified e)
  Traced.write .debug loadLogSource
    ("Read " ++ toString files.length ++ " reflected files from " ++ path)
  return files

/-- Check files one after another: those that are source files, and the findings in the others. -/
def checkAll : Nat → List Value → List SourceFile × List Finding
  | _, [] => ([], [])
  | i, v :: rest =>
    let (files, findings) := checkAll (i + 1) rest
    match ((SourceFile.check v).under (.index i)).under (.name "files") with
    | .ok f => (f :: files, findings)
    | .bad issues => (files, issues.map Issue.toFinding ++ findings)

/-- The items of a dump as source files, if all of them are; else the findings in those that are not. -/
def accept (path : String) (items : List Value) : Except LoadError (List SourceFile) :=
  let (files, findings) := checkAll 0 items
  if findings.isEmpty then .ok files
  else .error (.reported ⟨"Reflection dump validation failed: " ++ toString findings.length ++
    " errors", some path, findings⟩)

/-- The files of a dump, all of them checked. -/
def load (d : Folder) (path : String) (r : Registry) : Traced LoadError (List SourceFile) := do
  let items ← read d path r
  Traced.ofExcept (accept (Path.normal path) items)

end Dump

end DocTree
