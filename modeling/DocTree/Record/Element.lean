import DocTree.Record.Docblock
import DocTree.Record.Error
import DocTree.Record.Path
import DocTree.Settings.Basic
import DocTree.Source.Element

/-!
# Exported elements

Each element is exported as a mapping with a fixed order of fields; parts that have nothing to report
are left out where the format says so. A failure inside an element is laid at the innermost element
around it, and a failure in the doc comment of a file at the file.

Calls of a deprecation function carry the version of a deprecation as their second argument. The
export attaches it to the first use of that function in its group; a later call overrides it.
-/

namespace DocTree

/-- How elements are exported. -/
structure Exporter where
  normalizer : Normalizer
  /-- The functions whose second argument is the version of a deprecation. -/
  deprecationFunctions : List String

/-- The source of records about elements. -/
def exporterLogSource : String := "docexport.export.exporters"

/-- A failure of a hash as the cause of a failure of an element. -/
def hashCause (e : Hash.Error) : String := "HashNotationError: " ++ e.message

/-- The doc comment of an element, a failure being laid at the element. -/
def Exporter.elementDoc (x : Exporter) (kind : String) (h : Head) : Traced ExportError Value :=
  (x.normalizer.docblock h.docblock).mapError fun e =>
    .element ⟨hashCause e, kind, h.name, some h.line⟩

/-! ## Arguments, inclusions and constants -/

/-- Exported arguments. -/
def exportArguments (args : List Argument) : Value :=
  .list (args.map fun a =>
    .record [("name", .str a.name), ("default", .optStr a.default), ("type", .optStr a.type)])

/-- Exported inclusions. -/
def exportIncludes (includes : List Inclusion) : Value :=
  .list (includes.map fun i =>
    .record [("name", .str i.name), ("line", .nat i.line), ("type", .str i.kind.name)])

/-- Exported constants. -/
def exportConstants (constants : List ConstantDecl) : Value :=
  .list (constants.map fun c =>
    .record [("name", .str c.name), ("line", .nat c.line), ("value", .optStr c.value)])

/-! ## Uses -/

/-- One exported use. -/
structure UseEntry where
  name : String
  line : Nat
  endLine : Option Nat
  /-- The version of a deprecation. -/
  version : Option Value

/-- A use as a document. -/
def UseEntry.toValue (e : UseEntry) : Value :=
  .record ([("name", .str e.name), ("line", .nat e.line), ("end_line", .optNat e.endLine)] ++
    match e.version with
    | some v => [("deprecation_version", v)]
    | none => [])

/-- The version that a call of a deprecation function names. -/
def Usage.version? (u : Usage) : Option Value :=
  match u.arguments with
  | _ :: .null :: _ => none
  | _ :: v :: _ => some v
  | _ => none

/-- Attach a version to the first entry with a name. -/
def attachVersion (name : String) (version : Value) : List UseEntry → List UseEntry
  | [] => []
  | e :: rest =>
    if e.name == name then { e with version := some version } :: rest
    else e :: attachVersion name version rest

/-- Add a use to the entries of its group. -/
def addUse (markers : List String) (entries : List UseEntry) (u : Usage) : List UseEntry :=
  let entries := entries ++ [⟨u.head.name, u.head.line, u.head.endLine, none⟩]
  if markers.contains u.head.name then
    match u.version? with
    | some v => attachVersion u.head.name v entries
    | none => entries
  else entries

/-- The entries of a group of uses. -/
def groupEntries (markers : List String) (uses : List Usage) : List UseEntry :=
  uses.foldl (addUse markers) []

/-- The group that is not exported with the uses. -/
def hooksGroup : String := "hooks"

/-- Exported uses: the group of hooks and the empty groups are left out. -/
def exportUses (markers : List String) (uses : List (String × List Usage)) : Value :=
  .record ((uses.filter fun g => g.1 != hooksGroup && !g.2.isEmpty).map fun g =>
    (g.1, .list ((groupEntries markers g.2).map UseEntry.toValue)))

/-- What the log says about a use. -/
def useNotes (markers : List String) (u : Usage) : List String :=
  if markers.contains u.head.name && u.version?.isNone then
    [u.head.name ++ " call on line " ++ toString u.head.line ++ " has no literal version"]
  else []

/-- What the log says about grouped uses. -/
def usesNotes (markers : List String) (uses : List (String × List Usage)) : List String :=
  uses.flatMap fun g =>
    if g.1 == hooksGroup then ["Dropping 'hooks' use group, hooks are exported separately"]
    else g.2.flatMap (useNotes markers)

namespace Exporter

/-- Write notes about elements into the log. -/
def note {ε : Type} (notes : List String) : Traced ε Unit :=
  ExceptT.mk ⟨.ok (), notes.map fun m => ⟨.debug, exporterLogSource, m⟩⟩

/-- Exported uses, with notes in the log. -/
def uses {ε : Type} (x : Exporter) (groups : List (String × List Usage)) : Traced ε Value := do
  note (usesNotes x.deprecationFunctions groups)
  return exportUses x.deprecationFunctions groups

/-! ## Hooks and members -/

/-- The fields of an exported head. -/
def headFields (h : Head) : List (String × Value) :=
  [("name", .str h.name), ("line", .nat h.line), ("end_line", .optNat h.endLine)]

/-- An exported hook. -/
def hook (x : Exporter) (h : Hook) : Traced ExportError Value := do
  let doc ← x.elementDoc "hook" h.head
  return .record (headFields h.head ++
    [("type", .str h.kind.name), ("arguments", .strs h.arguments), ("doc", doc)])

/-- Exported hooks. -/
def hooks (x : Exporter) (hs : List Hook) : Traced ExportError (List Value) := hs.mapM x.hook

/-- An exported property; one without a doc comment has no `doc`. -/
def property (x : Exporter) (p : PropertyDecl) : Traced ExportError Value := do
  let fields := headFields p.head ++
    [("default", .optStr p.default), ("static", .bool p.isStatic),
     ("visibility", .str p.visibility.name)]
  if p.head.docblock.isSome then
    let doc ← x.elementDoc "property" p.head
    return .record (fields ++ [("doc", doc)])
  else return .record fields

/-- The fields of what a body uses and of the hooks that it fires. -/
def bodyFields (x : Exporter) (b : Body) : Traced ExportError (List (String × Value)) := do
  if b.refersToOthers then
    let uses ← x.uses b.uses
    let hooks ← x.hooks b.hooks
    return [("hooks", .list hooks), ("uses", uses)]
  else return [("hooks", .list [])]

/-- An exported function. -/
def function (x : Exporter) (f : FunctionDecl) : Traced ExportError Value := do
  let doc ← x.elementDoc "function" f.head
  let references ← x.bodyFields f.body
  return .record (headFields f.head ++
    [("arguments", exportArguments f.body.arguments), ("doc", doc)] ++ references)

/-- An exported method. -/
def method (x : Exporter) (m : MethodDecl) : Traced ExportError Value := do
  let doc ← x.elementDoc "method" m.head
  let references ← x.bodyFields m.body
  return .record (headFields m.head ++
    [("final", .bool m.isFinal), ("abstract", .bool m.isAbstract), ("static", .bool m.isStatic),
     ("visibility", .str m.visibility.name), ("arguments", exportArguments m.body.arguments),
     ("doc", doc)] ++ references)

/-- An exported class. -/
def classDecl (x : Exporter) (c : ClassDecl) : Traced ExportError Value := do
  let properties ← c.properties.mapM x.property
  let methods ← c.methods.mapM x.method
  let doc ← x.elementDoc "class" c.head
  return .record (headFields c.head ++
    [("final", .bool c.isFinal), ("abstract", .bool c.isAbstract), ("extends", .optStr c.parent),
     ("implements", .strs c.interfaces), ("properties", .list properties),
     ("methods", .list methods), ("doc", doc)])

/-! ## Files -/

/-- A field that is left out where there is nothing to report. -/
def unlessEmpty {α : Type} (xs : List α) (name : String) (v : Value) : List (String × Value) :=
  if xs.isEmpty then [] else [(name, v)]

/-- The doc comment of a file, a failure being laid at the file. -/
def fileDoc (x : Exporter) (f : SourceFile) : Traced ExportError Value :=
  (x.normalizer.docblock f.docblock).mapError fun e =>
    .file ⟨hashCause e, f.path, some "file docblock"⟩

/-- An exported file. -/
def file (x : Exporter) (root : String) (f : SourceFile) : Traced ExportError Value := do
  let doc ← x.fileDoc f
  note (outsideNote? f.path root).toList
  let uses ← x.uses f.uses
  let hooks ← x.hooks f.hooks
  let functions ← f.functions.mapM x.function
  let classes ← f.classes.mapM x.classDecl
  return .record ([("file", doc), ("path", .str (relativePath f.path root)), ("root", .str root)] ++
    unlessEmpty f.uses "uses" uses ++
    unlessEmpty f.includes "includes" (exportIncludes f.includes) ++
    unlessEmpty f.constants "constants" (exportConstants f.constants) ++
    unlessEmpty f.hooks "hooks" (.list hooks) ++
    unlessEmpty f.functions "functions" (.list functions) ++
    unlessEmpty f.classes "classes" (.list classes))

end Exporter

end DocTree
