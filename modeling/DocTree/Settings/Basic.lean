import DocTree.Log.Basic
import DocTree.Schema.Check
import DocTree.Tag.Registry

/-!
# Settings

The settings of an export come in three sections, for hashes, for the run and for the log, with two
settings of their own: annotations bound in addition to the standard ones, and whether to debug.
Every setting has a default, so a document that gives none is a document of settings.
-/

namespace DocTree

open Schema

/-- How hashes are read. -/
structure HashSection where
  maxDepth : Nat
  sharedIndex : Bool
  /-- Keep the text of a hash that cannot be read. -/
  fallbackToRaw : Bool
  deriving DecidableEq, Repr

/-- How files are exported. -/
structure ExportSection where
  /-- How many files are exported at once by a concurrent run. -/
  parallelFiles : Nat
  /-- Go on after a file that fails. -/
  continueOnError : Bool
  /-- The functions whose second argument is the version of a deprecation. -/
  deprecationFunctions : List String
  deriving DecidableEq, Repr

/-- What is logged, and where. -/
structure LogSection where
  level : LogLevel
  file : Option String
  format : String
  deriving DecidableEq, Repr

/-- All settings. -/
structure Settings where
  hashes : HashSection
  exporting : ExportSection
  log : LogSection
  /-- Annotations bound in addition to the standard ones, by the name of their kind. -/
  extraTags : Bindings String
  debug : Bool
  deriving DecidableEq, Repr

/-! ## Defaults -/

/-- The functions that mark a deprecation unless others are given. -/
def defaultDeprecationFunctions : List String :=
  ["_deprecated_file", "_deprecated_function", "_deprecated_argument"]

/-- The format of a line of the log file unless another one is given. -/
def defaultLogFormat : String := "%(asctime)s %(levelname)s %(name)s: %(message)s"

/-- The default settings for hashes. -/
def HashSection.standard : HashSection := ⟨3, true, true⟩

/-- The default settings for the run. -/
def ExportSection.standard : ExportSection := ⟨1, true, defaultDeprecationFunctions⟩

/-- The default settings for the log. -/
def LogSection.standard : LogSection := ⟨.info, none, defaultLogFormat⟩

/-- The default settings. -/
def Settings.standard : Settings := ⟨.standard, .standard, .standard, [], false⟩

/-! ## From documents -/

/-- The section for hashes from a document. -/
def HashSection.check : Value → Checked HashSection :=
  ofFields "HashNotationConfig" fun es =>
    HashSection.mk <$> field es "max_depth" 3 (natBetween 1 10) <*>
      field es "shared_index" true truth <*> field es "fallback_to_raw" true truth

/-- Names trimmed, the blank ones dropped and the others kept once. -/
def cleanNames (names : List String) : List String :=
  ((names.map fun n => String.ofList (Text.trim n.toList)).filter (· != "")).eraseDups

/-- The section for the run from a document. -/
def ExportSection.check : Value → Checked ExportSection :=
  ofFields "ExportConfig" fun es =>
    ExportSection.mk <$> field es "parallel_files" 1 (natBetween 1 64) <*>
      field es "continue_on_error" true truth <*>
      field es "deprecation_functions" defaultDeprecationFunctions
        (fun v => (listOf text v).map cleanNames)

/-- The levels that can be set. -/
def levelChoices : List (String × LogLevel) :=
  [("DEBUG", .debug), ("INFO", .info), ("WARNING", .warning), ("ERROR", .error)]

/-- The capital of a letter, if the capital is an ASCII letter. -/
def asciiCapital (c : Char) : Char :=
  if c == 'ı' then 'I' else if c == 'ſ' then 'S' else c.toUpper

/-- The name of a level in any case. -/
def levelName (v : Value) : Checked LogLevel :=
  match v with
  | .str s => choice levelChoices (.str (String.ofList (s.toList.map asciiCapital)))
  | v => choice levelChoices v

/-- The section for the log from a document. -/
def LogSection.check : Value → Checked LogSection :=
  ofFields "LoggingConfig" fun es =>
    LogSection.mk <$> field es "level" .info levelName <*>
      field es "file" none (optional text) <*> field es "format" defaultLogFormat text

/-- Every extra annotation has to name a kind. -/
def extraTagsRule (tags : Bindings String) : Option String :=
  (tags.find? fun t => (TagKind.ofName? t.2).isNone).map fun t =>
    "Unknown tag kind '" ++ t.2 ++ "' for '@" ++ t.1 ++ "', expected one of " ++
      Text.quotedList (Text.sortNames (TagKind.all.map TagKind.name))

/-- Settings from a document. -/
def Settings.check : Value → Checked Settings :=
  ofFields "DocExportConfig" fun es =>
    Settings.mk <$> field es "hash_notation" .standard HashSection.check <*>
      field es "export" .standard ExportSection.check <*>
      field es "logging" .standard LogSection.check <*>
      field es "extra_tags" [] (fun v => (mapOf text v).obeying extraTagsRule) <*>
      field es "debug" false truth

/-! ## As documents -/

/-- The section for hashes as a document. -/
def HashSection.toValue (s : HashSection) : Value :=
  .record [("max_depth", .nat s.maxDepth), ("shared_index", .bool s.sharedIndex),
    ("fallback_to_raw", .bool s.fallbackToRaw)]

/-- The section for the run as a document. -/
def ExportSection.toValue (s : ExportSection) : Value :=
  .record [("parallel_files", .nat s.parallelFiles), ("continue_on_error", .bool s.continueOnError),
    ("deprecation_functions", .strs s.deprecationFunctions)]

/-- The section for the log as a document. -/
def LogSection.toValue (s : LogSection) : Value :=
  .record [("level", .str s.level.name), ("file", .optStr s.file), ("format", .str s.format)]

/-- Settings as a document. -/
def Settings.toValue (s : Settings) : Value :=
  .record [("hash_notation", s.hashes.toValue), ("export", s.exporting.toValue),
    ("logging", s.log.toValue), ("extra_tags", .record (s.extraTags.map fun t => (t.1, .str t.2))),
    ("debug", .bool s.debug)]

/-- The section for the log without the settings that are absent. -/
def LogSection.toSavedValue (s : LogSection) : Value :=
  .record ([("level", .str s.level.name)] ++
    (match s.file with
      | some f => [("file", .str f)]
      | none => []) ++ [("format", .str s.format)])

/-- Settings as they are saved: the settings that are absent are left out. -/
def Settings.toSavedValue (s : Settings) : Value :=
  .record [("hash_notation", s.hashes.toValue), ("export", s.exporting.toValue),
    ("logging", s.log.toSavedValue),
    ("extra_tags", .record (s.extraTags.map fun t => (t.1, .str t.2))), ("debug", .bool s.debug)]

/-! ## What settings decide -/

/-- The registry that settings ask for. -/
def Settings.registry (s : Settings) (base : Registry) : Except RegistryError Registry :=
  if s.extraTags.isEmpty then .ok base
  else base.extend (s.extraTags.map fun t => (t.1, .str t.2)) none

end DocTree
