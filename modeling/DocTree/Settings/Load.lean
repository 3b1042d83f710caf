import DocTree.Files.Folder
import DocTree.Schema.Report
import DocTree.Settings.Basic
import DocTree.Settings.Reference
import DocTree.Yaml.Read
import DocTree.Yaml.Write

/-!
# Loading settings

Settings come from a file in YAML. Its references to the environment are replaced, variables of the
environment override single settings, entries without a value are dropped, and what is left is
checked. Without a file all settings have their defaults, the overriding variables apart.

The `Workspace` is what loading depends on and changes: the folder, the environment, whether the
environment file has been read, which happens once, and the settings in force. A `Loader` remembers the
file it loads and what it has loaded. A failure leaves the changes to both in place.
-/

namespace DocTree

open Schema

/-- Why settings cannot be loaded. -/
inductive SettingsError where
  /-- There is no such settings file. -/
  | missing (path : String)
  /-- A variable of the environment names a settings file that is not there. -/
  | missingNamed (path : String)
  | unopened (e : OpenError)
  /-- The text is not a document. -/
  | malformed (path : String)
  /-- A scalar of the document has no value. -/
  | badScalar (e : Yaml.Error)
  | reported (r : Report)
  /-- A setting is not named by a text. -/
  | unnamed
  deriving DecidableEq, Repr

/-- The variable that names the settings file. -/
def settingsVariable : String := "DOCEXPORT_CONFIG"

/-- What is reported about settings that cannot be loaded. -/
def SettingsError.message : SettingsError → String
  | .missing path => "Config file not found: " ++ path
  | .missingNamed path =>
    "Config file specified by " ++ settingsVariable ++ " not found: " ++ path
  | .unopened e => e.message
  | .malformed _ => "Invalid YAML"
  | .badScalar e => e.message
  | .reported r => r.text
  | .unnamed => ""

/-- The settings files that are looked for, in order. -/
def settingsFiles : List String :=
  ["docexport.yaml", "docexport.yml", ".docexport.yaml", ".docexport.yml"]

/-- The environment file that is read unless another one is named. -/
def defaultEnvFile : String := ".env"

/-! ## The workspace -/

/-- What loading depends on. -/
structure Workspace where
  folder : Folder
  env : Environment
  /-- The environment file has been looked for. -/
  envFileRead : Bool
  /-- The settings in force. -/
  current : Option Settings

namespace Workspace

/-- A workspace in which nothing has been loaded yet. -/
def fresh (folder : Folder) (env : Environment) : Workspace := ⟨folder, env, false, none⟩

/-- Read an environment file, unless one has been looked for already; whether one was found then or
now. -/
def readEnvFile (file : String) (w : Workspace) : Bool × Workspace :=
  if w.envFileRead then (true, w)
  else
    let w := { w with envFileRead := true }
    if w.folder.isFile file then
      match w.folder.read file with
      | .ok text => (true, { w with env := EnvFile.extend w.env (Text.unifyBreaks text.toList) })
      | .error _ => (false, w)
    else (false, w)

/-- The variables that concern the program, by name. -/
def ownVariables (w : Workspace) : List (String × String) :=
  let own : Bindings String :=
    w.env.filter fun v => "DOCEXPORT_".toList.isPrefixOf v.1.toList
  (Text.sortNames own.names).filterMap fun n => (own.get? n).map fun v => (n, v)

end Workspace

/-! ## Loading -/

/-- Loads settings from one file, and remembers them. -/
structure Loader where
  path : Option String
  envFile : String
  settings : Option Settings
  deriving DecidableEq, Repr

/-- The mapping in a settings file; a file without content counts as an empty mapping. -/
def settingsDocument (d : Folder) (path : String) : Except SettingsError Entries :=
  if !d.has path then .error (.missing path)
  else match d.read path with
    | .error e => .error (.unopened e)
    | .ok text =>
      match Yaml.read (Text.unifyBreaks text.toList) with
      | .error .malformed => .error (.malformed path)
      | .error e => .error (.badScalar e)
      | .ok (.map es) => .ok es
      | .ok v =>
        if v.truthy then .error (.reported (.about path "Configuration root must be a mapping"))
        else .ok []

/-- A mapping of settings with the environment's part in it. -/
def prepareSettings (env : Environment) (es : Entries) : Entries :=
  dropNullsEntries (applyOverrides env (substituteEntries env es))

/-- Every key is a text. -/
def namesOnly (es : Entries) : Bool :=
  es.all fun e => match e.1 with
    | .str _ => true
    | _ => false

/-- The settings that a prepared mapping gives. -/
def checkSettings (path : Option String) (es : Entries) : Except SettingsError Settings :=
  if !namesOnly es then .error .unnamed
  else match Settings.check (.map es) with
    | .ok s => .ok s
    | .bad issues =>
      .error (.reported ⟨"Configuration validation failed: " ++ toString issues.length ++ " errors", path,
        issues.map Issue.toFinding⟩)

/-- The settings in a file, or the default ones, in an environment. -/
def settingsFrom (d : Folder) (env : Environment) (path : Option String) :
    Except SettingsError Settings := do
  let es ← match path with
    | some p => settingsDocument d p
    | none => .ok []
  checkSettings path (prepareSettings env es)

/-- The settings file that the environment names, or the first of the usual ones that is there. -/
def settingsFile (d : Folder) (env : Environment) : Except SettingsError (Option String) :=
  match (env.get? settingsVariable).getD "" with
  | "" => .ok (settingsFiles.find? fun p => d.has p)
  | named =>
    if d.has (Path.normal named) then .ok (some (Path.normal named)) else .error (.missingNamed named)

namespace Loader

/-- A loader for a file; an empty name is none. -/
def make (path : Option String) (envFile : String) : Loader :=
  ⟨(path.filter (· != "")).map Path.normal, envFile, none⟩

/-- Load the settings, from another file if one is given. -/
def load (l : Loader) (path : Option String) (w : Workspace) :
    Except SettingsError Settings × Loader × Workspace :=
  let l := match path with
    | some p => { l with path := some (Path.normal p) }
    | none => l
  let w := (w.readEnvFile l.envFile).2
  match settingsFrom w.folder w.env l.path with
  | .ok s => (.ok s, { l with settings := some s }, w)
  | .error e => (.error e, l, w)

/-- Load the settings from the file that the environment names, or from a usual one. -/
def loadNamed (l : Loader) (w : Workspace) : Except SettingsError Settings × Loader × Workspace :=
  let w := (w.readEnvFile l.envFile).2
  match settingsFile w.folder w.env with
  | .ok path => l.load path w
  | .error e => (.error e, l, w)

/-- Why settings cannot be saved. -/
inductive SaveError where
  | nothingLoaded
  | noPath
  | unopened (e : OpenError)
  deriving DecidableEq, Repr

/-- What is reported about settings that cannot be saved. -/
def SaveError.message : SaveError → String
  | .nothingLoaded => "No configuration loaded"
  | .noPath => "No path specified for saving"
  | .unopened e => e.message

/-- Save what was loaded, to another file if one is given. -/
def save (l : Loader) (path : Option String) (d : Folder) : Except SaveError Folder :=
  match l.settings with
  | none => .error .nothingLoaded
  | some s =>
    match ((path.filter (· != "")).map Path.normal).or l.path with
    | none => .error .noPath
    | some p =>
      match d.write p (savedText s) with
      | .ok d => .ok d
      | .error e => .error (.unopened e)
where
  savedText (s : Settings) : String :=
    match s.toSavedValue with
    | .map es => Yaml.write es
    | _ => ""

end Loader

namespace Workspace

/-- Put settings in force: from a file, or from the one that the environment names. -/
def loadSettings (path : Option String) (envFile : String) (w : Workspace) :
    Except SettingsError Settings × Workspace :=
  let l := Loader.make path envFile
  let (r, _, w) := if l.path.isSome then l.load none w else l.loadNamed w
  match r with
  | .ok s => (.ok s, { w with current := some s })
  | .error e => (.error e, w)

/-- The settings in force, loaded on first use. -/
def settings (w : Workspace) : Except SettingsError Settings × Workspace :=
  match w.current with
  | some s => (.ok s, w)
  | none => w.loadSettings none defaultEnvFile

end Workspace

end DocTree
