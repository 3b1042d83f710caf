import DocTree.Command.Perform

/-!
# What a command line may need

A command is performed on the text files of a folder and on variables of the environment. This module
says which of them a command line may need, so that they can be gathered beforehand: the files that its
words may name, the settings files and environment files that are looked for, the file of the log, and
the variables that any of the texts refers to. Naming more than is needed does no harm.
-/

namespace DocTree.Command

/-- The names that a word of a command line may hold: the word, what stands behind an equals sign, and
what stands behind a short option. -/
def namesIn (word : String) : List String :=
  let cs := word.toList
  let behindSign := (cs.dropWhile (· != '=')).drop 1
  [word, String.ofList behindSign, String.ofList (cs.drop 2)].filter (· != "")

/-- The settings file that the environment names. -/
def namedSettings (env : Environment) : List String :=
  ((env.get? settingsVariable).filter (· != "")).toList

/-- The settings file that a command line names. -/
def configOf (d : Folder) (words : List String) : Option String :=
  match Request.read d words with
  | .ok (.perform _ (.exportDump _ _ config _ _)) => config
  | .ok (.perform _ (.readHash _ config)) => config
  | .ok (.perform _ (.showSettings config)) => config
  | _ => none

/-- The file that the settings of a command line send the log to. -/
def logFileOf (words : List String) (w : Workspace) : List String :=
  match (w.loadSettings (configOf w.folder words) defaultEnvFile).1 with
  | .ok s => s.log.file.toList
  | .error _ => []

/-- The files that a command line may need, as far as the files gathered so far show it. -/
def neededFiles (words : List String) (w : Workspace) : List String :=
  let env := (w.readEnvFile defaultEnvFile).2.env
  words.flatMap namesIn ++ settingsFiles ++ [defaultEnvFile] ++ namedSettings env ++ logFileOf words w

/-- The names behind a dollar sign and a brace. -/
def namesReferred : List Char → List String
  | [] => []
  | '$' :: '{' :: rest =>
    String.ofList (rest.takeWhile fun c => c != '}' && c != ':') :: namesReferred rest
  | _ :: rest => namesReferred rest

/-- The variables that a text may need: those that it refers to, and those that it would set if it is an
environment file. -/
def variablesIn (text : String) : List String :=
  namesReferred text.toList ++ (EnvFile.lines text.toList).map (·.1)

/-- The variables that a command may need. -/
def neededVariables (d : Folder) : List String :=
  (settingsVariable :: overrides.map (·.1) ++ d.files.flatMap fun f => variablesIn f.2).eraseDups

/-- The files of a folder that differ from those of an earlier one. -/
def changedFiles (before after : Folder) : List (Place × String) :=
  after.files.filter fun f => before.textAt? f.1 != some f.2

/-- A place as a name that starts at the root. -/
def placeName (p : Place) : String := String.ofList (p.flatMap fun part => '/' :: part)

end DocTree.Command
