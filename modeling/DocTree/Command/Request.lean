import DocTree.Command.Line
import DocTree.Files.Folder

/-!
# What a command line asks for

The program has three commands: to export a dump, to read one hash, and to show the settings. Each of
them takes a settings file; a file that is to be read has to be there.
-/

namespace DocTree.Command

/-- A command. -/
inductive Task where
  | exportDump (dump root : String) (config output : Option String) (concurrent : Bool)
  | readHash (text : String) (config : Option String)
  | showSettings (config : Option String)
  deriving DecidableEq, Repr

/-- What a command line asks for. -/
inductive Request where
  | perform (verbose : Bool) (task : Task)
  | showVersion
  | showHelp
  deriving DecidableEq, Repr

/-! ## Options -/

/-- The option that every command has. -/
def helpOption : OptionSpec := ⟨"help", none, false⟩

/-- The option that names the settings file. -/
def configOption : OptionSpec := ⟨"config", some 'c', true⟩

/-- The options in front of the command. -/
def mainOptions : List OptionSpec :=
  [⟨"verbose", some 'v', false⟩, ⟨"version", none, false⟩, helpOption]

/-- The options of an export. -/
def exportOptions : List OptionSpec :=
  [⟨"root", some 'r', true⟩, configOption, ⟨"output", some 'o', true⟩, ⟨"concurrent", none, false⟩,
   helpOption]

/-- The options of the other commands. -/
def plainOptions : List OptionSpec := [configOption, helpOption]

/-! ## Operands and files -/

/-- A file to be read is there. -/
def checkInput (d : Folder) (path : String) : Except UsageError Unit :=
  if path != "" && d.isFile path then .ok () else .error (.badFile path)

/-- A file to be read is there, if one is named. -/
def checkInput? (d : Folder) : Option String → Except UsageError Unit
  | some path => checkInput d path
  | none => .ok ()

/-- A file to be written is no folder. -/
def checkOutput (d : Folder) : Option String → Except UsageError Unit
  | some path => if path != "" && d.isFolder path then .error (.badFile path) else .ok ()
  | none => .ok ()

/-- The one operand of a command. -/
def oneOperand (name : String) : List String → Except UsageError String
  | [word] => .ok word
  | [] => .error (.missingOperand name)
  | _ :: extra :: _ => .error (.extraOperand extra)

/-- A command without operands. -/
def noOperand : List String → Except UsageError Unit
  | [] => .ok ()
  | word :: _ => .error (.extraOperand word)

/-! ## Commands -/

/-- An export. -/
def exportTask (d : Folder) (l : Line) : Except UsageError Task := do
  let dump ← oneOperand "DUMP" l.operands
  let root ← match l.value? "root" with
    | some r => .ok r
    | none => .error (.missingOption "root")
  checkInput d dump
  checkInput? d (l.value? "config")
  checkOutput d (l.value? "output")
  return .exportDump dump root (l.value? "config") (l.value? "output") (l.has "concurrent")

/-- The reading of a hash. -/
def hashTask (d : Folder) (l : Line) : Except UsageError Task := do
  let text ← oneOperand "TEXT" l.operands
  checkInput? d (l.value? "config")
  return .readHash text (l.value? "config")

/-- The settings. -/
def settingsTask (d : Folder) (l : Line) : Except UsageError Task := do
  noOperand l.operands
  checkInput? d (l.value? "config")
  return .showSettings (l.value? "config")

/-- The options of a command and how its task is read. -/
def commandNamed? (d : Folder) :
    String → Option (List OptionSpec × (Line → Except UsageError Task))
  | "export" => some (exportOptions, exportTask d)
  | "parse-hash" => some (plainOptions, hashTask d)
  | "config" => some (plainOptions, settingsTask d)
  | _ => none

/-- The request that words make in a folder. -/
def Request.read (d : Folder) (words : List String) : Except UsageError Request := do
  let l ← Line.read mainOptions false words
  if l.has "help" then return .showHelp
  else if l.has "version" then return .showVersion
  else match l.operands with
    | [] => .error .noCommand
    | name :: words =>
      match commandNamed? d name with
      | none => .error (.unknownCommand name)
      | some (specs, task) =>
        let inner ← Line.read specs true words
        if inner.has "help" then return .showHelp
        else return .perform (l.has "verbose") (← task inner)

end DocTree.Command
