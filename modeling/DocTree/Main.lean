import DocTree.Command.Markup
import DocTree.Command.Needs
import Std.Time.Format

/-!
# The command line

Gathers the files and variables that the command line may need, performs the command on them, and
writes what it changed and what it says.
-/

namespace DocTree.Command

/-- The text of a file on disk, if it can be read. -/
def textOnDisk? (name : String) : IO (Option String) := do
  try return some (← IO.FS.readFile name) catch _ => return none

/-- There is a folder on disk. -/
def isFolderOnDisk (name : String) : IO Bool := do
  try
    let _ ← IO.FS.Handle.mk (name ++ "/.") .read
    return true
  catch _ => return false

/-- Take over a file or folder from disk, and the folder in which it lies or would lie. -/
def gatherFile (d : Folder) (name : String) : IO Folder := do
  let p := d.placeOf name
  let d ← if ← isFolderOnDisk (placeName p.dropLast) then pure (d.makeFolder p.dropLast) else pure d
  if ← isFolderOnDisk name then return d.makeFolder p
  else match ← textOnDisk? name with
    | some text => return d.setAt p text
    | none => return d

/-- Take over the variables that may be needed. -/
def gatherVariables (d : Folder) : IO Environment := do
  let mut env : Environment := []
  for name in neededVariables d do
    if let some v ← IO.getEnv name then env := env.set name v
  return env

/-- Take over what may be needed; files that have been taken over show which others may be needed. -/
def gather (words : List String) : Nat → Workspace → IO Workspace
  | 0, w => return w
  | rounds + 1, w => do
    let folder ← (neededFiles words w).foldlM gatherFile w.folder
    let env ← gatherVariables folder
    gather words rounds (.fresh folder env)

/-- Write the files that a command changed. -/
def writeChanges (before after : Folder) : IO Unit :=
  for (p, text) in changedFiles before after do
    IO.FS.createDirAll (placeName p.dropLast)
    IO.FS.writeFile (placeName p) text

/-- The time that the log shows. -/
def clockTime : IO String := do
  return (← Std.Time.PlainDateTime.now).format "uuuu-MM-dd HH:mm:ss,SSS"

/-- Say on the console what a command led to. -/
def report (o : Outcome) : IO Unit := do
  for r in o.rows do IO.eprintln (r.1 ++ " " ++ r.2)
  for m in o.messages do IO.eprintln m
  if let some e := o.complaint then IO.eprintln ("Error: " ++ e.message)
  if let some b := o.breakdown then IO.eprintln b.message

/-- Perform a command line on disk; the exit code. -/
def performOnDisk (words : List String) : IO UInt32 := do
  let home := Path.parts (toString (← IO.currentDir)).toList
  let w ← gather words 3 (.fresh (.empty home) [])
  let (o, after) := run ⟨.simple, shortWording, ← clockTime, []⟩ words w
  writeChanges w.folder after.folder
  IO.print o.stdout
  report o
  return o.exitCode.toUInt32

end DocTree.Command

def main (words : List String) : IO UInt32 := DocTree.Command.performOnDisk words
