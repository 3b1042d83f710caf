import DocTree.Command.Console
import DocTree.Command.Request
import DocTree.Log.Setup
import DocTree.Settings.Load
import DocTree.Source.Load

/-!
# What a command leads to

A command ends with an exit code. Its result goes to the standard output, while messages and the rows
of a table are shown on the console. A command may also break down, for a cause that is none of those it
has a message for; then nothing more is shown.
-/

namespace DocTree.Command

/-- Why a command breaks down. -/
inductive Breakdown where
  | settings (e : SettingsError)
  | log (e : LogError)
  | registry (e : RegistryError)
  | dump (e : LoadError)
  /-- A value is not of the right type: the annotations of a doc comment have no items, or a key of a
  record is no name. -/
  | noItems
  | output (e : OpenError)
  /-- The console refuses a text. -/
  | markup (fault : String)
  deriving DecidableEq, Repr

/-- What is reported about a breakdown. -/
def Breakdown.message : Breakdown → String
  | .settings e => e.message
  | .log e => e.message
  | .registry e => e.message
  | .dump e => e.message
  | .noItems => "A value has the wrong type"
  | .output e => e.message
  | .markup fault => fault

/-- What a command leads to. -/
structure Outcome where
  exitCode : Nat
  stdout : String
  messages : List String
  rows : List (String × String)
  breakdown : Option Breakdown
  /-- What is wrong with the command line. -/
  complaint : Option UsageError
  deriving DecidableEq, Repr

/-- The exit code of a command that failed. -/
def failureCode : Nat := 1

/-- The exit code after a fault of the command line. -/
def usageCode : Nat := 2

/-- The exit code of a command that was interrupted. -/
def interruptedCode : Nat := 130

namespace Outcome

/-- All went well and nothing is shown. -/
def done : Outcome := ⟨0, "", [], [], none, none⟩

/-- The command breaks down. -/
def broken (b : Breakdown) : Outcome := { done with exitCode := failureCode, breakdown := some b }

/-- The command line is at fault. -/
def misused (e : UsageError) : Outcome := { done with exitCode := usageCode, complaint := some e }

/-- A result goes to the standard output. -/
def withStdout (o : Outcome) (text : String) : Outcome := { o with stdout := o.stdout ++ text ++ "\n" }

/-- The command goes on to break down. -/
def thenBroken (o : Outcome) (b : Breakdown) : Outcome :=
  { o with exitCode := failureCode, breakdown := some b }

/-- Show a message. -/
def say (c : Console) (o : Outcome) (text : String) : Outcome :=
  match c.render text with
  | .ok shown => { o with messages := o.messages ++ [shown] }
  | .error fault => o.thenBroken (.markup fault)

/-- The names of rows with the texts that the console shows for their values. -/
def shownRows (c : Console) (rows : List (String × String)) : Except String (List (String × String)) :=
  rows.mapM fun r => (c.render r.2).map fun shown => (r.1, shown)

/-- Show the rows of a table. -/
def showRows (c : Console) (o : Outcome) (rows : List (String × String)) : Outcome :=
  match shownRows c rows with
  | .ok shown => { o with rows := o.rows ++ shown }
  | .error fault => o.thenBroken (.markup fault)

/-- Show texts that are not kept, unless the command has broken down. -/
def showTexts (c : Console) (o : Outcome) (texts : List String) : Outcome :=
  if o.breakdown.isSome then o
  else match texts.mapM c.render with
    | .ok _ => o
    | .error fault => o.thenBroken (.markup fault)

/-- End with an exit code, unless the command has broken down. -/
def exit (o : Outcome) (code : Nat) : Outcome :=
  if o.breakdown.isSome then o else { o with exitCode := code }

/-- The command fails with a message. -/
def failed (c : Console) (label text : String) : Outcome :=
  (done.say c (styled .red label ++ " " ++ text)).exit failureCode

end Outcome

/-! ## Failures -/

/-- Settings cannot be loaded. -/
def settingsFailure (c : Console) (e : SettingsError) : Outcome :=
  match e with
  | .missing _ | .missingNamed _ | .malformed _ | .reported _ =>
    .failed c "Configuration error:" e.message
  | .unopened (.missing _) => .failed c "Configuration error:" e.message
  | _ => .broken (.settings e)

/-- A dump cannot be loaded. -/
def dumpFailure (c : Console) (e : LoadError) : Outcome :=
  match e with
  | .missing _ | .malformed .. | .reported _ => .failed c "Error:" e.message
  | _ => .broken (.dump e)

end DocTree.Command
