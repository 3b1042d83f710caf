import DocTree.Value.Bindings

/-!
# Reading a command line

A command line is a list of words: options, their values and operands. A long option starts with two
hyphens and may have its value behind an equals sign; a short one is a letter behind one hyphen, may
have its value right behind it, and letters without values may be written together. Two hyphens alone
end the options. An option that is given again replaces its earlier value.

Where options may not stand between operands, the first operand ends them.
-/

namespace DocTree.Command

/-- An option that a command knows. -/
structure OptionSpec where
  name : String
  short : Option Char
  takesValue : Bool
  deriving DecidableEq, Repr

/-- What is wrong with a command line. -/
inductive UsageError where
  | unknownOption (word : String)
  | missingValue (name : String)
  | unexpectedValue (name : String)
  | missingOption (name : String)
  | missingOperand (name : String)
  | extraOperand (word : String)
  | unknownCommand (name : String)
  /-- A file that should be there is not, or is a folder. -/
  | badFile (path : String)
  | noCommand
  deriving DecidableEq, Repr

/-- A fault of the command line in words. -/
def UsageError.message : UsageError → String
  | .unknownOption word => "No such option: " ++ word
  | .missingValue name => "Option '--" ++ name ++ "' requires an argument."
  | .unexpectedValue name => "Option '--" ++ name ++ "' does not take a value."
  | .missingOption name => "Missing option '--" ++ name ++ "'."
  | .missingOperand name => "Missing argument '" ++ name ++ "'."
  | .extraOperand word => "Got unexpected extra argument (" ++ word ++ ")"
  | .unknownCommand name => "No such command '" ++ name ++ "'."
  | .badFile path => "File '" ++ path ++ "' does not exist or is a directory."
  | .noCommand => "Missing command."

/-- The options that were given, with their values, and the operands. -/
structure Line where
  options : Bindings (Option String)
  operands : List String
  deriving DecidableEq, Repr

namespace Line

/-- Nothing was given. -/
def empty : Line := ⟨[], []⟩

/-- Note an option. -/
def withOption (l : Line) (name : String) (value : Option String) : Line :=
  { l with options := l.options.set name value }

/-- Note an operand. -/
def withOperand (l : Line) (word : String) : Line := { l with operands := l.operands ++ [word] }

/-- The option was given. -/
def has (l : Line) (name : String) : Bool := (l.options.get? name).isSome

/-- The value of an option. -/
def value? (l : Line) (name : String) : Option String := (l.options.get? name).join

end Line

/-- Note an option, with the value given along with it or else the next word. -/
def takeOption (spec : OptionSpec) (attached : Option String) (rest : List String) (l : Line) :
    Except UsageError (Line × List String) :=
  if spec.takesValue then
    match attached, rest with
    | some v, _ => .ok (l.withOption spec.name (some v), rest)
    | none, v :: rest => .ok (l.withOption spec.name (some v), rest)
    | none, [] => .error (.missingValue spec.name)
  else if attached.isSome then .error (.unexpectedValue spec.name)
  else .ok (l.withOption spec.name none, rest)

/-- The letters of a word of short options. -/
def takeLetters (specs : List OptionSpec) :
    List Char → List String → Line → Except UsageError (Line × List String)
  | [], rest, l => .ok (l, rest)
  | c :: cs, rest, l =>
    match specs.find? fun s => s.short == some c with
    | none => .error (.unknownOption (String.ofList ['-', c]))
    | some spec =>
      if spec.takesValue then
        takeOption spec (if cs.isEmpty then none else some (String.ofList cs)) rest l
      else do
        let (l, rest) ← takeOption spec none rest l
        takeLetters specs cs rest l

/-- The name and the value of a long option. -/
def splitLong (word : List Char) : List Char × Option String :=
  let name := word.takeWhile (· != '=')
  match word.drop name.length with
  | _ :: value => (name, some (String.ofList value))
  | [] => (name, none)

/-- A word that starts with a hyphen. -/
def takeWord (specs : List OptionSpec) (word : List Char) (rest : List String) (l : Line) :
    Except UsageError (Line × List String) :=
  match word with
  | '-' :: '-' :: long =>
    let (name, value) := splitLong long
    match specs.find? fun s => s.name.toList == name with
    | some spec => takeOption spec value rest l
    | none => .error (.unknownOption (String.ofList ('-' :: '-' :: name)))
  | _ => takeLetters specs (word.drop 1) rest l

/-- The word is an option or more than one. -/
def isOptionWord (word : String) : Bool := word.toList.head? == some '-' && word.length > 1

/-- Read the words of a command line; every step takes at least one. -/
def readFrom (specs : List OptionSpec) (between : Bool) :
    Nat → List String → Line → Except UsageError Line
  | 0, _, l => .ok l
  | _, [], l => .ok l
  | fuel + 1, word :: rest, l =>
    if word == "--" then .ok { l with operands := l.operands ++ rest }
    else if isOptionWord word then do
      let (l, rest) ← takeWord specs word.toList rest l
      readFrom specs between fuel rest l
    else if between then readFrom specs between fuel rest (l.withOperand word)
    else .ok { l with operands := l.operands ++ word :: rest }

/-- Read the words of a command line. -/
def Line.read (specs : List OptionSpec) (between : Bool) (words : List String) :
    Except UsageError Line :=
  readFrom specs between (words.length + 1) words .empty

end DocTree.Command
