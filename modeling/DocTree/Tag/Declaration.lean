import DocTree.Text.Blank
import DocTree.Text.Word

/-!
# Parameter declarations

A declaration reads `types $variable description`: a word of types separated by bars, perhaps a
variable, and free text. Blanks matter only as separators: the text is squeezed first, and what is left
is cut at its spaces.

A variable is written `$name`, `&$name` (by reference) or `...$name` (variadic). A brace may be
attached to the variable, as in `$args{`; it then belongs to the description.
-/

namespace DocTree

/-! ## Variables -/

/-- The text after the mark of a by-reference or variadic variable, if there is one. -/
def dropVariableMark : List Char → List Char
  | '&' :: rest => rest
  | '.' :: '.' :: '.' :: rest => rest
  | s => s

/-- A variable: an optional mark, a dollar sign and a name. One line feed may follow it. -/
def isVariable (s : List Char) : Bool :=
  match dropVariableMark s with
  | '$' :: rest =>
    let after := rest.dropWhile Text.isWord
    !(rest.takeWhile Text.isWord).isEmpty && (after == [] || after == ['\n'])
  | _ => false

/-! ## Declarations -/

/-- A parameter as it is declared; `variableName` is empty where none is named. -/
structure Declaration where
  types : List (List Char)
  variableName : List Char
  description : List Char
  deriving DecidableEq, Repr

/-- Why a text declares no parameter. -/
inductive DeclarationError where
  /-- The text has no word. -/
  | empty
  /-- The first word is a variable, so there are no types. -/
  | missingType (variableName : List Char)
  /-- The first word holds nothing but bars. -/
  | invalidType (word : List Char)
  deriving DecidableEq, Repr

/-- What is reported about a text that declares no parameter. -/
def DeclarationError.message : DeclarationError → String
  | empty => "Empty parameter declaration"
  | missingType v => "Missing type before variable " ++ String.ofList v
  | invalidType w => "Invalid type specification '" ++ String.ofList w ++ "'"

/-- The types named by a word: its non-empty parts between bars. -/
def typesOfWord (w : List Char) : List (List Char) := Text.pieces (· == '|') w

namespace Declaration

/-- The variable and the description in the text that follows the types. A brace that is attached to
the variable is set off from it and starts the description. -/
def bindText (types : List (List Char)) (rest : List Char) : Declaration :=
  let (candidate, remainder) := Text.splitHead rest
  if candidate.getLast? == some '{' && isVariable candidate.dropLast then
    ⟨types, candidate.dropLast, Text.trim ('{' :: ' ' :: remainder)⟩
  else if isVariable candidate then ⟨types, candidate, remainder⟩
  else ⟨types, [], rest⟩

/-- Read a declaration. -/
def parse (text : List Char) : Except DeclarationError Declaration :=
  let squeezed := Text.squeeze text
  if squeezed.isEmpty then .error .empty
  else
    let (head, rest) := Text.splitHead squeezed
    if isVariable head then .error (.missingType head)
    else if (typesOfWord head).isEmpty then .error (.invalidType head)
    else .ok (bindText (typesOfWord head) rest)

end Declaration

end DocTree
