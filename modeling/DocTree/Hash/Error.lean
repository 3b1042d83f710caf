import DocTree.Hash.Tree
import DocTree.Tag.Declaration

/-!
# Faults of a hash

A hash that cannot be read is reported with the position of the token at fault and the keys of the
blocks that are open there, outermost first.
-/

namespace DocTree.Hash

/-- What is wrong with a hash. -/
inductive Fault where
  | noOpeningBrace
  | noClosingBrace
  /-- A closing brace that closes nothing. -/
  | unbalanced
  /-- Text between two entries. -/
  | strayText (text : List Char)
  /-- A block below the deepest level allowed. -/
  | tooDeep (limit : Nat)
  /-- A block that is never closed. -/
  | unclosed (key : Key)
  /-- An entry whose declaration cannot be read. -/
  | badDeclaration (cause : DeclarationError)
  /-- An entry without a block and without a variable. -/
  | unnamedEntry (text : List Char)
  deriving DecidableEq, Repr

/-- A fault in a sentence. -/
def Fault.message : Fault → String
  | noOpeningBrace => "Hash notation must start with '\x7b'"
  | noClosingBrace => "Hash notation must end with '\x7d'"
  | unbalanced => "Unbalanced '\x7d'"
  | strayText text => "Unexpected text '" ++ String.ofList text ++ "'"
  | tooDeep limit =>
    "Hash notation nested deeper than " ++ toString limit ++ " levels is not supported"
  | unclosed key => "Unclosed block '" ++ key.text ++ "'"
  | badDeclaration cause => cause.message
  | unnamedEntry text => "Entry '" ++ String.ofList text ++ "' has no variable name"

/-- A fault, where it lies, and the blocks open there. -/
structure Error where
  fault : Fault
  position : Nat
  path : List Key
  deriving DecidableEq, Repr

/-- A sentence followed by the open blocks and the position, as far as they are known. -/
def located (message : String) (path : List String) (position : Option Int) : String :=
  let inside := if path.isEmpty then "" else " (in " ++ " > ".intercalate path ++ ")"
  let offset := match position with
    | some n => " at offset " ++ toString n
    | none => ""
  message ++ inside ++ offset

/-- What is reported about a hash that cannot be read. -/
def Error.message (e : Error) : String :=
  located e.fault.message (e.path.map Key.text) (some e.position)

end DocTree.Hash
