import DocTree.Tag.Kind
import DocTree.Value.Basic

/-!
# Annotations

An annotation has a name, a text and what its kind adds to them.
-/

namespace DocTree

/-- What the kind of an annotation adds to its name and text. -/
inductive TagDetail where
  | plain
  | typed (types : List String)
  /-- Types and a variable; the variable is empty where none is named. -/
  | binding (types : List String) (variableName : String)
  | reference (target : String)
  /-- A version; empty where none is given. -/
  | version (number : String)
  deriving DecidableEq, Repr

/-- An annotation of a doc comment. -/
structure Tag where
  name : String
  content : String
  detail : TagDetail
  deriving DecidableEq, Repr

/-- The kind to which a detail belongs. -/
def TagDetail.kind : TagDetail → TagKind
  | plain => .plain
  | typed _ => .typed
  | binding .. => .binding
  | reference _ => .reference
  | version _ => .version

/-- The fields that a detail adds. -/
def TagDetail.fields : TagDetail → List (String × Value)
  | plain => []
  | typed types => [("types", .strs types)]
  | binding types v => [("types", .strs types), ("variable", .str v)]
  | reference target => [("reference", .str target)]
  | version number => [("version", .str number)]

namespace Tag

/-- The kind of an annotation. -/
def kind (t : Tag) : TagKind := t.detail.kind

/-- The types of an annotation, if its kind has any. -/
def types? (t : Tag) : Option (List String) :=
  match t.detail with
  | .typed types => some types
  | .binding types _ => some types
  | _ => none

/-- The variable of an annotation, if its kind has one. -/
def variableName? (t : Tag) : Option String :=
  match t.detail with
  | .binding _ v => some v
  | _ => none

/-- An annotation as a document. -/
def toValue (t : Tag) : Value :=
  .record ([("kind", .str t.kind.name), ("name", .str t.name), ("content", .str t.content)] ++
    t.detail.fields)

end Tag

/-- The name of the shape of an annotation of a kind. -/
def TagKind.shape : TagKind → String
  | plain => "PlainTag"
  | typed => "TypedTag"
  | binding => "VariableTag"
  | reference => "ReferenceTag"
  | version => "VersionTag"

end DocTree
