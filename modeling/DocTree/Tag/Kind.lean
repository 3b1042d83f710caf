/-!
# Kinds of annotation

An annotation of a doc comment has one of five kinds, and the kind decides which fields it carries
besides its name and its text: nothing more, a list of types, types and a variable, a reference to
another element, or a version.
-/

namespace DocTree

/-- What an annotation carries besides its name and text. -/
inductive TagKind where
  /-- Nothing more. -/
  | plain
  /-- A list of types. -/
  | typed
  /-- A list of types and a variable. -/
  | binding
  /-- A reference to another element. -/
  | reference
  /-- A version. -/
  | version
  deriving DecidableEq, Repr

namespace TagKind

/-- All kinds, in the order in which they are declared. -/
def all : List TagKind := [plain, typed, binding, reference, version]

/-- The name under which a kind is written. -/
def name : TagKind → String
  | plain => "plain"
  | typed => "typed"
  | binding => "variable"
  | reference => "reference"
  | version => "version"

/-- The kind with a given name. -/
def ofName? (s : String) : Option TagKind := all.find? fun k => k.name == s

end TagKind

end DocTree
