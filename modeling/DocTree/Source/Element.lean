import DocTree.Source.Docblock

/-!
# Elements of a source file

The reflector describes a source file by its elements: what it includes and defines, which functions
and classes it declares, what their bodies use and which hooks they fire. Most elements share a
*head*: a name, the lines they span and a doc comment.
-/

namespace DocTree

/-- What most elements have. -/
structure Head where
  name : String
  line : Nat
  endLine : Option Nat
  docblock : Option Docblock
  deriving DecidableEq, Repr

/-- Who may see a member of a class. -/
inductive Visibility where
  | everyone
  | family
  | owner
  deriving DecidableEq, Repr

/-- How a hook is fired. -/
inductive HookKind where
  | action
  | filter
  | actionReference
  | filterReference
  | actionDeprecated
  | filterDeprecated
  deriving DecidableEq, Repr

/-- How a file is included. -/
inductive IncludeKind where
  | required
  | requiredOnce
  | included
  | includedOnce
  deriving DecidableEq, Repr

/-- An argument that a function declares. -/
structure Argument where
  name : String
  default : Option String
  type : Option String
  deriving DecidableEq, Repr

/-- One use of another element; `arguments` are the literals of a call, absent where an argument is no
literal. -/
structure Usage where
  head : Head
  arguments : List Value

/-- A place where a hook is fired. -/
structure Hook where
  head : Head
  kind : HookKind
  arguments : List String
  deriving DecidableEq, Repr

/-- A statement that includes a file. -/
structure Inclusion where
  name : String
  line : Nat
  kind : IncludeKind
  deriving DecidableEq, Repr

/-- A constant of a file. -/
structure ConstantDecl where
  name : String
  line : Nat
  value : Option String
  deriving DecidableEq, Repr

/-- What functions and methods have besides a head. -/
structure Body where
  arguments : List Argument
  /-- What the body uses, grouped by the kind of thing used. -/
  uses : List (String × List Usage)
  hooks : List Hook

/-- A free function. -/
structure FunctionDecl where
  head : Head
  body : Body

/-- A method of a class. -/
structure MethodDecl where
  head : Head
  body : Body
  visibility : Visibility
  isStatic : Bool
  isFinal : Bool
  isAbstract : Bool

/-- A property of a class. -/
structure PropertyDecl where
  head : Head
  default : Option String
  visibility : Visibility
  isStatic : Bool
  deriving DecidableEq, Repr

/-- A class. -/
structure ClassDecl where
  head : Head
  isFinal : Bool
  isAbstract : Bool
  parent : Option String
  /-- The interfaces, each one once. -/
  interfaces : List String
  properties : List PropertyDecl
  methods : List MethodDecl

/-- A source file. -/
structure SourceFile where
  path : String
  docblock : Option Docblock
  includes : List Inclusion
  constants : List ConstantDecl
  uses : List (String × List Usage)
  hooks : List Hook
  functions : List FunctionDecl
  classes : List ClassDecl

/-- The body uses something or fires a hook. -/
def Body.refersToOthers (b : Body) : Bool := !b.uses.isEmpty || !b.hooks.isEmpty

/-! ## Names of the choices -/

/-- The ways to see a member, by name. -/
def Visibility.choices : List (String × Visibility) :=
  [("public", .everyone), ("protected", .family), ("private", .owner)]

/-- The ways to fire a hook, by name. -/
def HookKind.choices : List (String × HookKind) :=
  [("action", .action), ("filter", .filter), ("action_reference", .actionReference),
   ("filter_reference", .filterReference), ("action_deprecated", .actionDeprecated),
   ("filter_deprecated", .filterDeprecated)]

/-- The ways to include a file, by name. -/
def IncludeKind.choices : List (String × IncludeKind) :=
  [("require", .required), ("require_once", .requiredOnce), ("include", .included),
   ("include_once", .includedOnce)]

/-- The name of a way to see a member. -/
def Visibility.name : Visibility → String
  | everyone => "public"
  | family => "protected"
  | owner => "private"

/-- The name of a way to fire a hook. -/
def HookKind.name : HookKind → String
  | action => "action"
  | filter => "filter"
  | actionReference => "action_reference"
  | filterReference => "filter_reference"
  | actionDeprecated => "action_deprecated"
  | filterDeprecated => "filter_deprecated"

/-- The name of a way to include a file. -/
def IncludeKind.name : IncludeKind → String
  | required => "require"
  | requiredOnce => "require_once"
  | included => "include"
  | includedOnce => "include_once"

end DocTree
