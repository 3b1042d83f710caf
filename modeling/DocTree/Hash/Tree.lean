/-!
# Trees of documented keys

A hash documents an array: each node has a description, a list of types and children, and a child is
found under the variable that names it or, where a block has no variable, under a number. Children
keep the order in which their keys first appeared; a key that is used again keeps its place and takes
the new child.
-/

namespace DocTree.Hash

/-- What a child is found under. -/
inductive Key where
  /-- The number of a block without a variable. -/
  | index (n : Nat)
  /-- A variable. -/
  | name (s : List Char)
  deriving DecidableEq, Repr

/-- A key as text. -/
def Key.text : Key → String
  | .index n => toString n
  | .name s => String.ofList s

/-- A node of a documented array. -/
inductive Tree where
  | node (content : List Char) (types : List (List Char)) (children : List (Key × Tree))

namespace Tree

/-- The description of the node. -/
def content : Tree → List Char
  | node c _ _ => c

/-- The types of the node. -/
def types : Tree → List (List Char)
  | node _ ts _ => ts

/-- The children of the node, in order. -/
def children : Tree → List (Key × Tree)
  | node _ _ cs => cs

end Tree

/-- The types of a block that declares none. -/
def defaultTypes : List (List Char) := ["array".toList]

/-- Put a child under a key: in the place of the child that has the key already, else at the end. -/
def putChild (key : Key) (child : Tree) : List (Key × Tree) → List (Key × Tree)
  | [] => [(key, child)]
  | (k, t) :: rest => if k = key then (k, child) :: rest else (k, t) :: putChild key child rest

mutual

/-- How many levels of children lie below a node. -/
def Tree.depth : Tree → Nat
  | .node _ _ cs => childrenDepth cs

/-- How many levels a list of children spans, itself included. -/
def childrenDepth : List (Key × Tree) → Nat
  | [] => 0
  | (_, t) :: rest => max (t.depth + 1) (childrenDepth rest)

end

end DocTree.Hash
