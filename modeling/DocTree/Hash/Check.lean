import DocTree.Hash.Tree
import DocTree.Schema.Check

/-!
# Trees from documents

A tree may also be given as a document: each node is a mapping with a description, types and children
under their names. A node without types has the default ones.
-/

namespace DocTree.Hash

open Schema

/-- The shape of a node in reports. -/
def treeShape : String := "HashNode"

/-- A key of the children of a node. -/
def keyOf : Scalar → Key
  | .int n => if 0 ≤ n then .index n.toNat else .name (toString n).toList
  | k => .name k.display.toList

/-- The types of a node. -/
def typesCheck (v : Value) : Checked (List (List Char)) :=
  (listOf text v).map fun ts => if ts.isEmpty then defaultTypes else ts.map String.toList

mutual

/-- A tree from a document. -/
def Tree.check : Value → Checked Tree
  | .map es =>
    Tree.node <$> ((field es "content" "" text).map String.toList) <*>
      field es "types" defaultTypes typesCheck <*> childrenField es
  | _ => .fail (.notModel treeShape)

/-- The children among the fields of a node. -/
def childrenField : List (Scalar × Value) → Checked (List (Key × Tree))
  | [] => .ok []
  | (k, v) :: rest =>
    if k = .str "children" then (childrenCheck v).under (.name "children") else childrenField rest

/-- The children of a node from a document. -/
def childrenCheck : Value → Checked (List (Key × Tree))
  | .map es => childEntries es
  | _ => .fail .notMapping

/-- The children of a node, one by one. -/
def childEntries : List (Scalar × Value) → Checked (List (Key × Tree))
  | [] => .ok []
  | (k, v) :: rest =>
    (fun t others => (keyOf k, t) :: others) <$> (Tree.check v).under (.ofKey k) <*>
      childEntries rest

end

end DocTree.Hash
