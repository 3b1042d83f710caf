import DocTree.Hash.Tree
import DocTree.Value.Basic

/-!
# Trees as exported documents

A node is exported as a mapping: its description, its types, and then each child under its key.
-/

namespace DocTree.Hash

/-- A key as the key of a mapping. -/
def Key.toScalar : Key → Scalar
  | .index n => .int n
  | .name s => .str (String.ofList s)

mutual

/-- The mapping that a node is exported as. -/
def Tree.toValue : Tree → Value
  | .node content types children =>
    .map (putChildren children
      [(.str "content", .str (String.ofList content)),
       (.str "types", .strs (types.map String.ofList))])

/-- Write the children into the mapping of their node. -/
def putChildren : List (Key × Tree) → Entries → Entries
  | [], acc => acc
  | (k, t) :: rest, acc => putChildren rest (Entries.insert k.toScalar t.toValue acc)

end

end DocTree.Hash
