import DocTree.Tag.Check

/-!
# Doc comments

A doc comment has a short description, a long one and annotations.
-/

namespace DocTree

open Schema

/-- A doc comment as the reflector found it. -/
structure Docblock where
  short : String
  long : String
  tags : List Tag
  deriving DecidableEq, Repr

namespace Docblock

/-- A doc comment from a document. -/
def check : Value → Checked Docblock :=
  ofFields "RawDocBlock" fun es =>
    Docblock.mk <$> field es "short_description" "" text <*>
      field es "long_description" "" text <*> field es "tags" [] (listOf Tag.check)

/-- A doc comment as a document. -/
def toValue (d : Docblock) : Value :=
  .record [("short_description", .str d.short), ("long_description", .str d.long),
    ("tags", .list (d.tags.map Tag.toValue))]

/-- A doc comment, or the absent value. -/
def optToValue : Option Docblock → Value
  | some d => d.toValue
  | none => .null

end Docblock

end DocTree
