import DocTree.Value.Basic

/-!
# Documents as text in messages

Messages and names show a document by a short text: a text stands for itself, and inside a list or a
mapping it is quoted. A moment has a text of its own, too, and inside a list or a mapping it is shown by
its parts.

An integer is shown with all of its digits, and a document whatever its depth: limits that a platform
sets on the digits of a number or on nested calls are not part of this description, here or where
documents are read and written.
-/

namespace DocTree

/-- A scalar as it is shown inside a list or a mapping. -/
def Scalar.shown : Scalar → String
  | .null => "None"
  | .bool true => "True"
  | .bool false => "False"
  | .int n => toString n
  | .float x => x.text
  | .str s => Text.quoted s
  | .time m => m.shown

namespace Value

mutual

/-- A document with its texts quoted and its moments shown by their parts. -/
def shown : Value → String
  | .scalar s => s.shown
  | .list items => "[" ++ ", ".intercalate (shownItems items) ++ "]"
  | .map entries => "\x7b" ++ ", ".intercalate (shownEntries entries) ++ "\x7d"

/-- The items of a list, as they are shown inside it. -/
def shownItems : List Value → List String
  | [] => []
  | v :: rest => v.shown :: shownItems rest

/-- The entries of a mapping, as they are shown inside it. -/
def shownEntries : List (Scalar × Value) → List String
  | [] => []
  | (k, v) :: rest => (k.shown ++ ": " ++ v.shown) :: shownEntries rest

end

/-- A document as text; a text stands for itself, and a moment for its text. -/
def display : Value → String
  | .scalar (.str s) => s
  | .scalar (.time m) => m.text
  | v => v.shown

end Value

/-- A scalar as text. -/
def Scalar.display (s : Scalar) : String := (Value.scalar s).display

end DocTree
