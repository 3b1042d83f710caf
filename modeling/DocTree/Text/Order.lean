/-!
# Alphabetical order

Names are listed in the order of their code points, character by character.
-/

namespace DocTree.Text

/-- `a` stands before `b` or equals it, comparing code points. -/
def atMost : List Char → List Char → Bool
  | [], _ => true
  | _ :: _, [] => false
  | a :: s, b :: t => a.toNat < b.toNat || (a.toNat == b.toNat && atMost s t)

/-- Names in alphabetical order. -/
def sortNames (xs : List String) : List String :=
  xs.mergeSort fun a b => atMost a.toList b.toList

end DocTree.Text
