/-!
# Character classes given by ranges of code points

A Unicode property is stored as a list of closed, increasing ranges. Membership is a scan of that
list, so a proof about one character is a search in data and a proof about all characters follows
from the ranges alone. The tables themselves live beside the class they define (`Word`, `Digit`,
`Printable`, `Case`).
-/

namespace DocTree.Text

/-- The code point of `c` lies in one of the closed ranges. -/
def inRanges (ranges : List (Nat × Nat)) (c : Char) : Bool :=
  ranges.any fun r => r.1 ≤ c.toNat && c.toNat ≤ r.2

end DocTree.Text
