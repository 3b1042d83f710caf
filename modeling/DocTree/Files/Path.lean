import DocTree.Text.Blank
import DocTree.Text.Case

/-!
# Names of files

A file is named by the folders that lead to it and its own name, with slashes between them. Doubled
slashes and single dots mean nothing, so `Path.normal` leaves them out; the empty name is the folder
itself, written `.`. The suffix of a name is what follows its last dot, the dot included, unless the
dot starts or ends the name.
-/

namespace DocTree.Path

/-- The parts of a name that mean something. -/
def parts (s : List Char) : List (List Char) :=
  (Text.pieces (· == '/') s).filter (· != ['.'])

/-- The name starts at the root of the file system. -/
def isAbsolute (s : List Char) : Bool := s.head? == some '/'

/-- Two slashes in front, and not three, are kept. -/
def anchor (s : List Char) : List Char :=
  match s with
  | '/' :: '/' :: '/' :: _ => ['/']
  | '/' :: '/' :: _ => ['/', '/']
  | '/' :: _ => ['/']
  | _ => []

/-- A name without what means nothing. -/
def normal (s : String) : String :=
  let body := ['/'].intercalate (parts s.toList)
  let whole := anchor s.toList ++ body
  if whole.isEmpty then "." else String.ofList whole

/-- The last part of a name. -/
def lastPart (s : String) : List Char := (parts s.toList).getLast?.getD []

/-- The suffix of the last part of a name. -/
def suffix (s : String) : List Char :=
  let tail := (lastPart s).reverse.takeWhile (· != '.')
  let before := (lastPart s).reverse.drop (tail.length + 1)
  if tail.isEmpty || before.isEmpty then [] else '.' :: tail.reverse

/-- The suffix of a name in lower case. -/
def kind (s : String) : String := String.ofList (Text.lower (suffix s))

end DocTree.Path
