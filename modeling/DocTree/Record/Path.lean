/-!
# Paths below a root

A path is exported relative to the root of the export, with slashes between its parts. A path that
does not lie below the root is kept.
-/

namespace DocTree

/-- A path with a slash for each backslash. -/
def slashed (s : List Char) : List Char := s.map fun c => if c == '\\' then '/' else c

/-- A path with slashes and without slashes at its end. -/
def bareRoot (root : List Char) : List Char :=
  ((slashed root).reverse.dropWhile (· == '/')).reverse

/-- The path is the root or lies below it. -/
def liesBelow (path root : List Char) : Bool := path == root || (root ++ ['/']).isPrefixOf path

/-- The part of a path below a root. -/
def relativeChars (path root : List Char) : List Char :=
  let p := slashed path
  let r := bareRoot root
  if r.isEmpty then p.dropWhile (· == '/')
  else if liesBelow p r then (p.drop r.length).dropWhile (· == '/')
  else p

/-- The part of a path below a root. -/
def relativePath (path root : String) : String :=
  String.ofList (relativeChars path.toList root.toList)

/-- What the log says about a path that is not below the root. -/
def outsideNote? (path root : String) : Option String :=
  let p := slashed path.toList
  let r := bareRoot root.toList
  if r.isEmpty || liesBelow p r then none
  else some ("Path " ++ String.ofList p ++ " is not under root " ++ String.ofList r ++
    ", keeping it as is")

end DocTree
