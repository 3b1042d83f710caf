import DocTree.Files.Path
import DocTree.Text.Quoted
import DocTree.Value.Bindings

/-!
# Text files

The files that the program reads and writes are those of one folder: a list of files, each with its
place and its text, and the folders that were made without a file in them. A place is the list of parts
that lead to it from the root of the file system; a name that does not start at the root is looked up
from the home of the folder. A folder exists if it was made, if a file lies in it, or if it leads to the
home. Names are looked up part by part; two dots lead back.
-/

namespace DocTree

/-- The parts that lead to a file or folder from the root of the file system. -/
abbrev Place := List (List Char)

/-- Why a file cannot be opened. -/
inductive OpenError where
  /-- There is no such file, or no folder for it. -/
  | missing (path : String)
  /-- It is a folder. -/
  | isFolder
  /-- A part on the way is a file. -/
  | notFolder
  /-- A file stands where a folder should be made. -/
  | inTheWay
  deriving DecidableEq, Repr

/-- What is reported about a file that cannot be opened. -/
def OpenError.message : OpenError → String
  | .missing path => "[Errno 2] No such file or directory: " ++ Text.quoted path
  | .isFolder => "Is a directory"
  | .notFolder => "Not a directory"
  | .inTheWay => "File exists"

/-- The files of a folder. -/
structure Folder where
  /-- Where names that do not start at the root are looked up. -/
  home : Place
  files : List (Place × String)
  made : List Place
  deriving Repr

namespace Folder

/-- A home without files. -/
def empty (home : Place) : Folder := ⟨home, [], []⟩

/-- Where the lookup of a name starts. -/
def origin (d : Folder) (path : String) : Place :=
  if Path.isAbsolute path.toList then [] else d.home

/-! ## Looking up -/

/-- The text of the file at a place. -/
def textAt? (d : Folder) (p : Place) : Option String :=
  (d.files.find? fun f => f.1 == p).map (·.2)

/-- There is a folder at a place. -/
def hasFolder (d : Folder) (p : Place) : Bool :=
  p.isPrefixOf d.home || d.made.any (p.isPrefixOf ·) ||
    d.files.any fun f => p.isPrefixOf f.1 && p.length < f.1.length

/-- Follow the parts of a name from a place; the way leads only through folders. -/
def follow (d : Folder) (path : String) : Place → List (List Char) → Except OpenError Place
  | p, [] => .ok p
  | p, part :: rest =>
    if part == ['.', '.'] then follow d path p.dropLast rest
    else
      let next := p ++ [part]
      if rest.isEmpty || d.hasFolder next then follow d path next rest
      else if (d.textAt? next).isSome then .error .notFolder
      else .error (.missing path)

/-- The place that a name leads to. -/
def locate (d : Folder) (path : String) : Except OpenError Place :=
  d.follow path (d.origin path) (Path.parts path.toList)

/-- There is a file of that name. -/
def isFile (d : Folder) (path : String) : Bool :=
  match d.locate path with
  | .ok p => (d.textAt? p).isSome
  | .error _ => false

/-- There is a folder of that name. -/
def isFolder (d : Folder) (path : String) : Bool :=
  match d.locate path with
  | .ok p => d.hasFolder p
  | .error _ => false

/-- There is a file or a folder of that name. -/
def has (d : Folder) (path : String) : Bool := d.isFile path || d.isFolder path

/-- The text of a file. -/
def read (d : Folder) (path : String) : Except OpenError String := do
  let p ← d.locate path
  match d.textAt? p with
  | some t => .ok t
  | none => .error (if d.hasFolder p then .isFolder else .missing path)

/-! ## Changing -/

/-- Set the text at a place. -/
def setAt (d : Folder) (p : Place) (text : String) : Folder :=
  if (d.textAt? p).isSome then
    { d with files := d.files.map fun f => if f.1 == p then (p, text) else f }
  else { d with files := d.files ++ [(p, text)] }

/-- Write a file whose folder exists. -/
def write (d : Folder) (path text : String) : Except OpenError Folder := do
  let p ← d.locate path
  if d.hasFolder p then .error .isFolder
  else if d.hasFolder p.dropLast then .ok (d.setAt p text)
  else if (d.textAt? p.dropLast).isSome then .error .notFolder
  else .error (.missing path)

/-- Add to the end of a file, which is made if it is not there. -/
def append (d : Folder) (path text : String) : Except OpenError Folder := do
  let p ← d.locate path
  d.write path ((d.textAt? p).getD "" ++ text)

/-- The place of a name whose folders may not exist yet. -/
def placeOf (d : Folder) (path : String) : Place :=
  (Path.parts path.toList).foldl
    (fun p part => if part == ['.', '.'] then p.dropLast else p ++ [part]) (d.origin path)

/-- Put a file somewhere, with the folders that lead to it. -/
def place (d : Folder) (path text : String) : Folder := d.setAt (d.placeOf path) text

/-- Make the folder at a place, with the folders that lead to it. -/
def makeFolder (d : Folder) (p : Place) : Folder := { d with made := p :: d.made }

/-- What keeps the folder at a place from being made: a file there, or on the way to it. -/
def folderFault? (d : Folder) (p : Place) : Option OpenError :=
  let ways := (List.range (p.length + 1)).map fun n => p.take n
  match ways.find? fun q => (d.textAt? q).isSome with
  | none => none
  | some q => some (if q == p then .inTheWay else .notFolder)

/-- Make the folder in which a file of that name would lie, with the folders that lead to it. -/
def makeParent (d : Folder) (path : String) : Except OpenError Folder :=
  let p := (d.placeOf path).dropLast
  match d.folderFault? p with
  | some e => .error e
  | none => .ok (d.makeFolder p)

/-- Take a file away; its folder stays. -/
def remove (d : Folder) (path : String) : Folder :=
  let p := d.placeOf path
  { d.makeFolder p.dropLast with files := d.files.filter fun f => f.1 != p }

end Folder

end DocTree
