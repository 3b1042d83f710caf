import DocTree.Schema.Issue
import DocTree.Tag.Basic
import DocTree.Tag.Declaration
import DocTree.Tag.Registry
import DocTree.Text.Digit

/-!
# Annotations from their text

The registry decides the kind of an annotation, and the kind decides how its text is read. The text of
an annotation that names a variable is a parameter declaration; one that cannot be read is kept as
plain text, so that a careless doc comment loses nothing. Types, references and versions are the part
of the text before its first space.

An annotation needs a name: one that is nothing but `@` is rejected.
-/

namespace DocTree

/-! ## Versions -/

/-- Groups of digits, each but the first after a dot; returns what follows. -/
def dropVersionGroups : Nat → List Char → List Char
  | 0, s => s
  | fuel + 1, s =>
    match s with
    | '.' :: d :: rest =>
      if Text.isDigit d then dropVersionGroups fuel (rest.dropWhile Text.isDigit) else s
    | _ => s

/-- Nothing, or one line feed. -/
def isLineEnd (s : List Char) : Bool := s == [] || s == ['\n']

/-- The suffix of a version: a sign and at least one word character or dot. -/
def isVersionSuffix : List Char → Bool
  | c :: rest =>
    let inSuffix (d : Char) : Bool := Text.isWord d || d == '.'
    (c == '-' || c == '+') && !(rest.takeWhile inSuffix).isEmpty &&
      isLineEnd (rest.dropWhile inSuffix)
  | [] => false

/-- A version: digits, dotted digits and an optional suffix. One line feed may follow it. -/
def isVersion (s : List Char) : Bool :=
  if (s.takeWhile Text.isDigit).isEmpty then false
  else
    let rest := dropVersionGroups s.length (s.dropWhile Text.isDigit)
    isLineEnd rest || isVersionSuffix rest

/-! ## Building -/

namespace Tag

/-- What the kind of an annotation makes of its text: the remaining text and the detail. -/
def readText (kind : TagKind) (text : List Char) : List Char × TagDetail :=
  let (head, rest) := Text.splitHead text
  match kind with
  | .plain => (text, .plain)
  | .typed => (rest, .typed ((typesOfWord head).map String.ofList).eraseDups)
  | .binding =>
    match Declaration.parse text with
    | .ok d =>
      (d.description,
        .binding (d.types.map String.ofList).eraseDups (String.ofList d.variableName))
    | .error _ => (text, .binding [] "")
  | .reference => (rest, .reference (String.ofList head))
  | .version =>
    if isVersion head then (rest, .version (String.ofList head)) else (text, .version "")

/-- The annotation that a name and a text denote. -/
def build (r : Registry) (name text : String) : Except Schema.Rejection Tag :=
  let name := bareName name
  let kind := r.kindOf name
  if name == "" then .error ⟨kind.shape, [⟨[.name "name"], .emptyString⟩]⟩
  else
    let (content, detail) := readText kind (Text.trim text.toList)
    .ok ⟨name, String.ofList content, detail⟩

end Tag

end DocTree
