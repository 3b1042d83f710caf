import DocTree.Schema.Check
import DocTree.Tag.Basic

/-!
# Annotations from documents

A typed annotation of a dump is a mapping whose `kind` says which other fields it has. Fields that
its kind does not have are ignored, and types are kept once each.
-/

namespace DocTree

open Schema

/-- The text that names a kind. -/
def kindLiteral (kind : TagKind) : Value → Checked Unit
  | .str s => if s == kind.name then .ok () else .fail (.notLiteral kind.name)
  | _ => .fail (.notLiteral kind.name)

/-- A list of types, each one kept once. -/
def typeList (v : Value) : Checked (List String) := (listOf text v).map List.eraseDups

/-- What a kind adds, from the fields of an annotation. -/
def TagDetail.check (es : Entries) : TagKind → Checked TagDetail
  | .plain => .ok .plain
  | .typed => .typed <$> field es "types" [] typeList
  | .binding => .binding <$> field es "types" [] typeList <*> field es "variable" "" text
  | .reference => .reference <$> field es "reference" "" text
  | .version => .version <$> field es "version" "" text

namespace Tag

/-- An annotation of a given kind. -/
def checkAs (kind : TagKind) : Value → Checked Tag :=
  ofFields kind.shape fun es =>
    (fun (_ : Unit) name content detail => Tag.mk name content detail) <$>
      field es "kind" () (kindLiteral kind) <*> required es "name" nonEmptyText <*>
      field es "content" "" text <*> TagDetail.check es kind

/-- An annotation of the kind that it names itself. -/
def check : Value → Checked Tag
  | .map es =>
    match Entries.get? "kind" es with
    | none => .fail .noKind
    | some (.str s) =>
      match TagKind.ofName? s with
      | some kind => (checkAs kind (.map es)).under (.name s)
      | none => .fail (.unknownKind s (TagKind.all.map TagKind.name))
    | some v => .fail (.unknownKind v.display (TagKind.all.map TagKind.name))
  | _ => .fail .notTag

end Tag

end DocTree
