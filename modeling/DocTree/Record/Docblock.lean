import DocTree.Hash.Export
import DocTree.Hash.Parser
import DocTree.Log.Basic
import DocTree.Source.Docblock

/-!
# Exported doc comments

A doc comment is exported with its descriptions and annotations, each on one line. The text of a
`@param` that is written as a hash is replaced by the tree it describes; a hash that cannot be read is
either kept as text or makes the export fail.
-/

namespace DocTree

/-- How doc comments are exported. -/
structure Normalizer where
  dialect : Hash.Dialect
  /-- Keep the text of a hash that cannot be read. -/
  fallbackToRaw : Bool

/-- The annotation whose text may be a hash. -/
def hashTagName : String := "param"

/-- The annotation whose version stands in for its text. -/
def sinceTagName : String := "since"

/-- The source of records about hashes. -/
def hashLogSource : String := "docexport.parsing.hash_notation"

/-- The source of records about doc comments. -/
def docblockLogSource : String := "docexport.export.docblock"

/-- A text on one line. -/
def oneLine (s : String) : String := String.ofList (Text.collapseBreaks s.toList)

/-- The export of an element without a doc comment. -/
def emptyDoc : Value :=
  .record [("description", .str ""), ("long_description", .str ""), ("tags", .list [])]

namespace Normalizer

/-- The tree of a text that is written as a hash, or the text itself. -/
def hashContent (n : Normalizer) (tag : Tag) (content : String) : Traced Hash.Error Value :=
  match Hash.parse n.dialect content.toList with
  | .ok t => do
    Traced.write .debug hashLogSource ("Parsed hash notation: " ++ toString t.children.length ++
      " keys, depth " ++ toString t.depth)
    return t.toValue
  | .error e =>
    if n.fallbackToRaw then do
      Traced.write .warning docblockLogSource ("Keeping raw text for @" ++ tag.name ++ " " ++
        tag.variableName?.getD "" ++ ": " ++ e.message)
      return .str content
    else throw e

/-- The exported text of an annotation. -/
def tagContent (n : Normalizer) (tag : Tag) : Traced Hash.Error Value :=
  let content := oneLine tag.content
  if tag.name == hashTagName && Hash.looksLikeHash content.toList then n.hashContent tag content
  else return .str content

/-- The fields that the kind of an annotation adds to its export. -/
def detailFields : TagDetail → List (String × Value)
  | .plain => []
  | .typed types => [("types", .strs types)]
  | .binding types v => [("types", .strs types), ("variable", .str v)]
  | .reference target => [("refers", .str target)]
  | .version _ => []

/-- The version that stands in for the text of an annotation. -/
def versionInstead? (tag : Tag) : Option String :=
  match tag.detail with
  | .version number => if tag.name == sinceTagName && number != "" then some number else none
  | _ => none

/-- An exported annotation. -/
def tag (n : Normalizer) (t : Tag) : Traced Hash.Error Value := do
  let content ← n.tagContent t
  let shown := match versionInstead? t with
    | some number => .str number
    | none => content
  return .record ([("name", .str t.name), ("content", shown)] ++ detailFields t.detail)

/-- An exported doc comment. -/
def docblock (n : Normalizer) : Option Docblock → Traced Hash.Error Value
  | none => return emptyDoc
  | some d => do
    let tags ← d.tags.mapM n.tag
    return .record [("description", .str (oneLine d.short)),
      ("long_description", .str (oneLine d.long)), ("tags", .list tags)]

end Normalizer

end DocTree
