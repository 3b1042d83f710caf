import DocTree.Tag.Build
import DocTree.Value.Display

/-!
# Raw annotations of a dump

A dump may hold annotations that a reflector did not classify: a mapping with a name and a text but no
kind. `classify` finds them in every doc comment of a document, wherever the doc comment stands, and
puts the typed annotation in their place. A doc comment is a mapping under the key `docblock`; what is
inside one is left alone, its annotations apart.

The annotations of a doc comment are normally a list. A text counts as the list of its characters and
a mapping as the list of its keys; what is empty or absent counts as the empty list; a number or a
truth value has no items at all, and then classification fails.
-/

namespace DocTree

/-- Why a document cannot be classified. -/
inductive ClassifyError where
  /-- An annotation is not one. -/
  | rejected (r : Schema.Rejection)
  /-- The annotations of a doc comment are a single thing without items. -/
  | noItems
  deriving DecidableEq, Repr

/-- The items of what stands for a list of annotations. -/
def tagItems (v : Value) : Except ClassifyError (List Value) :=
  if !v.truthy then .ok []
  else match v with
    | .list items => .ok items
    | .map es => .ok (es.map fun e => .scalar e.1)
    | .str s => .ok (s.toList.map fun c => .str (String.ofList [c]))
    | _ => .error .noItems

/-- The text of a raw annotation. -/
def rawText (es : Entries) : String :=
  let given := match es.get? "text" with
    | some v => v
    | none => (es.get? "content").getD (.str "")
  if given.truthy then given.display else ""

/-- Type an annotation, if it is a raw one. -/
def classifyTag (r : Registry) (v : Value) : Except ClassifyError Value :=
  match v with
  | .map es =>
    match Entries.get? "kind" es, Entries.get? "name" es with
    | none, some name =>
      match Tag.build r name.display (rawText es) with
      | .ok t => .ok t.toValue
      | .error e => .error (.rejected e)
    | _, _ => .ok v
  | _ => .ok v

/-- Type the annotations of a doc comment. -/
def classifyDocblock (r : Registry) (es : Entries) : Except ClassifyError Value := do
  let items ← tagItems ((es.get? "tags").getD .null)
  let tags ← items.mapM (classifyTag r)
  return .map (es.put "tags" (.list tags))

mutual

/-- Type every raw annotation of a document. -/
def classify (r : Registry) : Value → Except ClassifyError Value
  | .scalar s => .ok (.scalar s)
  | .list items => do return .list (← classifyItems r items)
  | .map es => do return .map (← classifyEntries r es)

/-- Type every raw annotation of the items of a list. -/
def classifyItems (r : Registry) : List Value → Except ClassifyError (List Value)
  | [] => .ok []
  | v :: rest => do
    let v ← classify r v
    let rest ← classifyItems r rest
    return v :: rest

/-- Type every raw annotation of the entries of a mapping. -/
def classifyEntries (r : Registry) :
    List (Scalar × Value) → Except ClassifyError (List (Scalar × Value))
  | [] => .ok []
  | (k, v) :: rest => do
    let v ← match k, v with
      | .str "docblock", .map es => classifyDocblock r es
      | _, v => classify r v
    let rest ← classifyEntries r rest
    return (k, v) :: rest

end

end DocTree
