import DocTree.Yaml.Node
import DocTree.Yaml.Plain

/-!
# Documents read from YAML

A text is read in three steps: its tokens, the node that the tokens write, and the document that the
node stands for. Before the last step aliases are replaced by the nodes that they repeat, and the key
`<<` by the entries of the mappings under it, which come first, so that the mapping's own entries win.
Where a key is written twice, it keeps its first place and its last value. Equal numbers are one key, and
so are a truth value and the number it counts as; such a key keeps the form in which it came first.
-/

namespace DocTree.Yaml

/-! ## Aliases -/

/-- The nodes that have a name; one whose reading has only begun is not there yet. -/
abbrev Names := List (List Char × Option Node)

mutual

/-- A node with its aliases replaced, and the names known after it. -/
def Node.expand (names : Names) : Node → Option (Node × Names)
  | .alias a =>
    match names.find? (·.1 == a) with
    | some (_, some n) => some (n, names)
    | _ => none
  | .named a n =>
    if names.any (·.1 == a) then none
    else do
      let (n, names) ← n.expand ((a, none) :: names)
      return (n, (a, some n) :: names.filter (·.1 != a))
  | .sequence tag items => do
    let (items, names) ← expandItems names items
    return (.sequence tag items, names)
  | .mapping tag entries => do
    let (entries, names) ← expandEntries names entries
    return (.mapping tag entries, names)
  | .scalar tag plain text => some (.scalar tag plain text, names)

/-- Items with their aliases replaced. -/
def expandItems (names : Names) : List Node → Option (List Node × Names)
  | [] => some ([], names)
  | n :: rest => do
    let (n, names) ← n.expand names
    let (rest, names) ← expandItems names rest
    return (n :: rest, names)

/-- Entries with their aliases replaced. -/
def expandEntries (names : Names) : List (Node × Node) → Option (List (Node × Node) × Names)
  | [] => some ([], names)
  | (k, v) :: rest => do
    let (k, names) ← k.expand names
    let (v, names) ← v.expand names
    let (rest, names) ← expandEntries names rest
    return ((k, v) :: rest, names)

end

/-! ## Merged mappings -/

/-- The standard tags start with this. -/
def standardTag (name : String) : List Char := ("tag:yaml.org,2002:" ++ name).toList

/-- The meaning of a node that is a plain scalar without a tag. -/
def Node.plainMeaning? : Node → Option Meaning
  | .scalar none true text => (meaning text).toOption
  | _ => none

/-- The entries that the key `<<` brings in. -/
def mergedEntries? : Node → Option (List (Node × Node))
  | .mapping _ entries => some entries
  | .sequence _ items => do
    let groups ← items.mapM fun n => match n with
      | .mapping _ entries => some entries
      | _ => none
    return groups.reverse.flatten
  | _ => none

mutual

/-- A node with its `<<` keys replaced. -/
def Node.merge : Node → Option Node
  | .sequence tag items => do
    let items ← mergeItems items
    return .sequence tag items
  | .mapping tag entries => do
    let (merged, own) ← mergeEntries entries
    return .mapping tag (merged ++ own)
  | n => some n

/-- Items with their `<<` keys replaced. -/
def mergeItems : List Node → Option (List Node)
  | [] => some []
  | n :: rest => do
    let n ← n.merge
    let rest ← mergeItems rest
    return n :: rest

/-- The entries brought in by `<<` keys, and the others. -/
def mergeEntries : List (Node × Node) → Option (List (Node × Node) × List (Node × Node))
  | [] => some ([], [])
  | (k, v) :: rest => do
    let k' ← k.merge
    let v ← v.merge
    let (merged, own) ← mergeEntries rest
    match k.plainMeaning? with
    | some .merge => return ((← mergedEntries? v) ++ merged, own)
    | some .own => return (merged, (.scalar none false ['='], v) :: own)
    | _ => return (merged, (k', v) :: own)

end

/-! ## Values -/

/-- What a scalar with a tag stands for. -/
def taggedScalar (tag : List Char) (text : List Char) : Except Error Scalar :=
  if tag == standardTag "str" then .ok (.str (String.ofList text))
  else if tag == standardTag "null" then .ok .null
  else if tag == standardTag "bool" then
    match truth? (String.ofList (text.map Char.toLower)) with
    | some b => .ok (.bool b)
    | none => .error .malformed
  else if tag == standardTag "int" then (integer? text).getD (.error .malformed) |>.map .int
  else if tag == standardTag "float" then
    match fractional? text, integer? text with
    | some x, _ => .ok (.float x)
    | none, some (.ok n) => .ok (.float (Binary64.ofDecimal (n < 0) n.natAbs 0))
    | none, _ => .error .malformed
  else .error .malformed

/-- What a scalar stands for. -/
def scalarMeaning (tag : Option (List Char)) (plain : Bool) (text : List Char) :
    Except Error Scalar :=
  match tag with
  | some t =>
    if t == ['!'] then plainScalarMeaning else taggedScalar t text
  | none => if plain then plainScalarMeaning else .ok (.str (String.ofList text))
where
  plainScalarMeaning : Except Error Scalar :=
    match meaning text with
    | .ok (.scalar s) => .ok s
    | .ok _ => .error .malformed
    | .error e => .error e

/-- A collection has no tag, or the one of its kind. -/
def fits (name : String) : Option (List Char) → Bool
  | none => true
  | some t => t == ['!'] || t == standardTag name

/-- A key as far as mappings tell keys apart: a truth value counts as one or zero, and a number with a
fraction that is zero as an integer. -/
def keyForm : Scalar → Scalar
  | .bool b => .int (if b then 1 else 0)
  | .float x => (x.toInt?.map Scalar.int).getD (.float x)
  | k => k

/-- The form in which a mapping holds a key, if it does. -/
def heldKey (es : Entries) (key : Scalar) : Scalar :=
  ((List.find? (fun e => keyForm e.1 == keyForm key) es).map Prod.fst).getD key

/-- The mapping of entries that are written one after another. -/
def mappingOf (entries : List (Scalar × Value)) : Entries :=
  entries.foldl (fun es e => es.insert (heldKey es e.1) e.2) []

/-- Three forms of one key, and a text that looks like them. -/
example : mappingOf [(.int 1, .str "a"), (.str "1", .str "b"), (.bool true, .str "c"),
    (.float (.finite false 1 0), .str "d")] = [(.int 1, .str "d"), (.str "1", .str "b")] := by
  decide

mutual

/-- The document that a node without aliases stands for. -/
def Node.value : Node → Except Error Value
  | .scalar tag plain text => (scalarMeaning tag plain text).map .scalar
  | .sequence tag items => do
    let items ← itemValues items
    if fits "seq" tag then .ok (.list items) else .error .malformed
  | .mapping tag entries => do
    let entries ← entryValues entries
    if fits "map" tag then .ok (.map (mappingOf entries)) else .error .malformed
  | _ => .error .malformed

/-- The documents that nodes stand for. -/
def itemValues : List Node → Except Error (List Value)
  | [] => .ok []
  | n :: rest => do
    let v ← n.value
    let rest ← itemValues rest
    return v :: rest

/-- The entries that pairs of nodes stand for; only a scalar can be a key. -/
def entryValues : List (Node × Node) → Except Error (List (Scalar × Value))
  | [] => .ok []
  | (k, v) :: rest => do
    let key ← match ← k.value with
      | .scalar s => pure s
      | _ => .error .malformed
    let v ← v.value
    let rest ← entryValues rest
    return (key, v) :: rest

end

/-- The document that a node stands for. -/
def Node.toValue (n : Node) : Except Error Value :=
  match (n.expand []).bind fun r => r.1.merge with
  | some n => n.value
  | none => .error .malformed

/-- The document that a text writes; a text without any writes the absent value. -/
def read (text : List Char) : Except Error Value := do
  let ts ← tokens text
  match Node.ofTokens? ts with
  | some (some n) => n.toValue
  | some none => return .null
  | none => .error .malformed

end DocTree.Yaml
