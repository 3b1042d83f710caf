import DocTree.Value.Bindings
import DocTree.Yaml.Token

/-!
# Nodes

The nodes of a document are its scalars, sequences and mappings as they are written: a scalar is still
a text, and an alias still names the node that it repeats. `Node.ofTokens?` reads one document; a text
without any document has no node.

Every step reads a token or goes into a part that starts at one, so three times the number of tokens is
enough fuel.
-/

namespace DocTree.Yaml

/-- A part of a document as it is written. -/
inductive Node where
  | scalar (tag : Option (List Char)) (plain : Bool) (text : List Char)
  | sequence (tag : Option (List Char)) (items : List Node)
  | mapping (tag : Option (List Char)) (entries : List (Node × Node))
  /-- A node that can be repeated under a name. -/
  | named (name : List Char) (node : Node)
  /-- The node of that name once more. -/
  | alias (name : List Char)

/-- A scalar that is not written at all. -/
def Node.absent : Node := .scalar none true []

/-- Where a node stands. -/
inductive Position where
  | block
  /-- A key or a value of a block mapping, where a sequence need not be indented. -/
  | entry
  /-- Inside a flow collection. -/
  | flow
  deriving DecidableEq, Repr

/-- What is known about tags: each handle and what it stands for. -/
abbrev Handles := List (List Char × List Char)

/-- The handles that need no directive. -/
def standardHandles : Handles := [(['!'], ['!']), (['!', '!'], "tag:yaml.org,2002:".toList)]

/-- A tag in full. -/
def fullTag? (handles : Handles) (handle : Option (List Char)) (suffix : List Char) :
    Option (List Char) :=
  match handle with
  | none => some suffix
  | some h => (handles.find? (·.1 == h)).map fun e => e.2 ++ suffix

/-- The name and the tag in front of a node, in either order. -/
structure Properties where
  name : Option (List Char)
  tag : Option (List Char)

/-- The name and the tag in front of a node. -/
def properties? (handles : Handles) : List Token → Option (Properties × List Token)
  | .anchor a :: .tag h s :: rest => (fullTag? handles h s).map fun t => (⟨some a, some t⟩, rest)
  | .tag h s :: .anchor a :: rest => (fullTag? handles h s).map fun t => (⟨some a, some t⟩, rest)
  | .anchor a :: rest => some (⟨some a, none⟩, rest)
  | .tag h s :: rest => (fullTag? handles h s).map fun t => (⟨none, some t⟩, rest)
  | ts => some (⟨none, none⟩, ts)

/-- Give a node its name. -/
def Properties.label (p : Properties) (n : Node) : Node :=
  match p.name with
  | some a => .named a n
  | none => n

/-- A token that shows that a part of a collection was left out. -/
def endsPlace (stops : List Token) : List Token → Bool
  | t :: _ => stops.contains t
  | [] => false

mutual

/-- A node. -/
def nodeAt (hs : Handles) : Nat → Position → List Token → Option (Node × List Token)
  | 0, _, _ => none
  | fuel + 1, pos, ts =>
    match ts with
    | .alias a :: rest => some (.alias a, rest)
    | _ => do
      let (p, ts) ← properties? hs ts
      let (n, ts) ← match ts, pos with
        | .blockEntry :: _, .entry => looseItems hs fuel p.tag [] ts
        | .scalar plain text :: rest, _ => some (.scalar p.tag plain text, rest)
        | .flowSequenceStart :: rest, _ => flowItems hs fuel p.tag [] rest
        | .flowMappingStart :: rest, _ => flowEntries hs fuel p.tag [] rest
        | .sequenceStart :: rest, .block => blockItems hs fuel p.tag [] rest
        | .sequenceStart :: rest, .entry => blockItems hs fuel p.tag [] rest
        | .mappingStart :: rest, .block => blockEntries hs fuel p.tag [] rest
        | .mappingStart :: rest, .entry => blockEntries hs fuel p.tag [] rest
        | _, _ =>
          if p.name.isSome || p.tag.isSome then some (.scalar p.tag true [], ts) else none
      return (p.label n, ts)

/-- A node, or nothing in front of one of the given tokens. -/
def nodeUnless (hs : Handles) :
    Nat → List Token → Position → List Token → Option (Node × List Token)
  | 0, _, _, _ => none
  | fuel + 1, stops, pos, ts =>
    if endsPlace stops ts then some (.absent, ts) else nodeAt hs fuel pos ts

/-- The items of a block sequence. -/
def blockItems (hs : Handles) :
    Nat → Option (List Char) → List Node → List Token → Option (Node × List Token)
  | 0, _, _, _ => none
  | fuel + 1, tag, done, ts =>
    match ts with
    | .blockEntry :: rest => do
      let (n, rest) ← nodeUnless hs fuel [.blockEntry, .blockEnd] .block rest
      blockItems hs fuel tag (n :: done) rest
    | .blockEnd :: rest => some (.sequence tag done.reverse, rest)
    | _ => none

/-- The items of a sequence that is not indented beyond the mapping around it. -/
def looseItems (hs : Handles) :
    Nat → Option (List Char) → List Node → List Token → Option (Node × List Token)
  | 0, _, _, _ => none
  | fuel + 1, tag, done, ts =>
    match ts with
    | .blockEntry :: rest => do
      let (n, rest) ← nodeUnless hs fuel [.blockEntry, .key, .value, .blockEnd] .block rest
      looseItems hs fuel tag (n :: done) rest
    | _ => some (.sequence tag done.reverse, ts)

/-- The entries of a block mapping. -/
def blockEntries (hs : Handles) :
    Nat → Option (List Char) → List (Node × Node) → List Token → Option (Node × List Token)
  | 0, _, _, _ => none
  | fuel + 1, tag, done, ts =>
    match ts with
    | .key :: rest => do
      let (k, rest) ← nodeUnless hs fuel [.key, .value, .blockEnd] .entry rest
      match rest with
      | .value :: rest =>
        let (v, rest) ← nodeUnless hs fuel [.key, .value, .blockEnd] .entry rest
        blockEntries hs fuel tag ((k, v) :: done) rest
      | _ => blockEntries hs fuel tag ((k, .absent) :: done) rest
    | .blockEnd :: rest => some (.mapping tag done.reverse, rest)
    | _ => none

/-- The items of a flow sequence; a key makes a mapping of one entry. -/
def flowItems (hs : Handles) :
    Nat → Option (List Char) → List Node → List Token → Option (Node × List Token)
  | 0, _, _, _ => none
  | fuel + 1, tag, done, ts =>
    match ts with
    | .flowSequenceEnd :: rest => some (.sequence tag done.reverse, rest)
    | .key :: rest => do
      let (k, rest) ← nodeUnless hs fuel [.value, .flowEntry, .flowSequenceEnd] .flow rest
      let (v, rest) ← match rest with
        | .value :: rest => nodeUnless hs fuel [.flowEntry, .flowSequenceEnd] .flow rest
        | _ => some (.absent, rest)
      flowItemsAfter hs fuel tag (.mapping none [(k, v)] :: done) rest
    | _ => do
      let (n, rest) ← nodeAt hs fuel .flow ts
      flowItemsAfter hs fuel tag (n :: done) rest

/-- The rest of a flow sequence behind an item. -/
def flowItemsAfter (hs : Handles) :
    Nat → Option (List Char) → List Node → List Token → Option (Node × List Token)
  | 0, _, _, _ => none
  | fuel + 1, tag, done, ts =>
    match ts with
    | .flowSequenceEnd :: rest => some (.sequence tag done.reverse, rest)
    | .flowEntry :: rest => flowItems hs fuel tag done rest
    | _ => none

/-- The entries of a flow mapping. -/
def flowEntries (hs : Handles) :
    Nat → Option (List Char) → List (Node × Node) → List Token → Option (Node × List Token)
  | 0, _, _, _ => none
  | fuel + 1, tag, done, ts =>
    match ts with
    | .flowMappingEnd :: rest => some (.mapping tag done.reverse, rest)
    | .key :: rest => do
      let (k, rest) ← nodeUnless hs fuel [.value, .flowEntry, .flowMappingEnd] .flow rest
      let (v, rest) ← match rest with
        | .value :: rest => nodeUnless hs fuel [.flowEntry, .flowMappingEnd] .flow rest
        | _ => some (.absent, rest)
      flowEntriesAfter hs fuel tag ((k, v) :: done) rest
    | _ => do
      let (k, rest) ← nodeAt hs fuel .flow ts
      flowEntriesAfter hs fuel tag ((k, .absent) :: done) rest

/-- The rest of a flow mapping behind an entry. -/
def flowEntriesAfter (hs : Handles) :
    Nat → Option (List Char) → List (Node × Node) → List Token → Option (Node × List Token)
  | 0, _, _, _ => none
  | fuel + 1, tag, done, ts =>
    match ts with
    | .flowMappingEnd :: rest => some (.mapping tag done.reverse, rest)
    | .flowEntry :: rest => flowEntries hs fuel tag done rest
    | _ => none

end

/-! ## Documents -/

/-- The handles that directives add; at most one of them may name a version, which starts with 1. -/
def directives? : List Token → Bool → Handles → Option (Handles × List Token)
  | .directive (.version major) :: rest, versioned, hs =>
    if versioned || major != 1 then none else directives? rest true hs
  | .directive (.handle h t) :: rest, versioned, hs =>
    if hs.any (·.1 == h) then none else directives? rest versioned (hs ++ [(h, t)])
  | .directive .unknown :: rest, versioned, hs => directives? rest versioned hs
  | ts, _, hs => some (hs ++ standardHandles, ts)

/-- Nothing follows but marks that end a document. -/
def onlyEnds (ts : List Token) : Bool := ts.all (· == .documentEnd)

/-- Directives and marks end a document that has no content. -/
def documentOver : List Token → Bool
  | [] => true
  | .directive _ :: _ => true
  | .documentStart :: _ => true
  | .documentEnd :: _ => true
  | _ => false

/-- The node of the one document that the tokens write, if they write any. -/
def Node.ofTokens? (ts : List Token) : Option (Option Node) :=
  let fuel := 3 * ts.length + 3
  match ts with
  | [] => some none
  | .directive _ :: _ | .documentStart :: _ => do
    let (hs, rest) ← directives? ts false []
    match rest with
    | .documentStart :: rest =>
      if documentOver rest then (if onlyEnds rest then some (some .absent) else none)
      else
        let (n, rest) ← nodeAt hs fuel .block rest
        if onlyEnds rest then some (some n) else none
    | _ => none
  | _ => do
    let (n, rest) ← nodeAt standardHandles fuel .block ts
    if onlyEnds rest then some (some n) else none

end DocTree.Yaml
