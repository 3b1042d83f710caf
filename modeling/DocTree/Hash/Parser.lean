import DocTree.Hash.Error
import DocTree.Hash.Token

/-!
# Reading a hash

The tokens of a hash are read one by one by a machine (`State`) that holds the blocks open so far,
innermost first. Text right after an opening brace describes the block; a marker announces an entry,
and the text after it declares it; the entry is a leaf unless a block opens next.

Because the machine reads each token once, its run is a fold over the tokens, and the blocks open at
a token are exactly those on its stack. This is what error reports and the numbering of blocks
without a variable are about. The dialect limits how deep blocks are nested; limits that a platform sets
on nested calls are left out.

A block without a variable is numbered: with a shared index by the number of blocks opened before it
in the whole hash, otherwise by the number of such blocks before it in the same parent.
-/

namespace DocTree.Hash

/-- How hashes are written: their markers, their depth and their numbering. -/
structure Dialect where
  registry : Registry
  /-- How many blocks may be open inside one another. -/
  maxDepth : Nat
  /-- Number blocks without a variable over the whole hash. -/
  sharedIndex : Bool

/-- The depth allowed unless another one is given. -/
def defaultMaxDepth : Nat := 3

/-- Why there is no dialect: its depth has to be positive. -/
inductive DialectError where
  | depth (given : Int)
  deriving DecidableEq, Repr

/-- What is reported about a dialect that there is not. -/
def DialectError.message : DialectError → String
  | .depth _ => "max_depth must be >= 1"

/-- The dialect with a given depth. -/
def Dialect.make (r : Registry) (depth : Int) (shared : Bool) : Except DialectError Dialect :=
  if depth < 1 then .error (.depth depth) else .ok ⟨r, depth.toNat, shared⟩

/-- A block whose entries are being read. -/
structure Block where
  content : List Char
  types : List (List Char)
  children : List (Key × Tree)
  /-- How many of its children took a number of their own. -/
  numbered : Nat

/-- A block below the root, not closed yet. -/
structure OpenBlock where
  key : Key
  /-- Where its brace stands. -/
  position : Nat
  block : Block

/-- What the tokens just read lead up to. -/
inductive Phase where
  /-- A block was opened: text describes it. -/
  | leading
  /-- Between two entries. -/
  | between
  /-- A marker at `position` announced an entry, declared by `text` if there was any. -/
  | announced (position : Nat) (text : Option (List Char))

/-- The blocks open so far. -/
structure State where
  root : Block
  /-- The open blocks below the root, innermost first. -/
  nested : List OpenBlock
  /-- How many blocks were opened so far. -/
  opened : Nat
  phase : Phase

namespace Block

/-- A block without entries. -/
def start (content : List Char) (types : List (List Char)) : Block := ⟨content, types, [], 0⟩

/-- The tree of a block that is complete. -/
def toTree (b : Block) : Tree := .node b.content b.types b.children

/-- A block with a further child. -/
def put (key : Key) (child : Tree) (b : Block) : Block :=
  { b with children := putChild key child b.children }

/-- A block described by a text; the words of the text follow what is there. -/
def describe (text : List Char) (b : Block) : Block :=
  match Text.squeeze text with
  | [] => b
  | words => { b with content := if b.content.isEmpty then words else b.content ++ ' ' :: words }

end Block

namespace State

/-- Before the first token. -/
def initial : State := ⟨.start [] defaultTypes, [], 0, .leading⟩

/-- The keys of the open blocks, outermost first. -/
def path (s : State) : List Key := (s.nested.map (·.key)).reverse

/-- The innermost open block. -/
def current (s : State) : Block :=
  match s.nested with
  | [] => s.root
  | b :: _ => b.block

/-- Change the innermost open block. -/
def mapCurrent (f : Block → Block) (s : State) : State :=
  match s.nested with
  | [] => { s with root := f s.root }
  | b :: outer => { s with nested := { b with block := f b.block } :: outer }

/-- Stop at a fault. -/
def fail {α : Type} (s : State) (fault : Fault) (position : Nat) : Except Error α :=
  .error ⟨fault, position, s.path⟩

/-- Read the declaration of an entry. -/
def declare (s : State) (text : List Char) (position : Nat) : Except Error Declaration :=
  match Declaration.parse text with
  | .ok d => .ok d
  | .error cause => s.fail (.badDeclaration cause) position

/-- Add an entry that has no block. -/
def addLeaf (s : State) (text : List Char) (position : Nat) : Except Error State := do
  let d ← s.declare text position
  if d.variableName.isEmpty then s.fail (.unnamedEntry (Text.trim text)) position
  else return s.mapCurrent (.put (.name d.variableName) (.node d.description d.types []))

/-- Add the entry announced last, now that no block follows it. -/
def settle (s : State) : Except Error State :=
  match s.phase with
  | .announced position text => do
    let s ← s.addLeaf (text.getD []) position
    return { s with phase := .between }
  | _ => .ok { s with phase := .between }

/-- Open a block: count it, and give it its key. -/
def pushBlock (dialect : Dialect) (s : State) (variableName : List Char) (b : Block)
    (position : Nat) : State :=
  let key : Key :=
    if !variableName.isEmpty then .name variableName
    else .index (if dialect.sharedIndex then s.opened else s.current.numbered)
  let own := variableName.isEmpty && !dialect.sharedIndex
  let s := if own then s.mapCurrent fun b => { b with numbered := b.numbered + 1 } else s
  { s with nested := ⟨key, position, b⟩ :: s.nested, opened := s.opened + 1, phase := .leading }

/-- Open the block declared by `text`. -/
def openBlock (dialect : Dialect) (s : State) (text : List Char) (position : Nat) :
    Except Error State :=
  if dialect.maxDepth ≤ s.nested.length then s.fail (.tooDeep dialect.maxDepth) position
  else if Text.allBlank text then
    .ok (s.pushBlock dialect [] (.start [] defaultTypes) position)
  else do
    let d ← s.declare text position
    return s.pushBlock dialect d.variableName (.start d.description d.types) position

/-- Close the innermost block. -/
def closeBlock (s : State) (position : Nat) : Except Error State :=
  match s.nested with
  | [] => s.fail .unbalanced position
  | b :: outer => .ok ({ s with nested := outer }.mapCurrent (.put b.key b.block.toTree))

/-- Read one token. -/
def step (dialect : Dialect) (s : State) (t : Token) : Except Error State :=
  match t.kind with
  | .marker => do
    let s ← s.settle
    return { s with phase := .announced t.position none }
  | .opening =>
    match s.phase with
    | .announced _ text => s.openBlock dialect (text.getD []) t.position
    | _ => s.openBlock dialect [] t.position
  | .closing => do
    let s ← s.settle
    s.closeBlock t.position
  | .text =>
    match s.phase with
    | .leading => .ok { s.mapCurrent (.describe t.value) with phase := .between }
    | .announced position none => .ok { s with phase := .announced position (some t.value) }
    | _ => do
      let s ← s.settle
      if Text.allBlank t.value then return s
      else s.fail (.strayText (Text.trim t.value)) t.position

/-- After the last token: every block has to be closed. -/
def finish (s : State) : Except Error Tree := do
  let s ← s.settle
  match s.nested with
  | [] => return s.root.toTree
  | b :: _ => s.fail (.unclosed b.key) b.position

end State

/-- The tree that tokens describe. -/
def parseTokens (dialect : Dialect) (tokens : List Token) : Except Error Tree := do
  let s ← tokens.foldlM (State.step dialect) .initial
  s.finish

/-- The text between the outer braces. -/
def unbrace (content : List Char) : Except Error (List Char) :=
  let text := Text.trim content
  if text.head? != some '{' then .error ⟨.noOpeningBrace, 0, []⟩
  else if text.getLast? != some '}' || text.length < 2 then
    .error ⟨.noClosingBrace, text.length, []⟩
  else .ok (text.drop 1).dropLast

/-- The tree that a hash describes. -/
def parse (dialect : Dialect) (content : List Char) : Except Error Tree := do
  let inner ← unbrace content
  parseTokens dialect (tokenize dialect.registry inner)

/-- The text is written as a hash: a brace comes first. -/
def looksLikeHash (content : List Char) : Bool := (Text.trimLeft content).head? == some '{'

end DocTree.Hash
