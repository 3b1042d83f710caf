import DocTree.Yaml.Styles

/-!
# Tokens

The tokens of a text make its structure explicit: indentation becomes brackets around the block
collections, and each key and each value is announced.

That something was a key is known only when the colon after it is read. Until then it is a
`PendingKey`, which remembers how many tokens came before it; the colon puts the announcement there.
A key has to be on one line with its colon, within 1024 characters, and a pending key at the
indentation of a mapping that is already open must become one.

`Layout` is the state of the reading, and each step reads at least one character, so the length of the
text bounds the number of steps.
-/

namespace DocTree.Yaml

/-- A line that gives an instruction to the reader. -/
inductive Directive where
  | version (major : Nat)
  | handle (name target : List Char)
  | unknown
  deriving DecidableEq, Repr

/-- A token. -/
inductive Token where
  | directive (d : Directive)
  | documentStart
  | documentEnd
  | sequenceStart
  | mappingStart
  | blockEnd
  | flowSequenceStart
  | flowSequenceEnd
  | flowMappingStart
  | flowMappingEnd
  | blockEntry
  | flowEntry
  | key
  | value
  | alias (name : List Char)
  | anchor (name : List Char)
  /-- A tag, whose handle is absent if the tag is written in full. -/
  | tag (handle : Option (List Char)) (suffix : List Char)
  | scalar (plain : Bool) (text : List Char)
  deriving DecidableEq, Repr

/-! ## Names, tags and directives -/

/-- A letter or digit of ASCII, a hyphen or an underscore. -/
def isNameChar (c : Char) : Bool := c.isAlphanum || c == '-' || c == '_'

/-- A character of a tag's name. -/
def isTagChar (c : Char) : Bool := isNameChar c || "-;/?:@&=+$,_.!~*'()[]%".toList.contains c

/-- The name behind the sign of an anchor or of an alias. -/
def anchorName? (c : Cursor) : Option (List Char × Cursor) :=
  let c := c.next
  let name := c.run isNameChar
  let c := c.advance name.length
  if !name.isEmpty && (endsWord c.head || "?:,]\x7d%@`".toList.contains c.head) then some (name, c)
  else none

/-- The handle of a tag, between exclamation marks. -/
def tagHandle? (c : Cursor) : Option (List Char × Cursor) :=
  if c.head != '!' then none
  else if c.ahead 1 == ' ' then some (['!'], c.next)
  else
    let name := c.next.run isNameChar
    if c.ahead (name.length + 1) == '!' then
      some ('!' :: name ++ ['!'], c.advance (name.length + 2))
    else none

/-- The name of a tag behind its handle. -/
def tagSuffix? (c : Cursor) : Option (List Char × Cursor) :=
  let name := c.run isTagChar
  if name.isEmpty then none else some (name, c.advance name.length)

/-- A tag. -/
def tagToken? (c : Cursor) : Option (Token × Cursor) := do
  let (t, c) ←
    if c.ahead 1 == '<' then do
      let (suffix, c) ← tagSuffix? (c.advance 2)
      if c.head == '>' then some (.tag none suffix, c.next) else none
    else if endsWord (c.ahead 1) then some (.tag none ['!'], c.next)
    else if (c.next.run fun ch => !endsPart ch).contains '!' then do
      let (handle, c) ← tagHandle? c
      let (suffix, c) ← tagSuffix? c
      return (.tag (some handle) suffix, c)
    else do
      let (suffix, c) ← tagSuffix? c.next
      return (.tag (some ['!']) suffix, c)
  if endsPart c.head then some (t, c) else none

/-- A number of a version, and the cursor behind it. -/
def versionPart? (c : Cursor) : Option (Nat × Cursor) :=
  let ds := c.run isAsciiDigit
  if ds.isEmpty then none else some (ofDigits ds, c.advance ds.length)

/-- A directive, from the character that starts it on. -/
def directive? (c : Cursor) : Option (Directive × Cursor) := do
  let c := c.next
  let name := c.run isNameChar
  let c := c.advance name.length
  if name.isEmpty || !endsPart c.head then none
  else
    let (d, c) ←
      if name == "YAML".toList then do
        let (major, c) ← versionPart? (c.skip (· == ' '))
        if c.head != '.' then none
        else
          let (_, c) ← versionPart? c.next
          if endsPart c.head then some (Directive.version major, c) else none
      else if name == "TAG".toList then do
        let (handle, c) ← tagHandle? (c.skip (· == ' '))
        if c.head != ' ' then none
        else
          let (target, c) ← tagSuffix? (c.skip (· == ' '))
          if endsPart c.head then some (.handle handle target, c) else none
      else some (.unknown, c.skip fun ch => !endsLine ch)
    let c ← c.finishLine?
    return (d, c)

/-! ## Layout -/

/-- Something that becomes a key if a colon follows. -/
structure PendingKey where
  /-- How many flow collections are open around it. -/
  level : Nat
  /-- How many tokens come before it. -/
  slot : Nat
  required : Bool
  index : Nat
  line : Nat
  column : Nat
  deriving Repr

/-- The state of the reading. -/
structure Layout where
  cursor : Cursor
  /-- The tokens so far, the last one first. -/
  tokens : List Token
  count : Nat
  /-- How many flow collections are open. -/
  level : Nat
  /-- The column of the innermost block collection, or -1. -/
  indent : Int
  /-- The columns of the block collections around it. -/
  outer : List Int
  /-- A key may start here. -/
  keyAllowed : Bool
  pending : List PendingKey
  deriving Repr

namespace Layout

/-- The state at the start of a text. -/
def start (text : List Char) : Layout := ⟨.start text, [], 0, 0, -1, [], true, []⟩

/-- A flow collection is open. -/
def inFlow (l : Layout) : Bool := l.level != 0

/-- Add a token. -/
def push (t : Token) (l : Layout) : Layout := { l with tokens := t :: l.tokens, count := l.count + 1 }

/-- Put a token in front of those that came after the first `slot` ones. -/
def pushAt (slot : Nat) (t : Token) (l : Layout) : Layout :=
  let later := l.count - slot
  { l with tokens := l.tokens.take later ++ t :: l.tokens.drop later, count := l.count + 1 }

/-- Read on from another place. -/
def moveTo (c : Cursor) (l : Layout) : Layout := { l with cursor := c }

/-- Say whether a key may start. -/
def allowKey (b : Bool) (l : Layout) : Layout := { l with keyAllowed := b }

/-- Close the block collections that are indented beyond a column. -/
def closeBeyond (column : Int) (l : Layout) : Layout :=
  if l.inFlow then l else go l.outer l
where
  go : List Int → Layout → Layout
    | [], l => l
    | o :: os, l =>
      if l.indent > column then go os { l.push .blockEnd with indent := o, outer := os } else l

/-- Open a block collection at a column, unless one is open there. -/
def openAt (column : Nat) (l : Layout) : Option Layout :=
  if l.indent < column then some { l with outer := l.indent :: l.outer, indent := column } else none

/-- Give up the pending key of the current level. -/
def dropPending (l : Layout) : Option Layout :=
  if l.pending.any fun k => k.level == l.level && k.required then none
  else some { l with pending := l.pending.filter fun k => k.level != l.level }

/-- Give up the pending keys that are too far back. -/
def dropStale (l : Layout) : Option Layout :=
  let stale (k : PendingKey) : Bool := k.line != l.cursor.line || l.cursor.index - k.index > 1024
  if l.pending.any fun k => stale k && k.required then none
  else some { l with pending := l.pending.filter fun k => !stale k }

/-- Remember that what starts here may be a key. -/
def savePending (l : Layout) : Option Layout :=
  if l.keyAllowed then do
    let c := l.cursor
    let required := !l.inFlow && l.indent == c.column
    let l ← l.dropPending
    return { l with pending := ⟨l.level, l.count, required, c.index, c.line, c.column⟩ :: l.pending }
  else some l

/-- Move past spaces, comments and line breaks; after a line break a key may start. -/
def skipBlank : Nat → Layout → Layout
  | 0, l => l
  | fuel + 1, l =>
    let c := l.cursor.skipComment
    if isBreak c.head then
      skipBlank fuel { l with cursor := c.takeBreak.2, keyAllowed := l.keyAllowed || !l.inFlow }
    else { l with cursor := c }

/-! ## Steps -/

/-- Close all block collections in front of a directive, a mark of a document, or the end. -/
def closeAll (l : Layout) : Option Layout :=
  (allowKey false) <$> (l.closeBeyond (-1)).dropPending

/-- A mark of a document. -/
def documentMark (t : Token) (l : Layout) : Option Layout := do
  let l ← l.closeAll
  return (l.push t).moveTo (l.cursor.advance 3)

/-- The start of a flow collection. -/
def openFlow (t : Token) (l : Layout) : Option Layout := do
  let l ← l.savePending
  return { (l.push t).moveTo l.cursor.next with level := l.level + 1, keyAllowed := true }

/-- The end of a flow collection. -/
def closeFlow (t : Token) (l : Layout) : Option Layout := do
  if l.inFlow then
    let l ← l.dropPending
    return { (l.push t).moveTo l.cursor.next with level := l.level - 1, keyAllowed := false }
  else none

/-- A comma in a flow collection. -/
def flowEntry (l : Layout) : Option Layout := do
  let l ← l.dropPending
  return ((l.push .flowEntry).moveTo l.cursor.next).allowKey true

/-- Open a block collection here if the indicator is the first one at its column. -/
def openHere (t : Token) (l : Layout) : Option Layout :=
  if l.inFlow then some l
  else if !l.keyAllowed then none
  else match l.openAt l.cursor.column with
    | some l => some (l.push t)
    | none => some l

/-- A hyphen in front of an item. -/
def blockEntry (l : Layout) : Option Layout := do
  let l ← l.openHere .sequenceStart
  let l ← l.dropPending
  return ((l.push .blockEntry).moveTo l.cursor.next).allowKey true

/-- A question mark in front of a key. -/
def explicitKey (l : Layout) : Option Layout := do
  let l ← l.openHere .mappingStart
  let l ← l.dropPending
  return ((l.push .key).moveTo l.cursor.next).allowKey (!l.inFlow)

/-- A colon in front of a value. -/
def value (l : Layout) : Option Layout :=
  match l.pending.find? fun k => k.level == l.level with
  | some k =>
    let l := { l with pending := l.pending.filter fun p => p.level != k.level }
    let l := l.pushAt k.slot .key
    let l := match l.inFlow, l.openAt k.column with
      | false, some opened => opened.pushAt k.slot .mappingStart
      | _, _ => l
    some (((l.push .value).moveTo l.cursor.next).allowKey false)
  | none => do
    let l ← l.openHere .mappingStart
    let l ← l.dropPending
    return ((l.push .value).moveTo l.cursor.next).allowKey (!l.inFlow)

/-- A token that may be a key, or the start of one. -/
def keyPart (t : Token) (c : Cursor) (l : Layout) : Option Layout := do
  let l ← l.savePending
  return ((l.push t).moveTo c).allowKey false

/-- A plain scalar. -/
def plain (l : Layout) : Option Layout := do
  let (text, c, broken) := plainScalar l.inFlow (l.indent + 1) l.cursor
  let l ← l.keyPart (.scalar true text) c
  return l.allowKey broken

/-- A block of lines. -/
def block (l : Layout) : Option Layout := do
  let (text, c) ← blockScalar? l.indent l.cursor
  let l ← l.dropPending
  return ((l.push (.scalar false text)).moveTo c).allowKey true

/-- A plain scalar may start here. -/
def plainStarts (l : Layout) : Bool :=
  let ch := l.cursor.head
  !(endsWord ch || "-?:,[]\x7b\x7d#&*!|>'\"%@`".toList.contains ch) ||
    (!endsWord (l.cursor.ahead 1) && (ch == '-' || (!l.inFlow && (ch == '?' || ch == ':'))))

/-- Read the token that starts here, which is no quoted scalar. -/
def unquoted (l : Layout) : Option Layout :=
  let c := l.cursor
  let ch := c.head
  let sets := endsWord (c.ahead 1)
  if ch == '%' && c.column == 0 then do
    let l ← l.closeAll
    let (d, c) ← directive? c
    return (l.push (.directive d)).moveTo c
  else if c.column == 0 && c.atMark '-' then l.documentMark .documentStart
  else if c.column == 0 && c.atMark '.' then l.documentMark .documentEnd
  else if ch == '[' then l.openFlow .flowSequenceStart
  else if ch == '{' then l.openFlow .flowMappingStart
  else if ch == ']' then l.closeFlow .flowSequenceEnd
  else if ch == '}' then l.closeFlow .flowMappingEnd
  else if ch == ',' then l.flowEntry
  else if ch == '-' && sets then l.blockEntry
  else if ch == '?' && (l.inFlow || sets) then l.explicitKey
  else if ch == ':' && (l.inFlow || sets) then l.value
  else if ch == '*' then do
    let (name, c) ← anchorName? c
    l.keyPart (.alias name) c
  else if ch == '&' then do
    let (name, c) ← anchorName? c
    l.keyPart (.anchor name) c
  else if ch == '!' then do
    let (t, c) ← tagToken? c
    l.keyPart t c
  else if (ch == '|' || ch == '>') && !l.inFlow then l.block
  else if l.plainStarts then l.plain
  else none

/-- Read the token that starts here. -/
def token (l : Layout) : Except Error Layout :=
  let ch := l.cursor.head
  if ch == '\'' || ch == '"' then do
    let (text, c) ← quotedScalar l.cursor
    orMalformed (l.keyPart (.scalar false text) c)
  else orMalformed l.unquoted

/-- Read to the end of the text. -/
def readAll : Nat → Layout → Except Error Layout
  | 0, _ => .error .malformed
  | fuel + 1, l => do
    let l := l.skipBlank (l.cursor.left + 1)
    let l ← orMalformed l.dropStale
    let l := l.closeBeyond l.cursor.column
    if l.cursor.rest.isEmpty then orMalformed l.closeAll
    else readAll fuel (← l.token)

end Layout

/-- A character that a document may contain. -/
def isAllowed (c : Char) : Bool :=
  let n := c.toNat
  n == 0x09 || n == 0x0A || (0x20 ≤ n && n ≤ 0x7E) || n == 0x85 || (0xA0 ≤ n && n ≤ 0xFFFD) ||
    0x10000 ≤ n

/-- The tokens of a text whose line breaks are line feeds. -/
def tokens (text : List Char) : Except Error (List Token) :=
  if text.all isAllowed then do
    let text := match text with
      | '\ufeff' :: rest => rest
      | _ => text
    let l ← Layout.readAll (text.length + 1) (.start text)
    return l.tokens.reverse
  else .error .malformed

end DocTree.Yaml
