import DocTree.Proofs.Hash.Escaping
import DocTree.Proofs.Hash.Children

/-!
# Writing a tree and reading it back

`Tree.write` writes a tree as a hash: its description, then an entry for each child. A named child
without children is a leaf, every other child is a block. The hash of a tree is parsed to the tree
(`parse_write`), provided the tree can be written at all (`Tree.Writable`): its texts are
squeezed and hold no marker, its keys are variables or the numbers that the parser would give, and its
blocks are not nested too deep.

## Shape of the proof

A written hash is cut into *segments* (`Segment`): one sign of its structure, and the text up to the
next sign. Each text starts and ends with a space, so a sign is always read as such and a text comes
out as one token (`parts_segments`). The tokens of the segments of children derive the entries of the
children (`derives_entriesOf`), and these write the children (`writesAll_entriesOf`).
-/

namespace DocTree.Hash

open Text (isBlank words startsNoWord)

/-! ## Induction over children -/

/-- What holds of no children, and of a child in front of further ones if it holds of the children of
the child and of the further ones, holds of all lists of children. -/
@[elab_as_elim]
theorem children_induction {motive : List (Key × Tree) → Prop} (nil : motive [])
    (cons : ∀ key content types children rest, motive children → motive rest →
      motive ((key, .node content types children) :: rest)) : ∀ children, motive children
  | [] => nil
  | (key, .node content types children) :: rest =>
    cons key content types children rest (children_induction nil cons children)
      (children_induction nil cons rest)

/-! ## Writing -/

/-- A child is written as a block unless it has a name and no children. -/
def hasBlock : Key → Tree → Bool
  | .name _, t => !t.children.isEmpty
  | .index _, _ => true

/-- The types of a node as one word. -/
def Tree.typeWord (t : Tree) : List Char := ['|'].intercalate t.types

/-- An entry for a child, its body being `body`. -/
def entryText (key : Key) (t : Tree) (body : List Char) : List Char :=
  match key with
  | .name v =>
    if t.children.isEmpty then
      "@type ".toList ++ escape t.typeWord ++ ' ' :: v ++ ' ' :: escape t.content
    else "@type ".toList ++ escape t.typeWord ++ ' ' :: v ++ " \x7b ".toList ++ body ++ " \x7d".toList
  | .index _ => "@type ".toList ++ escape t.typeWord ++ " \x7b ".toList ++ body ++ " \x7d".toList

mutual

/-- The description of a node and the entries of its children, with spaces between them. -/
def Tree.body : Tree → List Char
  | .node content _ children => escape content ++ childrenText children

/-- The entries of children, each one after a space. -/
def childrenText : List (Key × Tree) → List Char
  | [] => []
  | (key, t) :: rest => ' ' :: entryText key t t.body ++ childrenText rest

end

/-- A tree written as a hash. -/
def Tree.write (t : Tree) : List Char := "\x7b ".toList ++ t.body ++ " \x7d".toList

/-! ## Trees that can be written -/

/-- The texts of a node can be written. -/
structure Legible (r : Registry) (content : List Char) (types : List (List Char)) : Prop where
  content_squeezed : Text.squeeze content = content
  content_unmarked : ∀ w ∈ words content, ¬MarkerWord r w
  types_ne_nil : types ≠ []
  type_ne_nil : ∀ t ∈ types, t ≠ []
  type_chars : ∀ t ∈ types, ∀ c ∈ t, isBlank c = false ∧ c ≠ '|'
  types_unmarked : ∀ t ∈ types, ¬MarkerWord r t
  not_variable : isVariable (['|'].intercalate types) = false

/-- A name under which a child can be written: a variable in one word. -/
def Key.Legible : Key → Prop
  | .name v => isVariable v = true ∧ ∀ c ∈ v, isBlank c = false
  | .index _ => True

mutual

/-- The texts and names of a tree can be written, and children of one node have different keys. -/
def Tree.Legible (r : Registry) : Tree → Prop
  | .node content types children =>
    Hash.Legible r content types ∧ (children.map (·.1)).Nodup ∧ ChildrenLegible r children

/-- The names of children can be written, and so can the children. -/
def ChildrenLegible (r : Registry) : List (Key × Tree) → Prop
  | [] => True
  | (key, t) :: rest => key.Legible ∧ t.Legible r ∧ ChildrenLegible r rest

end

mutual

/-- How many blocks are written inside a node. -/
def Tree.blocks : Tree → Nat
  | .node _ _ children => blocksOf children

/-- How many blocks are written for children. -/
def blocksOf : List (Key × Tree) → Nat
  | [] => 0
  | (key, t) :: rest => (if hasBlock key t then t.blocks + 1 else 0) + blocksOf rest

end

mutual

/-- How deep blocks lie inside one another in a node. -/
def Tree.nesting : Tree → Nat
  | .node _ _ children => nestingOf children

/-- How deep blocks lie inside one another in children. -/
def nestingOf : List (Key × Tree) → Nat
  | [] => 0
  | (key, t) :: rest => max (if hasBlock key t then t.nesting + 1 else 0) (nestingOf rest)

end

/-- How many numbers a key takes. -/
def Key.numbers : Key → Nat
  | .index _ => 1
  | .name _ => 0

mutual

/-- The numbers in a node are those of the parser, `opened` blocks being written before its body. -/
def Tree.Numbered (shared : Bool) (opened : Nat) : Tree → Prop
  | .node _ _ children => NumberedFrom shared opened 0 children

/-- The numbers of children are those of the parser, `opened` blocks being written before them and
`numbered` children of the same node with a number standing before them. -/
def NumberedFrom (shared : Bool) (opened numbered : Nat) : List (Key × Tree) → Prop
  | [] => True
  | (key, t) :: rest =>
    (∀ n, key = .index n → n = if shared then opened else numbered) ∧
      t.Numbered shared (opened + 1) ∧
      NumberedFrom shared (opened + if hasBlock key t then t.blocks + 1 else 0)
        (numbered + key.numbers) rest

end

/-- The tree can be written in the dialect. -/
structure Tree.Writable (dialect : Dialect) (t : Tree) : Prop where
  root_types : t.types = defaultTypes
  legible : t.Legible dialect.registry
  numbered : t.Numbered dialect.sharedIndex 0
  nesting : t.nesting ≤ dialect.maxDepth

/-! ## Segments -/

/-- A sign of the structure of a written hash. -/
inductive Sign where
  | entry
  | opening
  | closing

/-- The lexeme as which a sign is read. -/
def Sign.lexeme : Sign → Lexeme
  | entry => .marker "type".toList
  | opening => .opening
  | closing => .closing

/-- The token of a sign, without its position. -/
def Sign.part : Sign → TokenKind × List Char
  | entry => (.marker, "type".toList)
  | opening => (.opening, ['{'])
  | closing => (.closing, ['}'])

/-- Texts with one space before each of them and after the last one. -/
def pad (texts : List (List Char)) : List Char := texts.flatMap (' ' :: ·) ++ [' ']

/-- A sign and the texts up to the next sign. -/
structure Segment where
  sign : Sign
  texts : List (List Char)

namespace Segment

/-- How a segment is written. -/
def source (g : Segment) : List Char := g.sign.lexeme.source ++ escape (pad g.texts)

/-- The tokens of a segment, without their positions. -/
def parts (g : Segment) : List (TokenKind × List Char) := [g.sign.part, (.text, pad g.texts)]

/-- No word of the texts is a marker. -/
def Unmarked (r : Registry) (g : Segment) : Prop :=
  ∀ t ∈ g.texts, ∀ w ∈ words t, ¬MarkerWord r w

end Segment

theorem pad_cons (t : List Char) (ts : List (List Char)) : pad (t :: ts) = ' ' :: t ++ pad ts := by
  rw [pad, List.flatMap_cons, List.append_assoc, ← pad]

/-- A padded text starts with a space. -/
theorem exists_pad_eq_cons (ts : List (List Char)) : ∃ s, pad ts = ' ' :: s := by
  cases ts with
  | nil => exact ⟨[], rfl⟩
  | cons t ts => exact ⟨t ++ pad ts, pad_cons t ts⟩

theorem words_pad (ts : List (List Char)) : words (pad ts) = ts.flatMap words := by
  induction ts with
  | nil => rfl
  | cons t ts ih =>
    obtain ⟨s, hs⟩ := exists_pad_eq_cons ts
    have hrest : words s = words (pad ts) := by rw [hs, Text.words_cons Text.isBlank_space]
    rw [pad_cons, List.cons_append, Text.words_cons Text.isBlank_space, hs,
      Text.words_append_cons Text.isBlank_space, hrest, ih, List.flatMap_cons]

/-- A padded text is read as its characters, and leaves a space behind. -/
theorem lexemes_pad {r : Registry} {ts : List (List Char)} {rest : List Char}
    (h : ∀ t ∈ ts, ∀ w ∈ words t, ¬MarkerWord r w) (before : Option Char) :
    lexemes r before (escape (pad ts) ++ rest) =
      (pad ts).map escapedLexeme ++ lexemes r (some ' ') rest := by
  have hwords : ∀ w ∈ words (ts.flatMap (' ' :: ·)), ¬MarkerWord r w := by
    intro w hw
    rw [← Text.words_append_right _ (show Text.allBlank [' '] = true from rfl), ← pad, words_pad,
      List.mem_flatMap] at hw
    obtain ⟨t, ht, hw⟩ := hw
    exact h t ht w hw
  have hstart : startsNoWord (' ' :: rest) = true := rfl
  have hback : ' ' ≠ '\\' := by decide
  have hat : ' ' ≠ '@' := by decide
  rw [pad, escape_append, show escape [' '] = [' '] from rfl, List.append_assoc,
    List.singleton_append, lexemes_escape hstart hwords,
    lexemes_plain rfl (fun h => absurd h hback) (fun h => absurd h hat), List.map_append,
    List.append_assoc]
  rfl

theorem lexemes_sign {r : Registry} (htype : r.isMarker "type" = true) (sign : Sign)
    (rest : List Char) :
    lexemes r (some ' ') (sign.lexeme.source ++ ' ' :: rest) =
      sign.lexeme :: lexemes r sign.lexeme.source.getLast? (' ' :: rest) := by
  have hname : ∀ c ∈ "type".toList, isNameChar c = true := by decide +kernel
  have hspace : isNameChar ' ' = false := isNameChar_of_isBlank Text.isBlank_space
  cases sign with
  | entry =>
    have htake : ("type".toList ++ ' ' :: rest).takeWhile isNameChar = "type".toList := by
      rw [List.takeWhile_append_of_pos hname, List.takeWhile_cons, hspace]; rfl
    have hdrop : ("type".toList ++ ' ' :: rest).dropWhile isNameChar = ' ' :: rest := by
      rw [List.dropWhile_append_of_pos hname, List.dropWhile_cons, hspace]; rfl
    have hname : announces r ("type".toList ++ ' ' :: rest) = true := by
      rw [announces, htake, hdrop]
      simp [htype, atBoundary, Text.isBlank_space]
    have hfirst : First r (some ' ') '@' ("type".toList ++ ' ' :: rest) _ _ :=
      .marker rfl Text.isBlank_space hname
    rw [htake, hdrop] at hfirst
    exact hfirst.lexemes_eq
  | opening =>
    have hfirst : First r (some ' ') '{' (' ' :: rest) .opening (' ' :: rest) :=
      .opening rfl Text.isBlank_space
    exact hfirst.lexemes_eq
  | closing =>
    have hfirst : First r (some ' ') '}' (' ' :: rest) .closing (' ' :: rest) :=
      .closing rfl Text.isBlank_space
    exact hfirst.lexemes_eq

theorem parts_lexeme (sign : Sign) (ls : List Lexeme) :
    parts (sign.lexeme :: ls) = sign.part :: parts ls := by
  cases sign <;> rfl

/-- The text before a sign ends at the sign. -/
theorem joinPart_segments (text : List Char) (gs : List Segment) :
    joinPart text (gs.flatMap Segment.parts) = (.text, text) :: gs.flatMap Segment.parts := by
  cases gs with
  | nil => rfl
  | cons g gs =>
    obtain ⟨sign, texts⟩ := g
    cases sign <;> rfl

/-- **Segments are read as their signs and their texts.** -/
theorem parts_segments {r : Registry} (htype : r.isMarker "type" = true) {gs : List Segment}
    (h : ∀ g ∈ gs, g.Unmarked r) :
    parts (lexemes r (some ' ') (gs.flatMap Segment.source)) = gs.flatMap Segment.parts := by
  induction gs with
  | nil => rw [List.flatMap_nil, lexemes]; rfl
  | cons g gs ih =>
    have ih := ih fun g' hg' => h g' (List.mem_cons_of_mem g hg')
    obtain ⟨s, hs⟩ := exists_pad_eq_cons g.texts
    have hspace : escape (pad g.texts) = ' ' :: escape s := by rw [hs, escape_cons]; rfl
    have hpad : pad g.texts ≠ [] := by rw [hs]; exact List.cons_ne_nil _ _
    -- the sign is read because the text behind it starts with a space; the text is read as itself
    rw [List.flatMap_cons, List.flatMap_cons, Segment.source, List.append_assoc, hspace,
      List.cons_append, lexemes_sign htype, ← List.cons_append, ← hspace,
      lexemes_pad (h g List.mem_cons_self), parts_lexeme, parts_text hpad, ih,
      joinPart_segments]
    rfl

/-! ## The segments of a tree -/

/-- The word that names a child, if there is one. -/
def Key.texts : Key → List (List Char)
  | .name v => [v]
  | .index _ => []

/-- The segments of a block. -/
def blockSegments (declaration : List (List Char)) (content : List Char) (inner : List Segment) :
    List Segment :=
  ⟨.entry, declaration⟩ :: ⟨.opening, [content]⟩ :: inner ++ [⟨.closing, []⟩]

/-- The segments of a child, `inner` being those of its children. -/
def entrySegments (key : Key) (t : Tree) (inner : List Segment) : List Segment :=
  if hasBlock key t then blockSegments (t.typeWord :: key.texts) t.content inner
  else [⟨.entry, t.typeWord :: key.texts ++ [t.content]⟩]

mutual

/-- The segments of the children of a node. -/
def Tree.segments : Tree → List Segment
  | .node _ _ children => segmentsOf children

/-- The segments of children. -/
def segmentsOf : List (Key × Tree) → List Segment
  | [] => []
  | (key, t) :: rest => entrySegments key t t.segments ++ segmentsOf rest

end

theorem isBrace_of_isVariable {v : List Char} (hv : isVariable v = true) :
    ∀ c ∈ v, isBrace c = false := by
  intro c hc
  by_contra h
  rw [Bool.not_eq_false, isBrace, Bool.or_eq_true, beq_iff_eq, beq_iff_eq] at h
  rcases h with rfl | rfl
  · exact brace_not_mem_of_isVariable hv hc
  · exact not_mem_of_isVariable hv (by decide) (by decide +kernel) hc

theorem escape_pad (ts : List (List Char)) :
    escape (pad ts) = ts.flatMap (fun t => ' ' :: escape t) ++ [' '] := by
  induction ts with
  | nil => rfl
  | cons t ts ih =>
    rw [pad_cons, escape_append, ih, escape_cons, show escapeChar ' ' = [' '] from rfl,
      List.flatMap_cons, List.append_assoc, List.append_assoc, List.singleton_append,
      List.cons_append]

/-- A block is written as its declaration and its body in braces. -/
theorem source_block {declaration : List (List Char)} {content body : List Char}
    {inner : List Segment}
    (hbody : ' ' :: body ++ [' '] = escape (pad [content]) ++ inner.flatMap Segment.source) :
    (blockSegments declaration content inner).flatMap Segment.source =
      "@type".toList ++ escape (pad declaration) ++ ['{', ' '] ++ body ++ [' ', '}', ' '] := by
  have hinner : (⟨.opening, [content]⟩ :: inner : List Segment).flatMap Segment.source =
      ['{', ' '] ++ body ++ [' '] := by
    rw [List.flatMap_cons, Segment.source, List.append_assoc, ← hbody]; rfl
  rw [blockSegments, List.cons_append, List.flatMap_cons, List.flatMap_append, hinner]
  simp [Segment.source, Sign.lexeme, Lexeme.source, escape_pad]

/-- An entry and a space are the segments of the entry, if that holds of the body. -/
theorem entryText_eq {key : Key} {t : Tree} {body : List Char} {inner : List Segment}
    (hkey : key.Legible)
    (hbody : ' ' :: body ++ [' '] = escape (pad [t.content]) ++ inner.flatMap Segment.source) :
    entryText key t body ++ [' '] = (entrySegments key t inner).flatMap Segment.source := by
  cases key with
  | index n =>
    have hblock : hasBlock (.index n) t = true := rfl
    rw [entrySegments, if_pos hblock, source_block hbody, escape_pad, entryText.eq_def]
    simp [Key.texts]
  | name v =>
    have hv : escape v = v := escape_eq_self (isBrace_of_isVariable hkey.1)
    by_cases hleaf : t.children.isEmpty = true
    · have hblock : ¬hasBlock (.name v) t = true := by rw [hasBlock, hleaf]; decide
      rw [entrySegments, if_neg hblock, List.flatMap_singleton, Segment.source, escape_pad,
        entryText.eq_def]
      simp [Key.texts, hv, hleaf, Sign.lexeme, Lexeme.source]
    · have hblock : hasBlock (.name v) t = true := by simpa [hasBlock] using hleaf
      rw [entrySegments, if_pos hblock, source_block hbody, escape_pad, entryText.eq_def]
      simp [Key.texts, hv, hleaf]

/-- The entries of children are their segments, the space before the first one moved to the end. -/
theorem childrenText_eq {r : Registry} (children : List (Key × Tree))
    (h : ChildrenLegible r children) :
    childrenText children ++ [' '] = ' ' :: (segmentsOf children).flatMap Segment.source := by
  induction children using children_induction with
  | nil => rfl
  | cons key content types children rest ihc ihr =>
    obtain ⟨hkey, ⟨-, -, hchildren⟩, hrest⟩ := h
    have hbody : ' ' :: (Tree.node content types children).body ++ [' '] =
        escape (pad [content]) ++ (segmentsOf children).flatMap Segment.source := by
      rw [Tree.body, List.cons_append, List.append_assoc, ihc hchildren, escape_pad]
      simp
    rw [childrenText, List.append_assoc, ihr hrest, segmentsOf, List.flatMap_append, Tree.segments,
      ← entryText_eq hkey hbody]
    simp

/-! ## Words of written declarations -/

namespace Legible

variable {r : Registry} {content : List Char} {types : List (List Char)}

theorem typeWord_ne_nil (h : Legible r content types) : ['|'].intercalate types ≠ [] := by
  obtain ⟨t, ts, rfl⟩ := List.exists_cons_of_ne_nil h.types_ne_nil
  have ht := h.type_ne_nil t List.mem_cons_self
  cases ts with
  | nil => rwa [List.intercalate_singleton]
  | cons u ts =>
    rw [List.intercalate_cons_cons, List.append_assoc]
    exact fun hnil => ht (List.append_eq_nil_iff.1 hnil).1

/-- The word of the types is one word. -/
theorem isBlank_typeWord (h : Legible r content types) :
    ∀ c ∈ ['|'].intercalate types, isBlank c = false := by
  intro c hc
  obtain rfl | ⟨t, ht, hc⟩ := Text.mem_intercalate hc
  · decide
  · exact (h.type_chars t ht c hc).1

theorem words_typeWord (h : Legible r content types) :
    words (['|'].intercalate types) = [['|'].intercalate types] :=
  Text.pieces_eq_singleton h.typeWord_ne_nil h.isBlank_typeWord

/-- The types are read back from their word. -/
theorem typesOfWord_typeWord (h : Legible r content types) :
    typesOfWord (['|'].intercalate types) = types := by
  refine Text.pieces_intercalate (p := (· == '|')) rfl ?_
  intro t ht
  exact ⟨h.type_ne_nil t ht, fun c hc => beq_eq_false_iff_ne.2 (h.type_chars t ht c hc).2⟩

/-- The word of the types is no marker: a marker has no bar, so it would be the only type. -/
theorem typeWord_unmarked (h : Legible r content types) :
    ¬MarkerWord r (['|'].intercalate types) := by
  intro hmarker
  obtain ⟨t, ts, rfl⟩ := List.exists_cons_of_ne_nil h.types_ne_nil
  cases ts with
  | nil =>
    rw [List.intercalate_singleton] at hmarker
    exact h.types_unmarked t List.mem_cons_self hmarker
  | cons u ts =>
    obtain ⟨name, hname, -, hchars, -⟩ := hmarker
    -- two types have a bar between them
    have hbar : '|' ∈ '@' :: name := by
      rw [← hname, List.intercalate_cons_cons]
      exact List.mem_append_left _ (List.mem_append_right _ (List.mem_singleton_self _))
    rcases List.mem_cons.1 hbar with hbar | hbar
    · exact absurd hbar (by decide)
    · exact absurd (hchars _ hbar) (by decide +kernel)

end Legible

/-- The variable of a child; empty where it has a number. -/
def Key.variableName : Key → List Char
  | .name v => v
  | .index _ => []

theorem Key.words_texts {key : Key} (h : key.Legible) : key.texts.flatMap words = key.texts := by
  cases key with
  | index n => rfl
  | name v =>
    have hword : words v = [v] := Text.pieces_eq_singleton (ne_nil_of_isVariable h.1) h.2
    rw [Key.texts, List.flatMap_singleton, hword]

/-- The name of a child is no marker. -/
theorem Key.texts_unmarked {r : Registry} {key : Key} (h : key.Legible) :
    ∀ t ∈ key.texts, ∀ w ∈ words t, ¬MarkerWord r w := by
  intro t ht w hw hmarker
  have hmem : w ∈ key.texts := by
    rw [← Key.words_texts h]
    exact List.mem_flatMap_of_mem ht hw
  cases key with
  | index n => exact absurd hmem List.not_mem_nil
  | name v =>
    obtain ⟨name, hname, -⟩ := hmarker
    rw [List.mem_singleton.1 hmem] at hname
    refine not_mem_of_isVariable (c := '@') h.1 (by decide) (by decide +kernel) ?_
    rw [hname]
    exact List.mem_cons_self

/-- What is written for a block declares its variable and its types. -/
theorem parse_block {r : Registry} {key : Key} {t : Tree} (hkey : key.Legible)
    (h : Legible r t.content t.types) :
    Declaration.parse (pad (t.typeWord :: key.texts)) = .ok ⟨t.types, key.variableName, []⟩ := by
  have hwords : words (pad (t.typeWord :: key.texts)) = t.typeWord :: key.texts := by
    rw [words_pad, List.flatMap_cons, Key.words_texts hkey, Tree.typeWord, h.words_typeWord]; rfl
  have htypes : typesOfWord t.typeWord = t.types := h.typesOfWord_typeWord
  rw [Declaration.parse_of_words hwords h.not_variable (by rw [htypes]; exact h.types_ne_nil), htypes]
  cases key with
  | index n => rfl
  | name v => rw [Key.texts, Declaration.bindWords_variable _ hkey.1]; rfl

/-- What is written for a leaf declares its variable, its types and its description. -/
theorem parse_leaf {r : Registry} {v : List Char} {t : Tree} (hkey : (Key.name v).Legible)
    (h : Legible r t.content t.types) :
    Declaration.parse (pad (t.typeWord :: (Key.name v).texts ++ [t.content])) =
      .ok ⟨t.types, v, t.content⟩ := by
  have hwords : words (pad (t.typeWord :: (Key.name v).texts ++ [t.content])) =
      t.typeWord :: v :: words t.content := by
    rw [words_pad, List.flatMap_append, List.flatMap_cons, Key.words_texts hkey, Tree.typeWord,
      h.words_typeWord, List.flatMap_singleton]
    rfl
  have htypes : typesOfWord t.typeWord = t.types := h.typesOfWord_typeWord
  rw [Declaration.parse_of_words hwords h.not_variable (by rw [htypes]; exact h.types_ne_nil), htypes,
    Declaration.bindWords_variable _ hkey.1, ← Text.squeeze, h.content_squeezed]

/-- No word of a segment is a marker. -/
theorem segmentsOf_unmarked {r : Registry} {children : List (Key × Tree)}
    (h : ChildrenLegible r children) : ∀ g ∈ segmentsOf children, g.Unmarked r := by
  induction children using children_induction with
  | nil => exact fun g hg => absurd hg List.not_mem_nil
  | cons key content types children rest ihc ihr =>
    obtain ⟨hkey, ⟨hnode, -, hchildren⟩, hrest⟩ := h
    have hdeclaration : ∀ t ∈ ['|'].intercalate types :: key.texts, ∀ w ∈ words t,
        ¬MarkerWord r w := by
      intro t ht w hw
      rcases List.mem_cons.1 ht with rfl | ht
      · rw [hnode.words_typeWord, List.mem_singleton] at hw
        rw [hw]
        exact hnode.typeWord_unmarked
      · exact Key.texts_unmarked hkey t ht w hw
    have hcontent : ∀ t ∈ [content], ∀ w ∈ words t, ¬MarkerWord r w := by
      intro t ht
      rw [List.mem_singleton.1 ht]
      exact hnode.content_unmarked
    intro g hg
    rw [segmentsOf, List.mem_append, entrySegments] at hg
    rcases hg with hg | hg
    · split at hg
      · -- a block: its declaration, its content, what is inside, and the brace at the end
        simp only [blockSegments, List.mem_append, List.mem_cons, List.not_mem_nil,
          or_false] at hg
        rcases hg with (rfl | rfl | hg) | rfl
        · exact hdeclaration
        · exact hcontent
        · exact ihc hchildren g hg
        · exact fun t ht => absurd ht List.not_mem_nil
      · rw [List.mem_singleton] at hg
        subst hg
        intro t ht
        rcases List.mem_append.1 ht with ht | ht
        · exact hdeclaration t ht
        · exact hcontent t ht
    · exact ihr hrest g hg

/-! ## The entries of a tree -/

/-- The entries as which a child is read, `inner` being those of its children. The space behind a block
is an entry of its own. -/
def entriesFor (key : Key) (t : Tree) (inner : List Entry) : List Entry :=
  if hasBlock key t then
    [.block (some ⟨t.types, key.variableName, []⟩) t.content inner, .blank]
  else [.leaf ⟨t.types, key.variableName, t.content⟩]

mutual

/-- The entries as which the children of a node are read. -/
def Tree.entries : Tree → List Entry
  | .node _ _ children => entriesOf children

/-- The entries as which children are read. -/
def entriesOf : List (Key × Tree) → List Entry
  | [] => []
  | (key, t) :: rest => entriesFor key t t.entries ++ entriesOf rest

end

/-- Tokens of which only kinds and values matter. -/
def unplaced (ps : List (TokenKind × List Char)) : List Token := ps.map fun p => ⟨p.1, p.2, 0⟩

@[simp] theorem unplaced_append (ps qs : List (TokenKind × List Char)) :
    unplaced (ps ++ qs) = unplaced ps ++ unplaced qs :=
  List.map_append

/-- Positions do not matter. -/
theorem alike_unplaced {ts : List Token} {ps : List (TokenKind × List Char)}
    (h : ts.map (fun t => (t.kind, t.value)) = ps) : Alike (unplaced ps) ts := by
  rw [← h, Alike, unplaced, List.map_map, List.map_map]
  rfl

/-- The tokens of children. -/
def tokensOf (children : List (Key × Tree)) : List Token :=
  unplaced ((segmentsOf children).flatMap Segment.parts)

theorem opensNext_tokensOf (children : List (Key × Tree)) : opensNext (tokensOf children) = false := by
  cases children with
  | nil => rfl
  | cons child rest =>
    obtain ⟨key, t⟩ := child
    rw [tokensOf, segmentsOf, entrySegments]
    split <;> rfl

theorem optText_unplaced (s : List Char) : OptText s (unplaced [(.text, s)]) :=
  .present (t := ⟨.text, s, 0⟩) rfl

/-- The description of a block in front of entries makes a block of them. -/
theorem derives_body {r : Registry} {limit depth : Nat} {content : List Char}
    {types : List (List Char)} {es : List Entry} {ts : List Token} (h : Legible r content types)
    (hentries : Derives limit (.entries depth es) ts) :
    Derives limit (.block depth content es) (unplaced [(.text, pad [content])] ++ ts) := by
  have hsqueeze : Text.squeeze (pad [content]) = content := by
    rw [Text.squeeze, words_pad, List.flatMap_singleton, ← Text.squeeze, h.content_squeezed]
  have hblock := Derives.block (optText_unplaced (pad [content])) hentries
  rwa [hsqueeze] at hblock

/-- What is written for a block in front of entries derives it, if what is written for its children
derives these. -/
theorem derives_block {r : Registry} {limit depth : Nat} {key : Key} {t : Tree}
    {es later : List Entry} {inner : List Segment} {rest : List Token} (hkey : key.Legible)
    (h : Legible r t.content t.types) (hdepth : depth < limit)
    (hinner : Derives limit (.entries (depth + 1) es) (unplaced (inner.flatMap Segment.parts)))
    (hrest : Derives limit (.entries depth later) rest) :
    Derives limit
      (.entries depth (.block (some ⟨t.types, key.variableName, []⟩) t.content es :: .blank :: later))
      (unplaced ((blockSegments (t.typeWord :: key.texts) t.content inner).flatMap Segment.parts) ++
        rest) := by
  have hbody := derives_body h hinner
  have hentry := Derives.announced (m := ⟨.marker, "type".toList, 0⟩) (o := ⟨.opening, ['{'], 0⟩)
    (c := ⟨.closing, ['}'], 0⟩) rfl (optText_unplaced _) (.parameter (parse_block hkey h)) hdepth rfl
    hbody rfl
  have hspace : Derives limit (.entry depth .blank) (unplaced [(.text, [' '])]) :=
    .blank (t := ⟨.text, [' '], 0⟩) rfl rfl
  have hnot : ∀ {ts : List Token}, false = true → opensNext ts = false := fun h =>
    absurd h Bool.false_ne_true
  convert hentry.cons (hspace.cons hrest hnot) hnot using 1
  simp [blockSegments, Segment.parts, Sign.part, unplaced, pad]

/-- What is written for a leaf derives it. -/
theorem derives_leaf {r : Registry} {limit depth : Nat} {v : List Char} {t : Tree}
    (hkey : (Key.name v).Legible) (h : Legible r t.content t.types) :
    Derives limit (.entry depth (.leaf ⟨t.types, v, t.content⟩))
      (unplaced (Segment.parts ⟨.entry, t.typeWord :: (Key.name v).texts ++ [t.content]⟩)) :=
  .leaf (m := ⟨.marker, "type".toList, 0⟩) rfl (optText_unplaced _) (parse_leaf hkey h)
    (ne_nil_of_isVariable hkey.1)

/-- **The tokens of children derive their entries.** -/
theorem derives_entriesOf {r : Registry} {limit depth : Nat} {children : List (Key × Tree)}
    (h : ChildrenLegible r children) (hdepth : depth + nestingOf children ≤ limit) :
    Derives limit (.entries depth (entriesOf children)) (tokensOf children) := by
  induction children using children_induction generalizing depth with
  | nil => exact .nil
  | cons key content types children rest ihc ihr =>
    obtain ⟨hkey, ⟨hnode, -, hchildren⟩, hrest⟩ := h
    rw [nestingOf] at hdepth
    have hrest : Derives limit (.entries depth (entriesOf rest)) (tokensOf rest) :=
      ihr hrest (by omega)
    rw [entriesOf, entriesFor, tokensOf, segmentsOf, entrySegments, List.flatMap_append,
      unplaced_append]
    by_cases hblock : hasBlock key (.node content types children) = true
    · rw [if_pos hblock, Tree.nesting] at hdepth
      rw [if_pos hblock, if_pos hblock]
      have hinner : Derives limit (.entries (depth + 1) (entriesOf children)) (tokensOf children) :=
        ihc hchildren (by omega)
      exact derives_block (t := .node content types children) hkey hnode (by omega) hinner hrest
    · rw [if_neg hblock, if_neg hblock]
      cases key with
      | index n => exact absurd rfl hblock
      | name v =>
        rw [List.flatMap_singleton]
        exact (derives_leaf (t := .node content types children) hkey hnode).cons hrest fun _ =>
          opensNext_tokensOf rest

/-! ## What the entries say -/

theorem opensAll_entriesFor (key : Key) (t : Tree) (inner : List Entry) :
    opensAll (entriesFor key t inner) = if hasBlock key t then opensAll inner + 1 else 0 := by
  rw [entriesFor]
  split <;> rfl

/-- The entries of children open as many blocks as are written for them. -/
theorem opensAll_entriesOf (children : List (Key × Tree)) :
    opensAll (entriesOf children) = blocksOf children := by
  induction children using children_induction with
  | nil => rfl
  | cons key content types children rest ihc ihr =>
    rw [entriesOf, opensAll_append, opensAll_entriesFor, ihr, blocksOf, Tree.entries, ihc,
      Tree.blocks]

/-- The entries of a child take the numbers of its key. -/
theorem numbersAll_entriesFor {key : Key} (hkey : key.Legible) (t : Tree) (inner : List Entry) :
    numbersAll false (entriesFor key t inner) = key.numbers := by
  rw [entriesFor]
  cases key with
  | index n => rfl
  | name v =>
    have hv : v.isEmpty = false := by simpa using ne_nil_of_isVariable hkey.1
    split
    · simp [numbersAll, Entry.numbers, blockVariable, Key.variableName, Key.numbers, hv]
    · rfl

/-- The entries of a child write the child, if the entries inside write its children. -/
theorem writesAll_entriesFor {shared : Bool} {opened own : Nat} {key : Key} {t : Tree}
    {inner : List Entry} (hkey : key.Legible)
    (hindex : ∀ n, key = .index n → n = if shared then opened else own)
    (hinner : putAll [] (writesAll shared (opened + 1) 0 inner) = t.children) :
    writesAll shared opened own (entriesFor key t inner) = [(key, t)] := by
  obtain ⟨content, types, children⟩ := t
  rw [entriesFor]
  by_cases hblock : hasBlock key (.node content types children) = true
  · have hnumber : blockKey shared opened own key.variableName = key := by
      cases key with
      | index n => rw [hindex n rfl]; rfl
      | name v =>
        have hne : ¬v.isEmpty = true := by simpa using ne_nil_of_isVariable hkey.1
        exact if_neg hne
    rw [if_pos hblock]
    show [(blockKey shared opened own key.variableName, Tree.node (withLead [] content) types
      (putAll [] (writesAll shared (opened + 1) 0 inner)))] = _
    rw [hnumber, withLead_nil, hinner]
    rfl
  · rw [if_neg hblock]
    cases key with
    | index n => exact absurd rfl hblock
    | name v =>
      have hchildren : children = [] := by simpa [hasBlock, Tree.children] using hblock
      rw [hchildren]
      rfl

/-- **The entries of children write the children**, in the order in which they stand. -/
theorem writesAll_entriesOf {r : Registry} {shared : Bool} {opened numbered own : Nat}
    {children : List (Key × Tree)} (h : ChildrenLegible r children)
    (hnumbered : NumberedFrom shared opened numbered children)
    (hown : shared = false → own = numbered) :
    writesAll shared opened own (entriesOf children) = children := by
  induction children using children_induction generalizing opened numbered own with
  | nil => rfl
  | cons key content types children rest ihc ihr =>
    obtain ⟨hkey, ⟨hnode, hnodup, hchildren⟩, hrest⟩ := h
    obtain ⟨hindex, hinside, hlater⟩ := hnumbered
    have hinner : putAll [] (writesAll shared (opened + 1) 0 (entriesOf children)) = children := by
      rw [ihc hchildren hinside fun _ => rfl]
      exact putAll_nil_of_nodup hnodup
    -- `own` counts the numbers that the parser gave out; it matters only without a shared index
    have hkeys : ∀ n, key = .index n → n = if shared then opened else own := by
      intro n hn
      rw [hindex n hn]
      cases shared with
      | true => rfl
      | false => exact (hown rfl).symm
    have hlast : shared = false →
        own + numbersAll shared (entriesFor key (.node content types children)
          (entriesOf children)) = numbered + key.numbers := by
      rintro rfl
      rw [hown rfl, numbersAll_entriesFor hkey]
    rw [Tree.blocks] at hlater
    rw [entriesOf, writesAll_append, Tree.entries, writesAll_entriesFor hkey hkeys hinner,
      opensAll_entriesFor, opensAll_entriesOf, ihr hrest hlater hlast]
    rfl

/-! ## Reading back -/

/-- A text in braces with a space inside of each is trimmed to itself, and its inside is found. -/
theorem unbrace_eq_ok (body : List Char) :
    unbrace ("\x7b ".toList ++ body ++ " \x7d".toList) = .ok (' ' :: body ++ [' ']) := by
  have hshape : "\x7b ".toList ++ body ++ " \x7d".toList = '{' :: (' ' :: body ++ [' ']) ++ ['}'] := by
    simp
  have htrim : Text.trim ('{' :: (' ' :: body ++ [' ']) ++ ['}']) =
      '{' :: (' ' :: body ++ [' ']) ++ ['}'] := by
    apply Text.trim_eq_self
    · rintro c hc
      cases hc
      decide
    · intro c hc
      rw [List.getLast?_concat] at hc
      cases hc
      decide
  rw [hshape, unbrace_eq_ok_iff_trim, htrim]

/-- The tokens of a written tree are the text of the root and the tokens of its children. -/
theorem tokenize_body {r : Registry} (htype : r.isMarker "type" = true) {t : Tree}
    (h : t.Legible r) :
    Alike (unplaced [(.text, pad [t.content])] ++ tokensOf t.children)
      (tokenize r (' ' :: t.body ++ [' '])) := by
  obtain ⟨content, types, children⟩ := t
  obtain ⟨hnode, -, hchildren⟩ := h
  have hcontent : ∀ t ∈ [content], ∀ w ∈ words t, ¬MarkerWord r w := by
    intro t ht
    rw [List.mem_singleton.1 ht]
    exact hnode.content_unmarked
  have hsource : ' ' :: (Tree.node content types children).body ++ [' '] =
      escape (pad [content]) ++ (segmentsOf children).flatMap Segment.source := by
    rw [Tree.body, List.cons_append, List.append_assoc, childrenText_eq children hchildren, escape_pad]
    simp
  have hne : pad [content] ≠ [] := by
    rw [pad_cons]
    exact List.cons_ne_nil _ _
  rw [tokensOf, ← unplaced_append]
  apply alike_unplaced
  rw [tokenize, map_tokensAt, hsource, lexemes_pad hcontent, parts_text hne,
    parts_segments htype (segmentsOf_unmarked hchildren), joinPart_segments]
  rfl

/-- **A tree that can be written is read back from its hash**, whatever the dialect. -/
theorem parse_write (dialect : Dialect) (t : Tree)
    (htype : dialect.registry.isMarker "type" = true) (h : t.Writable dialect) :
    parse dialect t.write = .ok t := by
  have halike := tokenize_body htype h.legible
  obtain ⟨content, types, children⟩ := t
  obtain ⟨hroot, ⟨hnode, hnodup, hchildren⟩, hnumbered, hnesting⟩ := h
  have hdepth : 0 + nestingOf children ≤ dialect.maxDepth := by rw [Nat.zero_add]; exact hnesting
  have hblock := (derives_body hnode (derives_entriesOf hchildren hdepth)).congr halike
  have hwrites : writesAll dialect.sharedIndex 0 0 (entriesOf children) = children :=
    writesAll_entriesOf hchildren hnumbered fun _ => rfl
  rw [parse, Tree.write, unbrace_eq_ok]
  refine parseTokens_eq_ok_iff.2 ⟨_, _, hblock, ?_⟩
  rw [meaning, hwrites, putAll_nil_of_nodup hnodup, ← hroot]
  rfl

/-- A tree with braces, a backslash and an annotation that is no marker in its texts. -/
def sampleTree : Tree :=
  .node "Options \x7bsee below\x7d.".toList defaultTypes
    [(.name "$limit".toList, .node "At most \\\x7b or none.".toList ["int".toList, "null".toList] []),
     (.index 0, .node [] ["array".toList]
       [(.name "...$rest".toList, .node "@types of it".toList ["A\x7bB".toList] [])])]

/-- Reading back a block without a name, a leaf in it, and a leaf before it. -/
theorem parse_write_sampleTree :
    sampleTree.Writable ⟨.standard, 1, true⟩ ∧
      parse ⟨.standard, 1, true⟩ sampleTree.write = .ok sampleTree := by
  have hlegible : sampleTree.Legible .standard := by
    refine ⟨⟨?_, ?_, ?_, ?_, ?_, ?_, ?_⟩, ?_, ⟨?_, ?_⟩, ⟨⟨?_, ?_, ?_, ?_, ?_, ?_, ?_⟩, ?_, ⟨⟩⟩, ⟨⟩,
      ⟨⟨?_, ?_, ?_, ?_, ?_, ?_, ?_⟩, ?_, ⟨?_, ?_⟩, ⟨⟨?_, ?_, ?_, ?_, ?_, ?_, ?_⟩, ?_, ⟨⟩⟩, ⟨⟩⟩, ⟨⟩⟩ <;>
      decide +kernel
  have hwritable : sampleTree.Writable ⟨.standard, 1, true⟩ :=
    ⟨rfl, hlegible, by simp [sampleTree, Tree.Numbered, NumberedFrom, hasBlock, Tree.children], by decide⟩
  exact ⟨hwritable, parse_write ⟨.standard, 1, true⟩ sampleTree (by decide +kernel) hwritable⟩

end DocTree.Hash
