import DocTree.Hash.Export
import DocTree.Proofs.Hash.Renaming
import DocTree.Proofs.Hash.WellFormed
import DocTree.Proofs.Json.Reading

/-!
# What exported trees lose

A node is exported as a mapping that holds its own texts and, beside them, its children under their keys.
No key of a child meets another key, not even once numbers are written as names: a name holds a dollar
sign, and a number is nothing but digits. So the tree of a hash is rebuilt from the JSON text of its
export, whatever the indentation, and trees with the same JSON text are the same
(`parse_export_restores`).

There is one exception. A text may hold the halves of a code point, where a document or a caller spells
them one by one. JSON writes them as it writes the code point, and so a high half with a low half directly
behind it comes back as one code point (`Tree.joined`). Nothing is lost of trees without such halves.

## Shape of the proof

A key is read back from its text (`Key.ofText_text`), so the keys of a well-formed node are written as
different names (`Tree.WellFormed.fieldNames`), and the names have no halves
(`Tree.WellFormed.joinedNames`). Then a node is exported entry by entry (`toValue_eq_exportEntries`), and
it is restored if its children are (`Tree.WellFormed.restored`). What JSON gives back of what it was given
is `Json.readIn?_writeIn`.

A text is given over some alphabet. Which one it is does not matter to the tree (`parse_recoding`).
-/

namespace DocTree.Hash

/-! ## Keys as text -/

/-- The key that is written as a text: the digits of a number, or a name. -/
def Key.ofText (s : List Char) : Key :=
  if s ≠ [] ∧ s.all isAsciiDigit then .index (ofDigits s) else .name s

theorem Key.fieldName_toScalar (k : Key) : Json.fieldName k.toScalar = k.text := by
  cases k with
  | index n => rfl
  | name v => rfl

/-- A variable is written with a dollar sign. -/
theorem dollar_mem_of_variableName {v : List Char} (h : VariableName v) : '$' ∈ v := by
  obtain ⟨mark, name, rfl, -⟩ := h
  exact List.mem_append_right mark List.mem_cons_self

/-- A key is read back from its text. -/
theorem Key.ofText_text {k : Key} (h : ∀ v, k = .name v → VariableName v) :
    Key.ofText k.text.toList = k := by
  cases k with
  | index n =>
    have htext : (Key.index n).text.toList = Nat.toDigits 10 n := Nat.toList_repr
    have hdigits : (Nat.toDigits 10 n).all isAsciiDigit = true :=
      List.all_eq_true.2 fun c hc => Nat.isDigit_of_mem_toDigits (by decide) (by decide) hc
    rw [htext, Key.ofText, if_pos ⟨Nat.toDigits_ne_nil, hdigits⟩, ofDigits,
      ofRadix_toDigits (by decide) (by decide)]
  | name v =>
    have htext : (Key.name v).text.toList = v := String.toList_ofList
    have hdollar : ¬(v ≠ [] ∧ v.all isAsciiDigit = true) := by
      rintro ⟨-, hall⟩
      exact absurd (List.all_eq_true.1 hall _ (dollar_mem_of_variableName (h v rfl))) (by decide)
    rw [htext, Key.ofText, if_neg hdollar]

theorem isFixed_of_isAsciiDigit {c : Char} (h : isAsciiDigit c = true) : Text.isFixed c = true := by
  rw [isAsciiDigit, Bool.and_eq_true, decide_eq_true_eq, decide_eq_true_eq] at h
  have hnine : c.toNat ≤ 57 := UInt32.le_iff_toNat_le.1 h.2
  have hascii : c.toNat < 0x80 := by omega
  rw [Text.isFixed, decide_eq_true hascii, Bool.true_or, Bool.true_or]

/-- The characters of a key have a meaning of their own. -/
theorem Key.isFixed_of_mem_text {k : Key} (h : ∀ v, k = .name v → VariableName v) :
    ∀ c ∈ k.text.toList, Text.isFixed c = true := by
  cases k with
  | index n =>
    have htext : (Key.index n).text.toList = Nat.toDigits 10 n := Nat.toList_repr
    rw [htext]
    exact fun c hc => isFixed_of_isAsciiDigit (Nat.isDigit_of_mem_toDigits (by decide) (by decide) hc)
  | name v =>
    have htext : (Key.name v).text.toList = v := String.toList_ofList
    obtain ⟨mark, name, rfl, hmark, -, hname⟩ := h v rfl
    have hmarks : ∀ c ∈ mark, Text.isFixed c = true := by
      rcases hmark with rfl | rfl | rfl <;> decide
    rw [htext, List.forall_mem_append, List.forall_mem_cons]
    refine ⟨hmarks, by decide, fun c hc => ?_⟩
    rw [Text.isFixed, hname c hc, Bool.or_true]

/-- A key has no halves. -/
theorem Key.joinedText_text {a : Text.Alphabet} {k : Key} (h : ∀ v, k = .name v → VariableName v) :
    a.joinedText k.text = k.text :=
  a.joinedText_of_fixed (Key.isFixed_of_mem_text h)

/-! ## The entries of a node -/

/-- A node as a mapping: its own texts, and then its children under their keys. -/
def Tree.exportEntries (t : Tree) : Entries :=
  (.str "content", .str (String.ofList t.content)) ::
    (.str "types", .strs (t.types.map String.ofList)) ::
    t.children.map fun w => (w.1.toScalar, w.2.toValue)

/-- Children are written entry by entry. -/
theorem putChildren_eq_foldl (children : List (Key × Tree)) (acc : Entries) :
    putChildren children acc =
      (children.map fun w => (w.1.toScalar, w.2.toValue)).foldl
        (fun acc e => Entries.insert e.1 e.2 acc) acc := by
  induction children generalizing acc with
  | nil => rw [putChildren]; rfl
  | cons w children ih =>
    obtain ⟨k, t⟩ := w
    rw [putChildren, ih]
    rfl

section Entries

variable {t : Tree}

/-- The field names of a node are the texts of its keys. -/
theorem fieldNames_exportEntries (t : Tree) :
    (t.exportEntries.map fun e => Json.fieldName e.1) =
      "content" :: "types" :: t.children.map (·.1.text) := by
  have hchildren : (t.children.map fun w => (w.1.toScalar, w.2.toValue)).map
      (fun e => Json.fieldName e.1) = t.children.map (·.1.text) := by
    rw [List.map_map]
    exact List.map_congr_left fun w _ => w.1.fieldName_toScalar
  rw [Tree.exportEntries, List.map_cons, List.map_cons, hchildren]
  rfl

/-- Keys that are written as different names are different. -/
theorem nodup_keys_exportEntries (h : (t.exportEntries.map fun e => Json.fieldName e.1).Nodup) :
    (t.exportEntries.map Prod.fst).Nodup := by
  refine List.Nodup.of_map Json.fieldName ?_
  rw [List.map_map]
  exact h

/-- A node whose keys are written as different names is exported entry by entry. -/
theorem toValue_eq_exportEntries (h : (t.exportEntries.map fun e => Json.fieldName e.1).Nodup) :
    t.toValue = .map t.exportEntries := by
  have hkeys := nodup_keys_exportEntries h
  obtain ⟨content, types, children⟩ := t
  rw [Tree.toValue, putChildren_eq_foldl, Entries.foldl_insert_of_nodup hkeys]
  rfl

/-- The keys of a well-formed node are written as different names. -/
theorem Tree.WellFormed.fieldNames (h : t.WellFormed) :
    (t.exportEntries.map fun e => Json.fieldName e.1).Nodup := by
  have hread : ∀ w ∈ t.children, Key.ofText w.1.text.toList = w.1 := fun w hw =>
    Key.ofText_text (h.names w hw)
  have hown : ∀ s : String, Key.ofText s.toList = .name s.toList → '$' ∉ s.toList →
      s ∉ t.children.map (·.1.text) := by
    intro s hs hdollar hmem
    obtain ⟨w, hw, rfl⟩ := List.mem_map.1 hmem
    have hname : w.1 = .name w.1.text.toList := (hread w hw).symm.trans hs
    exact hdollar (dollar_mem_of_variableName (h.names w hw _ hname))
  have hchildren : (t.children.map (·.1.text)).Nodup := by
    have hback : (t.children.map (·.1.text)).map (fun s => Key.ofText s.toList) =
        t.children.map (·.1) := by
      rw [List.map_map]
      exact List.map_congr_left hread
    exact List.Nodup.of_map _ (hback ▸ h.keys)
  rw [fieldNames_exportEntries]
  refine List.nodup_cons.2 ⟨?_, List.nodup_cons.2 ⟨hown "types" (by decide) (by decide), hchildren⟩⟩
  rw [List.mem_cons, not_or]
  exact ⟨by decide, hown "content" (by decide) (by decide)⟩

/-- The names that the keys of a well-formed node are written as have no halves. -/
theorem Tree.WellFormed.joinedNames {a : Text.Alphabet} (h : t.WellFormed) :
    (t.exportEntries.map fun e => Json.fieldName e.1) =
      t.exportEntries.map fun e => a.joinedText (Json.fieldName e.1) := by
  have hcontent : a.joinedText "content" = "content" := a.joinedText_of_fixed (by decide)
  have htypes : a.joinedText "types" = "types" := a.joinedText_of_fixed (by decide)
  have hnames : ∀ s ∈ t.exportEntries.map fun e => Json.fieldName e.1, a.joinedText s = s := by
    rw [fieldNames_exportEntries]
    exact List.forall_mem_cons.2 ⟨hcontent, List.forall_mem_cons.2 ⟨htypes,
      List.forall_mem_map.2 fun w hw => w.1.joinedText_text (h.names w hw)⟩⟩
  exact List.map_congr_left fun e he => (hnames _ (List.mem_map_of_mem he)).symm

end Entries

/-! ## Halves -/

/-- A node of a tree is its root or a node of one of its children. -/
theorem Tree.hasNode_iff {t u : Tree} : t.HasNode u ↔ u = t ∨ ∃ w ∈ t.children, w.2.HasNode u := by
  constructor
  · intro h
    induction h with
    | root => exact .inl rfl
    | @child u v k _ hv ih =>
      rcases ih with rfl | ⟨w, hw, hu⟩
      · exact .inr ⟨(k, v), hv, .root⟩
      · exact .inr ⟨w, hw, .child hu hv⟩
  · rintro (rfl | ⟨w, hw, h⟩)
    · exact .root
    · induction h with
      | root => exact .child .root hw
      | child _ hv ih => exact .child ih hv

section

variable (a : Text.Alphabet)

/-- The tree in which the pairs of halves are joined, in each description and each type. -/
def Tree.joined (t : Tree) : Tree := t.mapTexts a.joined

/-- No text of the tree has a high half directly before a low half. -/
def Tree.Unpaired (t : Tree) : Prop :=
  ∀ u, t.HasNode u → ∀ s ∈ u.content :: u.types, Text.Unpaired (s.map a.point)

variable {a}

theorem Tree.unpaired_iff {t : Tree} :
    t.Unpaired a ↔ (∀ s ∈ t.content :: t.types, Text.Unpaired (s.map a.point)) ∧
      ∀ w ∈ t.children, w.2.Unpaired a := by
  constructor
  · exact fun h => ⟨h t .root, fun w hw u hu => h u (Tree.hasNode_iff.2 (.inr ⟨w, hw, hu⟩))⟩
  · rintro ⟨hroot, hchildren⟩ u hu
    rcases Tree.hasNode_iff.1 hu with rfl | ⟨w, hw, hu⟩
    · exact hroot
    · exact hchildren w hw u hu

theorem map_joined_eq_self_iff {ss : List (List Char)} :
    ss.map a.joined = ss ↔ ∀ s ∈ ss, Text.Unpaired (s.map a.point) := by
  have hid : ss.map a.joined = ss ↔ ss.map a.joined = ss.map id := by rw [List.map_id]
  rw [hid, List.map_inj_left]
  exact forall₂_congr fun s _ => a.joined_eq_self_iff

mutual

/-- A tree is left as it is exactly if it has no pairs of halves. -/
theorem Tree.joined_eq_self_iff : ∀ t : Tree, t.joined a = t ↔ t.Unpaired a
  | .node content types children => by
    rw [Tree.joined, Tree.mapTexts, Tree.node.injEq, a.joined_eq_self_iff, map_joined_eq_self_iff,
      mapChildren_joined_eq_self_iff children, Tree.unpaired_iff, List.forall_mem_cons, and_assoc]
    rfl

theorem mapChildren_joined_eq_self_iff :
    ∀ children : List (Key × Tree),
      mapChildren a.joined children = children ↔ ∀ w ∈ children, w.2.Unpaired a
  | [] => iff_of_true rfl fun w hw => absurd hw List.not_mem_nil
  | (k, t) :: rest => by
    have ht : t.mapTexts a.joined = t ↔ t.Unpaired a := Tree.joined_eq_self_iff t
    rw [mapChildren, List.cons.injEq, Prod.mk.injEq, ht, mapChildren_joined_eq_self_iff rest,
      List.forall_mem_cons, and_iff_right rfl]

end

end

/-! ## Rebuilding -/

/-- The text that a document is. -/
def text? : Value → Option (List Char)
  | .scalar (.str s) => some s.toList
  | _ => none

mutual

/-- The node that a mapping describes: its description, its types, and then its children. -/
def Tree.ofValue? : Value → Option Tree
  | .map ((_, content) :: (_, .list types) :: children) => do
    let content ← text? content
    let types ← types.mapM text?
    let children ← childrenOf? children
    return .node content types children
  | _ => none

/-- The children that entries describe. -/
def childrenOf? : List (Scalar × Value) → Option (List (Key × Tree))
  | [] => some []
  | (.str name, v) :: rest => do
    let t ← Tree.ofValue? v
    let children ← childrenOf? rest
    return (Key.ofText name.toList, t) :: children
  | _ => none

end

section

variable (a : Text.Alphabet)

/-- The tree over an alphabet that a JSON text describes. -/
def Tree.ofJson? (text : List Char) : Option Tree := (Json.readIn? a text).bind Tree.ofValue?

/-- The export of the tree can be read, and the tree is rebuilt from it, with its pairs of halves joined. -/
structure Tree.Restored (t : Tree) : Prop where
  texts : Json.OfTexts a t.toValue
  rebuilt : Tree.ofValue? (Json.reread a t.toValue) = some (t.joined a)

variable {a}

theorem mapM_text?_strs (types : List (List Char)) :
    (Json.rereadItems a ((types.map String.ofList).map Value.str)).mapM text? =
      some (types.map a.joined) := by
  induction types with
  | nil => rfl
  | cons type types ih =>
    rw [List.map_cons, List.map_cons, Json.rereadItems, Json.reread, List.mapM_cons, ih, text?,
      Text.Alphabet.joinedText, String.toList_ofList, String.toList_ofList]
    rfl

theorem childrenOf?_reread {children : List (Key × Tree)}
    (hnames : ∀ w ∈ children, ∀ v, w.1 = .name v → VariableName v)
    (h : ∀ w ∈ children, w.2.Restored a) :
    childrenOf? (Json.rereadEntries a (children.map fun w => (w.1.toScalar, w.2.toValue))) =
      some (mapChildren a.joined children) := by
  induction children with
  | nil => rfl
  | cons w children ih =>
    obtain ⟨k, t⟩ := w
    have hkey : Key.ofText k.text.toList = k := Key.ofText_text (hnames _ List.mem_cons_self)
    have hjoined : a.joinedText k.text = k.text := k.joinedText_text (hnames _ List.mem_cons_self)
    have ht := (h _ List.mem_cons_self).rebuilt
    have ih := ih (fun w hw => hnames w (List.mem_cons_of_mem _ hw))
      fun w hw => h w (List.mem_cons_of_mem _ hw)
    rw [List.map_cons, Json.rereadEntries, childrenOf?, ht, ih, Key.fieldName_toScalar, hjoined, hkey]
    rfl

/-- A well-formed node is restored if its children are. -/
theorem Tree.WellFormed.restored {t : Tree} (h : t.WellFormed)
    (hchildren : ∀ w ∈ t.children, w.2.Restored a) : t.Restored a := by
  have hvalue := toValue_eq_exportEntries h.fieldNames
  refine ⟨?_, ?_⟩
  · rw [hvalue]
    refine .map (h.joinedNames ▸ h.fieldNames)
      (List.forall_mem_cons.2 ⟨.str _, List.forall_mem_cons.2 ⟨?_, ?_⟩⟩)
    · refine .list fun v hv => ?_
      obtain ⟨s, -, rfl⟩ := List.mem_map.1 hv
      exact .str s
    · intro e he
      obtain ⟨w, hw, rfl⟩ := List.mem_map.1 he
      exact (hchildren w hw).texts
  · have hrest := childrenOf?_reread h.names hchildren
    rw [hvalue, Json.reread, Tree.exportEntries]
    simp only [Json.rereadEntries, Json.reread, Value.strs]
    rw [Tree.ofValue?, mapM_text?_strs, hrest, text?, Text.Alphabet.joinedText, String.toList_ofList,
      String.toList_ofList]
    cases t
    rfl

/-- A child that a hash writes is restored. -/
theorem Written.restored {w : Key × Tree} (h : Written w) : w.2.Restored a := by
  induction h with
  | leaf hd hname =>
    exact (Written.leaf hd hname).wellFormed.1.restored fun w hw => absurd hw List.not_mem_nil
  | block shared opened numbered hd hkeys hchildren ih =>
    exact (Written.block shared opened numbered hd hkeys hchildren).wellFormed.1.restored ih

theorem Tree.Restored.ofJson? {t : Tree} (h : t.Restored a) (indent : Option Nat) :
    Tree.ofJson? a (Json.writeIn a indent t.toValue).toList = some (t.joined a) := by
  rw [Tree.ofJson?, Json.readIn?_writeIn indent h.texts, Option.bind_some, h.rebuilt]

theorem restored_of_parse {dialect : Dialect} {content : List Char} {t : Tree}
    (h : parse dialect content = .ok t) : t.Restored a := by
  obtain ⟨hroot, hwritten⟩ := wellFormed_of_hasNode h .root
  exact hroot.restored fun w hw => (hwritten w hw).restored

end

/-- **What is written of a parsed tree is enough to rebuild it**, where every character stands for itself. -/
theorem ofJson?_write {dialect : Dialect} {content : List Char} {t : Tree}
    (h : parse dialect content = .ok t) (indent : Option Nat) :
    Tree.ofJson? .unicode (Json.write indent t.toValue).toList = some t := by
  have hunpaired : t.Unpaired .unicode := fun _ _ s _ => Text.Alphabet.unpaired_unicode s
  have hrebuilt := (restored_of_parse (a := .unicode) h).ofJson? indent
  rwa [t.joined_eq_self_iff.2 hunpaired] at hrebuilt

/-- **The export of a parsed tree loses nothing but the difference between a pair of halves and the code
point that they write together.** Each of its nodes is exported entry by entry, with different keys that
are written as different names. Whatever its characters stand for, the tree is rebuilt from its JSON text
with its pairs of halves joined, which changes nothing exactly if there are none. And a tree parsed from
any hash, in any dialect, whose JSON text is the same is the same tree with joined pairs, so it is the same
tree if neither of the two has a pair. -/
theorem parse_export_restores (a : Text.Alphabet) {dialect : Dialect} {content : List Char} {t : Tree}
    (h : parse dialect content = .ok t) :
    (∀ u, t.HasNode u → u.toValue = .map u.exportEntries ∧ (u.exportEntries.map Prod.fst).Nodup ∧
        (u.exportEntries.map fun e => Json.fieldName e.1).Nodup) ∧
      (∀ indent, Tree.ofJson? a (Json.writeIn a indent t.toValue).toList = some (t.joined a)) ∧
      (t.joined a = t ↔ t.Unpaired a) ∧
      ∀ dialect' content' t', parse dialect' content' = .ok t' → ∀ indent indent',
        Json.writeIn a indent t.toValue = Json.writeIn a indent' t'.toValue →
          t.joined a = t'.joined a ∧ (t.Unpaired a → t'.Unpaired a → t = t') := by
  refine ⟨fun u hu => ?_, (restored_of_parse h).ofJson?, t.joined_eq_self_iff, ?_⟩
  · have hnames := (wellFormed_of_hasNode h hu).1.fieldNames
    exact ⟨toValue_eq_exportEntries hnames, nodup_keys_exportEntries hnames, hnames⟩
  · intro dialect' content' t' h' indent indent' htext
    have ht := (restored_of_parse (a := a) h).ofJson? indent
    rw [htext, (restored_of_parse h').ofJson? indent'] at ht
    have hjoined : t.joined a = t'.joined a := (Option.some.inj ht).symm
    refine ⟨hjoined, fun hunpaired hunpaired' => ?_⟩
    rwa [t.joined_eq_self_iff.2 hunpaired, t'.joined_eq_self_iff.2 hunpaired'] at hjoined

open Text.Alphabet (withHalves)

/-- A block without a variable, with a low half behind a character of two units and a high half alone. -/
def exportedHash : List Char := "\x7b \u00e9 \x7b 𝒜\ue600 @type a|b $x \ue03d \x7d \x7d".toList

/-- The same hash with other space in it. -/
def respacedHash : List Char := "\x7b \u00e9\n\x7b 𝒜\ue600  @type a|b $x \ue03d \x7d\x7d".toList

/-- The tree of both hashes. -/
def exportedTree : Tree :=
  .node ['\u00e9'] defaultTypes [(.index 0, .node ['𝒜', '\ue600'] defaultTypes
    [(.name "$x".toList, .node ['\ue03d'] [['a'], ['b']] [])])]

theorem unpaired_exportedTree : exportedTree.Unpaired withHalves := by
  refine Tree.unpaired_iff.2 ⟨by decide +kernel, List.forall_mem_singleton.2 ?_⟩
  refine Tree.unpaired_iff.2 ⟨by decide +kernel, List.forall_mem_singleton.2 ?_⟩
  exact Tree.unpaired_iff.2 ⟨by decide +kernel, fun w hw => absurd hw List.not_mem_nil⟩

/-- The tree of the first hash is rebuilt from its JSON text, and it is the tree of the second hash, because
the JSON text is the same and no halves stand side by side. -/
theorem parse_export_restores_respaced :
    parse ⟨.standard, 3, true⟩ exportedHash = .ok exportedTree ∧
      Json.writeIn withHalves none exportedTree.toValue =
        "\x7b\"content\": \"\\u00e9\", \"types\": [\"array\"], \"0\": " ++
          "\x7b\"content\": \"\\ud835\\udc9c\\ude00\", \"types\": [\"array\"], \"$x\": " ++
          "\x7b\"content\": \"\\ud83d\", \"types\": [\"a\", \"b\"]\x7d\x7d\x7d" ∧
      (∀ indent, Tree.ofJson? withHalves (Json.writeIn withHalves indent exportedTree.toValue).toList =
        some exportedTree) ∧
      ∃ t, parse ⟨.standard, 2, false⟩ respacedHash = .ok t ∧
        Json.writeIn withHalves none exportedTree.toValue = Json.writeIn withHalves none t.toValue ∧
        exportedTree = t := by
  have hinner : unbrace exportedHash =
      .ok " \u00e9 \x7b 𝒜\ue600 @type a|b $x \ue03d \x7d ".toList := by decide +kernel
  have htokens : tokenize .standard " \u00e9 \x7b 𝒜\ue600 @type a|b $x \ue03d \x7d ".toList =
      [⟨.text, " \u00e9 ".toList, 0⟩, ⟨.opening, ['{'], 3⟩, ⟨.text, " 𝒜\ue600 ".toList, 4⟩,
        ⟨.marker, "type".toList, 8⟩, ⟨.text, " a|b $x \ue03d ".toList, 13⟩, ⟨.closing, ['}'], 23⟩,
        ⟨.text, " ".toList, 24⟩] := by decide +kernel
  have hparse : parse ⟨.standard, 3, true⟩ exportedHash = .ok exportedTree := by
    rw [parse_of_unbrace hinner, htokens]
    rfl
  have hinner' : unbrace respacedHash =
      .ok " \u00e9\n\x7b 𝒜\ue600  @type a|b $x \ue03d \x7d".toList := by decide +kernel
  have htokens' : tokenize .standard " \u00e9\n\x7b 𝒜\ue600  @type a|b $x \ue03d \x7d".toList =
      [⟨.text, " \u00e9\n".toList, 0⟩, ⟨.opening, ['{'], 3⟩, ⟨.text, " 𝒜\ue600  ".toList, 4⟩,
        ⟨.marker, "type".toList, 9⟩, ⟨.text, " a|b $x \ue03d ".toList, 14⟩, ⟨.closing, ['}'], 24⟩] := by
    decide +kernel
  have hparse' : parse ⟨.standard, 2, false⟩ respacedHash = .ok exportedTree := by
    rw [parse_of_unbrace hinner', htokens']
    rfl
  obtain ⟨-, hrebuilt, hunpaired, hsame⟩ := parse_export_restores withHalves hparse
  rw [hunpaired.2 unpaired_exportedTree] at hrebuilt
  exact ⟨hparse, by decide +kernel, hrebuilt, exportedTree, hparse', rfl,
    (hsame _ _ _ hparse' none none rfl).2 unpaired_exportedTree unpaired_exportedTree⟩

/-- A hash with the two halves of U+1F600 side by side. -/
def halvesHash : List Char := "\x7b \ue03d\ue600 \x7d".toList

/-- The tree of that hash. -/
def halvesTree : Tree := .node ['\ue03d', '\ue600'] defaultTypes []

/-- A hash with U+1F600. -/
def emojiHash : List Char := "\x7b 😀 \x7d".toList

/-- The tree of that hash. -/
def emojiTree : Tree := .node ['😀'] defaultTypes []

/-- Two halves side by side are lost: the trees of both hashes have the same JSON text, from which at most
one of them is rebuilt. -/
theorem parse_export_merges_halves :
    halvesHash.map withHalves.point = [0x7B, 0x20, 0xD83D, 0xDE00, 0x20, 0x7D] ∧
      emojiHash.map withHalves.point = [0x7B, 0x20, 0x1F600, 0x20, 0x7D] ∧
      parse ⟨.standard, 3, true⟩ halvesHash = .ok halvesTree ∧
      parse ⟨.standard, 3, true⟩ emojiHash = .ok emojiTree ∧
      (∀ t ∈ [halvesTree, emojiTree], Json.writeIn withHalves none t.toValue =
        "\x7b\"content\": \"\\ud83d\\ude00\", \"types\": [\"array\"]\x7d") ∧
      halvesTree ≠ emojiTree ∧
      ∀ rebuild : String → Option Tree,
        ¬∀ t ∈ [halvesTree, emojiTree], rebuild (Json.writeIn withHalves none t.toValue) = some t := by
  have hhalves : parse ⟨.standard, 3, true⟩ halvesHash = .ok halvesTree := by
    have hinner : unbrace halvesHash = .ok " \ue03d\ue600 ".toList := by decide +kernel
    have htokens : tokenize .standard " \ue03d\ue600 ".toList =
        [⟨.text, " \ue03d\ue600 ".toList, 0⟩] := by decide +kernel
    rw [parse_of_unbrace hinner, htokens]
    rfl
  have hemoji : parse ⟨.standard, 3, true⟩ emojiHash = .ok emojiTree := by
    have hinner : unbrace emojiHash = .ok " 😀 ".toList := by decide +kernel
    have htokens : tokenize .standard " 😀 ".toList = [⟨.text, " 😀 ".toList, 0⟩] := by decide +kernel
    rw [parse_of_unbrace hinner, htokens]
    rfl
  have htexts : ∀ t ∈ [halvesTree, emojiTree], Json.writeIn withHalves none t.toValue =
      "\x7b\"content\": \"\\ud83d\\ude00\", \"types\": [\"array\"]\x7d" := by
    rw [List.forall_mem_cons, List.forall_mem_singleton]
    decide +kernel
  have hne : halvesTree ≠ emojiTree := by
    intro h
    cases h
  refine ⟨by decide +kernel, by decide +kernel, hhalves, hemoji, htexts, hne, fun rebuild h => hne ?_⟩
  have hfirst := h halvesTree (by simp)
  have hsecond := h emojiTree (by simp)
  rw [htexts _ (by simp)] at hfirst hsecond
  exact Option.some.inj (hfirst.symm.trans hsecond)

end DocTree.Hash
