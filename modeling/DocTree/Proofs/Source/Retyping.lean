import DocTree.Proofs.Source.Classified
import DocTree.Proofs.Source.Stability
import DocTree.Proofs.Tag.Building

/-!
# What classification changes

Classification changes nothing in a document but the annotations of its doc comments: blanked out
(`blankTags`), the outcome is the document (`blankTags_of_classify`). Each doc comment keeps its
annotations one by one, but for the raw ones (`TypedFrom`). In the place of a raw annotation stands what
is built from its name and its text. It has the kind that the registry gives to the name, and a doc
comment that is read with it has it again (`ReadsAs`), because what is built passes the check of its kind
(`Tag.check_of_build`).
-/

namespace DocTree

open Schema Checked

/-! ## Everything but the annotations -/

mutual

/-- A document with nothing under the annotations of its doc comments. -/
def blankTags : Value → Value
  | .scalar s => .scalar s
  | .list items => .list (blankTagsOfItems items)
  | .map es => .map (blankTagsOfEntries es)

/-- Items with nothing under the annotations of their doc comments. -/
def blankTagsOfItems : List Value → List Value
  | [] => []
  | v :: rest => blankTags v :: blankTagsOfItems rest

/-- Entries with nothing under the annotations of their doc comments. -/
def blankTagsOfEntries : List (Scalar × Value) → List (Scalar × Value)
  | [] => []
  | (k, v) :: rest =>
    (k, match k, v with
      | .str "docblock", .map es => .map (Entries.put "tags" .null es)
      | _, v => blankTags v) :: blankTagsOfEntries rest

end

theorem blankTagsOfEntries_cons (k : Scalar) (v : Value) (rest : Entries) :
    blankTagsOfEntries ((k, v) :: rest) =
      (k, underKey (fun es => .map (es.put "tags" .null)) blankTags k v) ::
        blankTagsOfEntries rest := by
  rw [blankTagsOfEntries.eq_def]
  rfl

variable {r : Registry}

mutual

/-- **Classification changes nothing but the annotations of doc comments.** -/
theorem blankTags_of_classify : ∀ {v w : Value}, classify r v = .ok w → blankTags w = blankTags v
  | .scalar s, w, h => by
    rw [classify] at h
    obtain rfl := Except.ok.inj h
    rfl
  | .list items, w, h => by
    obtain ⟨ws, hws, rfl⟩ := classify_list_eq_ok_iff.1 h
    rw [blankTags, blankTags, blankTagsOfItems_of_classify hws]
  | .map es, w, h => by
    obtain ⟨fs, hfs, rfl⟩ := classify_map_eq_ok_iff.1 h
    rw [blankTags, blankTags, blankTagsOfEntries_of_classify hfs]

theorem blankTagsOfItems_of_classify : ∀ {items ws : List Value}, classifyItems r items = .ok ws →
    blankTagsOfItems ws = blankTagsOfItems items
  | [], ws, h => by
    rw [classifyItems] at h
    obtain rfl := Except.ok.inj h
    rfl
  | v :: rest, ws, h => by
    obtain ⟨w, us, hw, hus, rfl⟩ := List.forall₂_cons_left_iff.1 (classifyItems_eq_ok_iff.1 h)
    rw [blankTagsOfItems, blankTagsOfItems, blankTags_of_classify hw,
      blankTagsOfItems_of_classify (classifyItems_eq_ok_iff.2 hus)]

theorem blankTagsOfEntries_of_classify : ∀ {es fs : Entries}, classifyEntries r es = .ok fs →
    blankTagsOfEntries fs = blankTagsOfEntries es
  | [], fs, h => by
    rw [classifyEntries] at h
    obtain rfl := Except.ok.inj h
    rfl
  | (k, v) :: rest, fs, h => by
    obtain ⟨w, hw, ws, hws, rfl⟩ := classifyEntries_cons_eq_ok_iff.1 h
    rw [blankTagsOfEntries_cons, blankTagsOfEntries_cons, blankTagsOfEntries_of_classify hws]
    refine congrArg (fun u => (k, u) :: _) ?_
    by_cases hdoc : IsDocblock k v
    · obtain ⟨es, rfl, rfl⟩ := hdoc
      obtain ⟨items, tags, -, -, rfl⟩ := classifyDocblock_eq_ok_iff.1 hw
      exact congrArg Value.map (Entries.put_put ..)
    · rw [underKey_of_not_isDocblock hdoc] at hw
      rw [underKey_of_not_isDocblock hdoc,
        underKey_of_not_isDocblock (mt (isDocblock_of_classify hw) hdoc)]
      exact blankTags_of_classify hw

end

/-! ## Built annotations are read -/

/-- The document is read as the annotation: alone in a doc comment, and wherever it stands among the
annotations of a doc comment that is read. -/
structure ReadsAs (w : Value) (t : Tag) : Prop where
  alone : Docblock.check (.record [("tags", .list [w])]) = .ok ⟨"", "", [t]⟩
  among : ∀ es before after d, Entries.get? "tags" es = some (.list (before ++ w :: after)) →
    Docblock.check (.map es) = .ok d → d.tags[before.length]? = some t

theorem readsAs_of_check {w : Value} {t : Tag} (h : Tag.check w = .ok t) : ReadsAs w t where
  alone := by
    refine Docblock.check_eq_ok_iff.2 ⟨_, rfl, ?_, ?_, ?_⟩
    · exact field_eq_ok_iff.2 (.inr ⟨rfl, rfl⟩)
    · exact field_eq_ok_iff.2 (.inr ⟨rfl, rfl⟩)
    · exact field_eq_ok_iff.2 (.inl ⟨_, rfl, listOf_eq_ok_iff.2 ⟨_, rfl, .cons h .nil⟩⟩)
  among := by
    intro es before after d htags hd
    obtain ⟨fs, hes, -, -, hread⟩ := Docblock.check_eq_ok_iff.1 hd
    obtain rfl := Value.map.inj hes
    rcases field_eq_ok_iff.1 hread with ⟨v, hv, hlist⟩ | ⟨hnone, -⟩
    · obtain rfl := Option.some.inj (htags.symm.trans hv)
      obtain ⟨items, hitems, hall⟩ := listOf_eq_ok_iff.1 hlist
      obtain rfl := Value.list.inj hitems
      -- the annotations that are read stand where those that are written do
      have hrest := List.forall₂_drop before.length hall
      rw [List.drop_left, List.forall₂_cons_left_iff] at hrest
      obtain ⟨u, us, hu, -, hdrop⟩ := hrest
      obtain rfl := Checked.ok.inj (h.symm.trans hu)
      rw [← Nat.add_zero before.length, ← List.getElem?_drop, hdrop, List.getElem?_cons_zero]
    · rw [htags] at hnone
      cases hnone

/-- Types that are distinct are read as they are. -/
theorem field_typeList {es : Entries} {types : List String}
    (h : es.get? "types" = some (.strs types.eraseDups)) :
    field es "types" [] typeList = .ok types.eraseDups := by
  refine field_eq_ok_iff.2 (.inl ⟨_, h, ?_⟩)
  rw [typeList, listOf_text_strs, Checked.map, eraseDups_eraseDups]

theorem field_text {es : Entries} {name s : String} (h : es.get? name = some (.str s)) :
    field es name "" text = .ok s :=
  field_eq_ok_iff.2 (.inl ⟨_, h, rfl⟩)

/-- What the kind of an annotation takes from its text is read back. -/
theorem TagDetail.check_readText (kind : TagKind) (name content : String) (s : List Char) :
    TagDetail.check (fieldEntries (Tag.fields ⟨name, content, (Tag.readText kind s).2⟩)) kind =
      .ok (Tag.readText kind s).2 := by
  cases kind with
  | plain => rfl
  | typed => exact fmap_eq_ok_iff.2 ⟨_, field_typeList rfl, rfl⟩
  | binding =>
    rw [Tag.readText]
    dsimp only
    split
    · exact seq_eq_ok_iff.2 ⟨_, fmap_eq_ok_iff.2 ⟨_, field_typeList rfl, rfl⟩, _, field_text rfl, rfl⟩
    · rfl
  | reference => exact fmap_eq_ok_iff.2 ⟨_, field_text rfl, rfl⟩
  | version =>
    rw [Tag.readText]
    dsimp only
    split
    · exact fmap_eq_ok_iff.2 ⟨_, field_text rfl, rfl⟩
    · rfl

namespace Tag

/-- **What is built is read back** from what it is written as. -/
theorem check_of_build {name text : String} {t : Tag} (h : build r name text = .ok t) :
    check t.toValue = .ok t := by
  have hkind := kind_of_build h
  obtain ⟨hname, content, rfl⟩ := exists_of_build h
  refine check_toValue_of_checkAs (checkAs_eq_ok_iff.2 ⟨_, rfl, ?_, ?_, field_text rfl, ?_⟩)
  · exact field_eq_ok_iff.2 (.inl ⟨_, rfl, kindLiteral_name _⟩)
  · exact required_eq_ok_iff.2 ⟨_, rfl, nonEmptyText_eq_ok_iff.2 ⟨rfl, hname⟩⟩
  · rw [hkind]
    exact TagDetail.check_readText _ _ _ _

end Tag

/-! ## Annotation by annotation -/

/-- The text that is stated in an annotation, or else its content; nothing if that counts as nothing. -/
def statedText (es : Entries) : String :=
  (((es.get? "text").or (es.get? "content")).filter Value.truthy).elim "" Value.display

theorem rawText_eq_statedText (es : Entries) : rawText es = statedText es := by
  rw [rawText, statedText]
  cases es.get? "text" with
  | some v => cases h : v.truthy <;> simp [h, Option.filter]
  | none =>
    cases es.get? "content" with
    | some v => cases h : v.truthy <;> simp [h, Option.filter]
    | none => rfl

/-- What becomes of an annotation. It stays as it is, or it is raw and what is built from its name and
its text stands in its place. -/
inductive TypedFrom (r : Registry) : Value → Value → Prop where
  | kept {v : Value} (hraw : ∀ es name, ¬IsRaw v es name) : TypedFrom r v v
  | built {v : Value} {es : Entries} {name : Value} {t : Tag} (hraw : IsRaw v es name)
    (hbuild : Tag.build r name.display (statedText es) = .ok t)
    (hkind : t.kind = r.kindOf name.display) (hread : ReadsAs t.toValue t) :
    TypedFrom r v t.toValue

theorem typedFrom_of_classifyTag {v w : Value} (h : classifyTag r v = .ok w) : TypedFrom r v w := by
  rcases classifyTag_eq_ok_iff.1 h with ⟨es, name, t, hraw, hbuild, rfl⟩ | ⟨hnot, rfl⟩
  · have hread := readsAs_of_check (Tag.check_of_build hbuild)
    exact .built hraw (rawText_eq_statedText es ▸ hbuild) (Tag.kind_of_build hbuild) hread
  · exact .kept hnot

/-! ## Doc comment by doc comment -/

/-- What becomes of a doc comment. Only its annotations are written anew; if they were a list, each one
comes from the one that stood in its place. -/
def DocblockFrom (r : Registry) (es fs : Entries) : Prop :=
  ∃ tags, fs = es.put "tags" (.list tags) ∧
    ∀ items, es.get? "tags" = some (.list items) → List.Forall₂ (TypedFrom r) items tags

theorem docblockFrom_of_classifyDocblock {es fs : Entries}
    (h : classifyDocblock r es = .ok (.map fs)) : DocblockFrom r es fs := by
  obtain ⟨given, tags, hgiven, htags, hfs⟩ := classifyDocblock_eq_ok_iff.1 h
  refine ⟨tags, Value.map.inj hfs, fun items hitems => ?_⟩
  rw [givenTags, hitems, Option.getD_some, tagItems_list] at hgiven
  obtain rfl := Except.ok.inj hgiven
  exact htags.imp fun _ _ => typedFrom_of_classifyTag

/-- **Classification types the annotations of doc comments, and nothing else.** Apart from them the
outcome is the document. The doc comments of the outcome are those of the document, in their order, each
with its own annotations. -/
theorem classify_retypes {v w : Value} (h : classify r v = .ok w) :
    blankTags w = blankTags v ∧ List.Forall₂ (DocblockFrom r) (docblocks v) (docblocks w) :=
  ⟨blankTags_of_classify h,
    (docblocks_of_classify h).imp fun _ _ => docblockFrom_of_classifyDocblock⟩

theorem classify_retypes_rawDump : classify .standard rawDump = .ok typedDump ∧
    blankTags typedDump = blankTags rawDump ∧
      List.Forall₂ (DocblockFrom .standard) (docblocks rawDump) (docblocks typedDump) :=
  ⟨classify_rawDump, classify_retypes classify_rawDump⟩

end DocTree
