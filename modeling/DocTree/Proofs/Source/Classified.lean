import DocTree.Proofs.Source.Classifying

/-!
# Classified documents

Classification works part by part: items and entries stay where they are, keys and scalars are as they
were (`classifyItems_eq_ok_iff`, `classifyEntries_cons_eq_ok_iff`), and of a doc comment only the
annotations change. The doc comments of the outcome are those of the document, each classified on its
own (`docblocks_of_classify`).

An annotation is replaced only if it is raw (`IsRaw`), and what replaces it is not raw any more. So what
comes out has no raw annotations (`Classified`), and a document without them is left alone by every
registry (`classify_eq_self_iff`): classifying a classified document again changes nothing
(`classify_twice`).
-/

namespace DocTree

/-! ## Annotations -/

/-- An annotation without a kind, but with a name. -/
def IsRaw (v : Value) (es : Entries) (name : Value) : Prop :=
  v = .map es ∧ es.get? "kind" = none ∧ es.get? "name" = some name

variable {r q : Registry}

/-- An annotation that is not raw is left alone. -/
theorem classifyTag_of_not_raw {v : Value} (h : ∀ es name, ¬IsRaw v es name) :
    classifyTag r v = .ok v := by
  unfold classifyTag
  split
  · next es =>
    split
    · next name hkind hname => exact absurd ⟨rfl, hkind, hname⟩ (h es name)
    · rfl
  · rfl

/-- **A raw annotation becomes what is built from its name and its text**, any other one stays as it
is. -/
theorem classifyTag_eq_ok_iff {v w : Value} : classifyTag r v = .ok w ↔
    (∃ es name t, IsRaw v es name ∧ Tag.build r name.display (rawText es) = .ok t ∧ w = t.toValue) ∨
      (∀ es name, ¬IsRaw v es name) ∧ w = v := by
  constructor
  · intro h
    by_cases hraw : ∃ es name, IsRaw v es name
    · obtain ⟨es, name, rfl, hkind, hname⟩ := hraw
      simp only [classifyTag, hkind, hname] at h
      split at h
      · next t ht => exact .inl ⟨es, name, t, ⟨rfl, hkind, hname⟩, ht, (Except.ok.inj h).symm⟩
      · cases h
    · have hnot : ∀ es name, ¬IsRaw v es name := fun es name hv => hraw ⟨es, name, hv⟩
      exact .inr ⟨hnot, Except.ok.inj (h.symm.trans (classifyTag_of_not_raw hnot))⟩
  · rintro (⟨es, name, t, ⟨rfl, hkind, hname⟩, ht, rfl⟩ | ⟨hnot, rfl⟩)
    · simp only [classifyTag, hkind, hname, ht]
    · exact classifyTag_of_not_raw hnot

/-- A typed annotation has a kind. -/
theorem not_isRaw_toValue (t : Tag) (es : Entries) (name : Value) : ¬IsRaw t.toValue es name := by
  rintro ⟨hes, hkind, -⟩
  obtain rfl := Value.map.inj hes
  cases hkind

/-- What stands in the place of an annotation is not raw. -/
theorem not_isRaw_of_classifyTag {v w : Value} (h : classifyTag r v = .ok w) (es : Entries)
    (name : Value) : ¬IsRaw w es name := by
  rcases classifyTag_eq_ok_iff.1 h with ⟨_, _, t, -, -, rfl⟩ | ⟨hnot, rfl⟩
  · exact not_isRaw_toValue t es name
  · exact hnot es name

/-! ## Doc comments -/

theorem classifyDocblock_eq_ok_iff {es : Entries} {w : Value} :
    classifyDocblock r es = .ok w ↔ ∃ items tags, tagItems (givenTags es) = .ok items ∧
      List.Forall₂ (fun v t => classifyTag r v = .ok t) items tags ∧
      w = .map (es.put "tags" (.list tags)) := by
  show (tagItems (givenTags es) >>= fun items => items.mapM (classifyTag r) >>= fun tags =>
    pure (Value.map (es.put "tags" (.list tags)))) = _ ↔ _
  simp only [bind_eq_ok_iff, mapM_eq_ok_iff]
  constructor
  · rintro ⟨items, hitems, tags, htags, hw⟩
    exact ⟨items, tags, hitems, htags, (Except.ok.inj hw).symm⟩
  · rintro ⟨items, tags, hitems, htags, rfl⟩
    exact ⟨items, hitems, tags, htags, rfl⟩

/-- A list of annotations is taken as it is. -/
theorem tagItems_list (items : List Value) : tagItems (.list items) = .ok items := by
  cases items with
  | nil => rfl
  | cons v rest => rfl

/-- The doc comment lists its annotations, and none of them is raw. -/
def Typed (es : Entries) : Prop :=
  ∃ tags, es.get? "tags" = some (.list tags) ∧ ∀ t ∈ tags, ∀ fs name, ¬IsRaw t fs name

/-- What a doc comment is classified as lists its annotations, and none of them is raw. -/
theorem typed_of_classifyDocblock {es : Entries} {w : Value} (h : classifyDocblock r es = .ok w) :
    ∃ fs, w = .map fs ∧ Typed fs := by
  obtain ⟨items, tags, -, htags, rfl⟩ := classifyDocblock_eq_ok_iff.1 h
  exact ⟨_, rfl, tags, Entries.get?_put ..,
    forall_mem_of_forall₂ (fun _ _ htag => not_isRaw_of_classifyTag htag) htags⟩

/-- The doc comments that are classified as they are. -/
theorem classifyDocblock_eq_self_iff {es : Entries} :
    classifyDocblock q es = .ok (.map es) ↔ Typed es := by
  constructor
  · intro h
    obtain ⟨fs, hfs, htyped⟩ := typed_of_classifyDocblock h
    rwa [Value.map.inj hfs]
  · rintro ⟨tags, htags, hnot⟩
    refine classifyDocblock_eq_ok_iff.2 ⟨tags, tags, ?_, ?_, ?_⟩
    · rw [givenTags, htags, Option.getD_some, tagItems_list]
    · exact List.forall₂_same.2 fun t ht => classifyTag_of_not_raw (hnot t ht)
    · rw [Entries.put_self htags]

/-! ## Documents -/

/-- A doc comment is a mapping under a key of its own. -/
def IsDocblock (k : Scalar) (v : Value) : Prop := ∃ es, k = .str "docblock" ∧ v = .map es

/-- What is made of the value under a key, where doc comments are told from anything else. -/
def underKey {α : Type} (doc : Entries → α) (other : Value → α) (k : Scalar) (v : Value) : α :=
  match k, v with
  | .str "docblock", .map es => doc es
  | _, v => other v

theorem underKey_of_not_isDocblock {α : Type} {doc : Entries → α} {other : Value → α} {k : Scalar}
    {v : Value} (h : ¬IsDocblock k v) : underKey doc other k v = other v := by
  unfold underKey
  split
  · next es => exact absurd ⟨es, rfl, rfl⟩ h
  · rfl

theorem classify_list_eq_ok_iff {items : List Value} {w : Value} :
    classify r (.list items) = .ok w ↔ ∃ ws, classifyItems r items = .ok ws ∧ w = .list ws := by
  rw [classify, bind_eq_ok_iff]
  refine exists_congr fun ws => and_congr_right fun _ => ?_
  exact ⟨fun h => (Except.ok.inj h).symm, fun h => h ▸ rfl⟩

theorem classify_map_eq_ok_iff {es : Entries} {w : Value} :
    classify r (.map es) = .ok w ↔ ∃ fs, classifyEntries r es = .ok fs ∧ w = .map fs := by
  rw [classify, bind_eq_ok_iff]
  refine exists_congr fun fs => and_congr_right fun _ => ?_
  exact ⟨fun h => (Except.ok.inj h).symm, fun h => h ▸ rfl⟩

/-- Items are classified each on its own. -/
theorem classifyItems_eq_mapM (r : Registry) (items : List Value) :
    classifyItems r items = items.mapM (classify r) := by
  induction items with
  | nil => rfl
  | cons v rest ih => rw [classifyItems, List.mapM_cons, ih]

theorem classifyItems_eq_ok_iff {items ws : List Value} :
    classifyItems r items = .ok ws ↔ List.Forall₂ (fun v w => classify r v = .ok w) items ws := by
  rw [classifyItems_eq_mapM, mapM_eq_ok_iff]

theorem classifyEntries_cons_eq_ok_iff {k : Scalar} {v : Value} {rest fs : Entries} :
    classifyEntries r ((k, v) :: rest) = .ok fs ↔
      ∃ w, underKey (classifyDocblock r) (classify r) k v = .ok w ∧
        ∃ ws, classifyEntries r rest = .ok ws ∧ fs = (k, w) :: ws := by
  have hcons : classifyEntries r ((k, v) :: rest) =
      underKey (classifyDocblock r) (classify r) k v >>= fun w =>
        classifyEntries r rest >>= fun ws => pure ((k, w) :: ws) := by
    rw [classifyEntries.eq_def]
    dsimp only
    split
    · rfl
    · next hno =>
      rw [underKey_of_not_isDocblock]
      rintro ⟨es, hk, hv⟩
      exact hno es hk hv
  simp only [hcons, bind_eq_ok_iff]
  refine exists_congr fun w => and_congr_right fun _ => exists_congr fun ws => and_congr_right fun _ => ?_
  exact ⟨fun h => (Except.ok.inj h).symm, fun h => h ▸ rfl⟩

/-- What is a scalar afterwards was that scalar before. -/
theorem eq_of_classify_eq_scalar {v : Value} {s : Scalar} (h : classify r v = .ok (.scalar s)) :
    v = .scalar s := by
  cases v with
  | scalar t =>
    rw [classify] at h
    exact Except.ok.inj h
  | list items =>
    obtain ⟨ws, -, hw⟩ := classify_list_eq_ok_iff.1 h
    cases hw
  | map es =>
    obtain ⟨fs, -, hw⟩ := classify_map_eq_ok_iff.1 h
    cases hw

/-- What is a mapping afterwards was a mapping before. -/
theorem exists_of_classify_eq_map {v : Value} {fs : Entries} (h : classify r v = .ok (.map fs)) :
    ∃ es, v = .map es := by
  cases v with
  | scalar t =>
    rw [classify] at h
    cases h
  | list items =>
    obtain ⟨ws, -, hw⟩ := classify_list_eq_ok_iff.1 h
    cases hw
  | map es => exact ⟨es, rfl⟩

/-- No value becomes a doc comment. -/
theorem isDocblock_of_classify {k : Scalar} {v w : Value} (h : classify r v = .ok w)
    (hdoc : IsDocblock k w) : IsDocblock k v := by
  obtain ⟨fs, hk, rfl⟩ := hdoc
  obtain ⟨es, rfl⟩ := exists_of_classify_eq_map h
  exact ⟨es, hk, rfl⟩

theorem eq_of_underKey_eq_scalar {k : Scalar} {v : Value} {s : Scalar}
    (h : underKey (classifyDocblock r) (classify r) k v = .ok (.scalar s)) : v = .scalar s := by
  by_cases hdoc : IsDocblock k v
  · obtain ⟨es, rfl, rfl⟩ := hdoc
    obtain ⟨items, tags, -, -, hw⟩ := classifyDocblock_eq_ok_iff.1 h
    cases hw
  · rw [underKey_of_not_isDocblock hdoc] at h
    exact eq_of_classify_eq_scalar h

/-- A scalar under a name was there before. -/
theorem get?_of_classifyEntries {es fs : Entries} {name : String} {s : Scalar}
    (h : classifyEntries r es = .ok fs) (hs : fs.get? name = some (.scalar s)) :
    es.get? name = some (.scalar s) := by
  induction es generalizing fs with
  | nil =>
    rw [classifyEntries] at h
    obtain rfl := Except.ok.inj h
    cases hs
  | cons e rest ih =>
    obtain ⟨w, hw, ws, hws, rfl⟩ := classifyEntries_cons_eq_ok_iff.1 h
    rw [Entries.get?, Entries.find?] at hs ⊢
    split at hs
    · next hkey =>
      rw [Option.some.inj hs] at hw
      rw [if_pos hkey, eq_of_underKey_eq_scalar hw]
    · next hkey =>
      rw [if_neg hkey]
      exact ih hws hs

/-! ## The doc comments of what is classified -/

theorem docblocksOfEntries_cons (k : Scalar) (v : Value) (rest : Entries) :
    docblocksOfEntries ((k, v) :: rest) =
      underKey (fun es => [es]) docblocks k v ++ docblocksOfEntries rest := by
  rw [docblocksOfEntries.eq_def]
  rfl

mutual

/-- **The doc comments of a classified document are those of the document**, each classified on its
own. -/
theorem docblocks_of_classify : ∀ {v w : Value}, classify r v = .ok w →
    List.Forall₂ (fun es fs => classifyDocblock r es = .ok (.map fs)) (docblocks v) (docblocks w)
  | .scalar s, w, h => by
    rw [classify] at h
    obtain rfl := Except.ok.inj h
    rw [docblocks]
    exact .nil
  | .list items, w, h => by
    obtain ⟨ws, hws, rfl⟩ := classify_list_eq_ok_iff.1 h
    rw [docblocks, docblocks]
    exact docblocks_of_classifyItems hws
  | .map es, w, h => by
    obtain ⟨fs, hfs, rfl⟩ := classify_map_eq_ok_iff.1 h
    rw [docblocks, docblocks]
    exact docblocks_of_classifyEntries hfs

theorem docblocks_of_classifyItems : ∀ {items ws : List Value}, classifyItems r items = .ok ws →
    List.Forall₂ (fun es fs => classifyDocblock r es = .ok (.map fs)) (docblocksOfItems items)
      (docblocksOfItems ws)
  | [], ws, h => by
    rw [classifyItems] at h
    obtain rfl := Except.ok.inj h
    rw [docblocksOfItems]
    exact .nil
  | v :: rest, ws, h => by
    obtain ⟨w, us, hw, hus, rfl⟩ := List.forall₂_cons_left_iff.1 (classifyItems_eq_ok_iff.1 h)
    rw [docblocksOfItems, docblocksOfItems]
    exact List.rel_append (docblocks_of_classify hw)
      (docblocks_of_classifyItems (classifyItems_eq_ok_iff.2 hus))

theorem docblocks_of_classifyEntries : ∀ {es fs : Entries}, classifyEntries r es = .ok fs →
    List.Forall₂ (fun es fs => classifyDocblock r es = .ok (.map fs)) (docblocksOfEntries es)
      (docblocksOfEntries fs)
  | [], fs, h => by
    rw [classifyEntries] at h
    obtain rfl := Except.ok.inj h
    rw [docblocksOfEntries]
    exact .nil
  | (k, v) :: rest, fs, h => by
    obtain ⟨w, hw, ws, hws, rfl⟩ := classifyEntries_cons_eq_ok_iff.1 h
    rw [docblocksOfEntries_cons, docblocksOfEntries_cons]
    refine List.rel_append ?_ (docblocks_of_classifyEntries hws)
    by_cases hdoc : IsDocblock k v
    · obtain ⟨es, rfl, rfl⟩ := hdoc
      obtain ⟨fs, rfl, -⟩ := typed_of_classifyDocblock hw
      exact .cons hw .nil
    · rw [underKey_of_not_isDocblock hdoc] at hw
      rw [underKey_of_not_isDocblock hdoc,
        underKey_of_not_isDocblock (mt (isDocblock_of_classify hw) hdoc)]
      exact docblocks_of_classify hw

end

/-! ## Classifying again -/

mutual

/-- A document is left alone if each of its doc comments is. -/
theorem classify_eq_self : ∀ {w : Value},
    (∀ fs ∈ docblocks w, classifyDocblock q fs = .ok (.map fs)) → classify q w = .ok w
  | .scalar s, _ => by rw [classify]
  | .list items, h => by
    rw [docblocks] at h
    exact classify_list_eq_ok_iff.2 ⟨items, classifyItems_eq_self h, rfl⟩
  | .map es, h => by
    rw [docblocks] at h
    exact classify_map_eq_ok_iff.2 ⟨es, classifyEntries_eq_self h, rfl⟩

theorem classifyItems_eq_self : ∀ {ws : List Value},
    (∀ fs ∈ docblocksOfItems ws, classifyDocblock q fs = .ok (.map fs)) →
      classifyItems q ws = .ok ws
  | [], _ => by rw [classifyItems]
  | w :: rest, h => by
    rw [docblocksOfItems, List.forall_mem_append] at h
    exact classifyItems_eq_ok_iff.2
      (.cons (classify_eq_self h.1) (classifyItems_eq_ok_iff.1 (classifyItems_eq_self h.2)))

theorem classifyEntries_eq_self : ∀ {fs : Entries},
    (∀ es ∈ docblocksOfEntries fs, classifyDocblock q es = .ok (.map es)) →
      classifyEntries q fs = .ok fs
  | [], _ => by rw [classifyEntries]
  | (k, w) :: rest, h => by
    rw [docblocksOfEntries_cons, List.forall_mem_append] at h
    obtain ⟨hfirst, hrest⟩ := h
    refine classifyEntries_cons_eq_ok_iff.2 ⟨w, ?_, rest, classifyEntries_eq_self hrest, rfl⟩
    by_cases hdoc : IsDocblock k w
    · obtain ⟨es, rfl, rfl⟩ := hdoc
      exact hfirst es List.mem_cons_self
    · rw [underKey_of_not_isDocblock hdoc] at hfirst ⊢
      exact classify_eq_self hfirst

end

/-- Every doc comment of the document lists its annotations, and none of them is raw. -/
def Classified (w : Value) : Prop := ∀ fs ∈ docblocks w, Typed fs

/-- **The documents that are left alone are the classified ones**, whichever registry is asked. -/
theorem classify_eq_self_iff {w : Value} : classify q w = .ok w ↔ Classified w := by
  constructor
  · intro h fs hfs
    exact classifyDocblock_eq_self_iff.1 (List.forall₂_same.1 (docblocks_of_classify h) fs hfs)
  · exact fun h => classify_eq_self fun fs hfs => classifyDocblock_eq_self_iff.2 (h fs hfs)

/-- What comes out of classification is classified. -/
theorem classified_of_classify {v w : Value} (h : classify r v = .ok w) : Classified w := by
  refine forall_mem_of_forall₂ (fun es fs hfs => ?_) (docblocks_of_classify h)
  obtain ⟨gs, hgs, htyped⟩ := typed_of_classifyDocblock hfs
  rwa [Value.map.inj hgs]

theorem classifyItems_classified {items ws : List Value} (h : classifyItems r items = .ok ws) :
    classifyItems q ws = .ok ws := by
  have hlist := classified_of_classify (classify_list_eq_ok_iff.2 ⟨ws, h, rfl⟩)
  obtain ⟨us, hus, hws⟩ := classify_list_eq_ok_iff.1 (classify_eq_self_iff.2 hlist)
  obtain rfl := Value.list.inj hws
  exact hus

/-- **Classifying twice is classifying once**, whichever two registries are asked. What comes out of
classification has no raw annotations, and so it is left alone, as a whole and, if it is a list, item by
item. -/
theorem classify_twice {v w : Value} (h : classify r v = .ok w) :
    Classified w ∧ (∀ q, classify q w = .ok w) ∧
      ∀ ws, w = .list ws → ∀ q, ∀ x ∈ ws, classify q x = .ok x := by
  refine ⟨classified_of_classify h, fun q => classify_eq_self_iff.2 (classified_of_classify h), ?_⟩
  rintro ws rfl q x hx
  obtain ⟨us, hus, hws⟩ :=
    classify_list_eq_ok_iff.1 (classify_eq_self_iff (q := q).2 (classified_of_classify h))
  obtain rfl := Value.list.inj hws
  exact List.forall₂_same.1 (classifyItems_eq_ok_iff.1 hus) x hx

/-- A file with doc comments. One has annotations of every sort, the other is a mapping that has a doc
comment inside. -/
def rawDump : Value :=
  .list [.record [("path", .str "a.php"),
    ("docblock", .record [
      ("tags", .list [
        .record [("name", .str "@Param"), ("text", .str "int $n Count.")],
        .record [("kind", .str "plain"), ("name", .str "todo")],
        .record [("name", .str "since"), ("text", .null), ("content", .str "1.0")],
        .str "loose"]),
      ("short_description", .str "Adds.")]),
    ("hooks", .list [
      .record [("name", .str "init"),
        ("docblock", .record [("docblock", .record [("tags", .int 5)])])]])]]

/-- What the file is classified as. -/
def typedDump : Value :=
  .list [.record [("path", .str "a.php"),
    ("docblock", .record [
      ("tags", .list [
        .record [("kind", .str "variable"), ("name", .str "Param"), ("content", .str "Count."),
          ("types", .strs ["int"]), ("variable", .str "$n")],
        .record [("kind", .str "plain"), ("name", .str "todo")],
        .record [("kind", .str "version"), ("name", .str "since"), ("content", .str ""),
          ("version", .str "")],
        .str "loose"]),
      ("short_description", .str "Adds.")]),
    ("hooks", .list [
      .record [("name", .str "init"),
        ("docblock", .record [("docblock", .record [("tags", .int 5)]), ("tags", .list [])])]])]]

theorem classify_rawDump : classify .standard rawDump = .ok typedDump := by decide +kernel

theorem classify_twice_rawDump : classify .standard rawDump = .ok typedDump ∧
    Classified typedDump ∧ (∀ q, classify q typedDump = .ok typedDump) ∧
      ∀ ws, typedDump = .list ws → ∀ q, ∀ x ∈ ws, classify q x = .ok x :=
  ⟨classify_rawDump, classify_twice classify_rawDump⟩

end DocTree
