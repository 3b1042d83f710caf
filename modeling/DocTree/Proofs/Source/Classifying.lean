import DocTree.Proofs.Fault
import DocTree.Source.Classify

/-!
# What stops classification

Classification treats the doc comments of a document one after another (`docblocks`) and stops at the
first one that it cannot classify (`fault?_classify`). It can stop in two ways: at an annotation that
is not one, and at annotations that are a single thing without items, such as a number. `Stuck` says
of a document alone that the second comes first, and `classify_eq_noItems_iff` that it is so.
-/

namespace DocTree

/-! ## The doc comments of a document -/

mutual

/-- The doc comments of a document, in order, without those inside other ones. -/
def docblocks : Value → List Entries
  | .scalar _ => []
  | .list items => docblocksOfItems items
  | .map es => docblocksOfEntries es

/-- The doc comments of the items of a list. -/
def docblocksOfItems : List Value → List Entries
  | [] => []
  | v :: rest => docblocks v ++ docblocksOfItems rest

/-- The doc comments of the entries of a mapping. -/
def docblocksOfEntries : List (Scalar × Value) → List Entries
  | [] => []
  | (k, v) :: rest =>
    (match k, v with
      | .str "docblock", .map es => [es]
      | _, v => docblocks v) ++ docblocksOfEntries rest

end

/-- The fault of the first doc comment that cannot be classified. -/
def firstFault? (r : Registry) (ds : List Entries) : Option ClassifyError :=
  ds.findSome? fun es => fault? (classifyDocblock r es)

theorem firstFault?_append (r : Registry) (ds es : List Entries) :
    firstFault? r (ds ++ es) = (firstFault? r ds).or (firstFault? r es) :=
  List.findSome?_append

mutual

/-- **Classification stops at the first doc comment that it cannot classify**, and at nothing else. -/
theorem fault?_classify (r : Registry) :
    ∀ v, fault? (classify r v) = firstFault? r (docblocks v)
  | .scalar s => by rw [classify, docblocks]; rfl
  | .list items => by
    rw [classify, docblocks, fault?_bind_pure, fault?_classifyItems r items]
  | .map es => by
    rw [classify, docblocks, fault?_bind_pure, fault?_classifyEntries r es]

theorem fault?_classifyItems (r : Registry) :
    ∀ items, fault? (classifyItems r items) = firstFault? r (docblocksOfItems items)
  | [] => by rw [classifyItems, docblocksOfItems]; rfl
  | v :: rest => by
    have hrest : ∀ w, fault? (classifyItems r rest >>= fun ws => pure (w :: ws)) =
        firstFault? r (docblocksOfItems rest) := by
      intro w
      rw [fault?_bind_pure, fault?_classifyItems r rest]
    rw [classifyItems, docblocksOfItems, firstFault?_append, ← fault?_classify r v]
    exact fault?_bind hrest

theorem fault?_classifyEntries (r : Registry) :
    ∀ es, fault? (classifyEntries r es) = firstFault? r (docblocksOfEntries es)
  | [] => by rw [classifyEntries, docblocksOfEntries]; rfl
  | (k, v) :: rest => by
    have hrest : ∀ w, fault? (classifyEntries r rest >>= fun ws => pure ((k, w) :: ws)) =
        firstFault? r (docblocksOfEntries rest) := by
      intro w
      rw [fault?_bind_pure, fault?_classifyEntries r rest]
    rw [classifyEntries.eq_def, docblocksOfEntries.eq_def, firstFault?_append]
    -- a doc comment is classified as a whole, any other value is searched for doc comments
    show fault? (match k, v with
      | .str "docblock", .map es => classifyDocblock r es >>= _
      | _, v => classify r v >>= _) = _
    split
    · next es =>
      have hone : firstFault? r [es] = fault? (classifyDocblock r es) := List.findSome?_singleton
      rw [fault?_bind hrest, ← hone]
    · rw [fault?_bind hrest, fault?_classify r v]

end

/-! ## Annotations without items -/

/-- The value is neither empty nor absent, and it has no items. -/
def lacksItems (v : Value) : Bool :=
  v.truthy && match v with
    | .str _ | .list _ | .map _ => false
    | _ => true

/-- What stands for a list of annotations has items unless it is a single thing without any. -/
theorem fault?_tagItems (v : Value) :
    fault? (tagItems v) = if lacksItems v then some .noItems else none := by
  unfold tagItems lacksItems
  cases v.truthy with
  | false => rfl
  | true =>
    rcases v with (_ | _ | _ | _ | _ | _) | _ | _ <;> rfl

/-- An annotation is classified, or it is not one. -/
theorem fault?_classifyTag_ne (r : Registry) (v : Value) :
    fault? (classifyTag r v) ≠ some .noItems := by
  unfold classifyTag
  split
  · split
    · split
      · intro h
        cases h
      · intro h
        cases h
    · intro h
      cases h
  · intro h
    cases h

/-- The annotations of a doc comment, as they are given. -/
def givenTags (es : Entries) : Value := (es.get? "tags").getD .null

theorem classifyDocblock_eq_noItems_iff {r : Registry} {es : Entries} :
    classifyDocblock r es = .error .noItems ↔ lacksItems (givenTags es) = true := by
  have hitems := fault?_tagItems (givenTags es)
  rw [← fault?_eq_some_iff, classifyDocblock]
  show fault? (tagItems (givenTags es) >>= _) = _ ↔ _
  cases h : tagItems (givenTags es) with
  | error e =>
    rw [h, fault?] at hitems
    by_cases hlacks : lacksItems (givenTags es) = true
    · rw [if_pos hlacks] at hitems
      exact ⟨fun _ => hlacks, fun _ => hitems⟩
    · rw [if_neg hlacks] at hitems
      cases hitems
  | ok items =>
    have hlacks : ¬lacksItems (givenTags es) = true := by
      intro hlacks
      rw [h, if_pos hlacks] at hitems
      cases hitems
    -- there are items, and none of them can fault for want of items
    refine ⟨fun hfault => absurd hfault ?_, fun h => absurd h hlacks⟩
    show ¬fault? (items.mapM (classifyTag r) >>= fun tags => pure _) = _
    rw [fault?_bind_pure, fault?_mapM, List.findSome?_eq_some_iff]
    rintro ⟨_, v, _, -, hfault, -⟩
    exact fault?_classifyTag_ne r v hfault

/-- The first doc comment that cannot be classified has annotations without items. -/
def Stuck (r : Registry) (v : Value) : Prop :=
  ∃ before es after, docblocks v = before ++ es :: after ∧
    (∀ d ∈ before, ∃ w, classifyDocblock r d = .ok w) ∧ lacksItems (givenTags es) = true

/-- **Classification finds no items exactly in the documents in which it gets stuck.** -/
theorem classify_eq_noItems_iff {r : Registry} {v : Value} :
    classify r v = .error .noItems ↔ Stuck r v := by
  rw [← fault?_eq_some_iff, fault?_classify, firstFault?, List.findSome?_eq_some_iff]
  simp only [fault?_eq_some_iff, fault?_eq_none_iff, classifyDocblock_eq_noItems_iff, Stuck]
  constructor
  · rintro ⟨before, es, after, hsplit, hes, hbefore⟩
    exact ⟨before, es, after, hsplit, hbefore, hes⟩
  · rintro ⟨before, es, after, hsplit, hbefore, hes⟩
    exact ⟨before, es, after, hsplit, hes, hbefore⟩

end DocTree
