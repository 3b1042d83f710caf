import DocTree.Proofs.Hash.Children
import DocTree.Proofs.Log.Outcome
import DocTree.Record.Docblock
import DocTree.Tag.Build

/-!
# Line breaks in exported texts

The texts of an exported doc comment are its descriptions and the texts of its annotations, where the
text of an annotation may be a tree with a text at each node (`docTexts`). All of them are on one line,
with one exception: the version that stands in for the text of a `@since` is exported as it is. So the
texts of a doc comment are on one line exactly if these versions are (`docTexts_unbroken_iff`), and a
version with a line feed at its end is exported with it (`docTexts_broken_version`).

## Shape of the proof

A text comes from collapsing line breaks or from the words of a text. In a tree it is always the latter:
`Written.unbroken` follows what a hash writes, node by node. What exporting a tree adds to its mapping is
the texts of its children (`mem_texts_toValue`).
-/

namespace DocTree

open Text (isBlank isLineBreak words)

/-! ## Texts on one line -/

/-- A text without a line break. -/
def Text.Unbroken (s : List Char) : Prop := ∀ c ∈ s, isLineBreak c = false

namespace Text

theorem unbroken_nil : Unbroken [] := fun _ hc => absurd hc List.not_mem_nil

theorem Unbroken.append {s t : List Char} (hs : Unbroken s) (ht : Unbroken t) :
    Unbroken (s ++ t) := fun c hc => (List.mem_append.1 hc).elim (hs c) (ht c)

theorem isLineBreak_of_isBlank {c : Char} (hc : isBlank c = false) : isLineBreak c = false := by
  by_contra h
  rw [Bool.not_eq_false, isLineBreak, Bool.or_eq_true, beq_iff_eq, beq_iff_eq] at h
  rcases h with rfl | rfl <;> exact absurd hc (by decide)

theorem unbroken_of_mem_words {s w : List Char} (hw : w ∈ words s) : Unbroken w :=
  fun c hc => isLineBreak_of_isBlank ((mem_words hw).2 c hc)

/-- Spaces between texts are no line breaks. -/
theorem unbroken_joinSpaced {ws : List (List Char)} (h : ∀ w ∈ ws, Unbroken w) :
    Unbroken (joinSpaced ws) := by
  intro c hc
  obtain rfl | ⟨w, hw, hcw⟩ := mem_intercalate hc
  · decide
  · exact h w hw c hcw

theorem unbroken_squeeze (s : List Char) : Unbroken (squeeze s) :=
  unbroken_joinSpaced fun _ => unbroken_of_mem_words

end Text

theorem unbroken_oneLine (s : String) : Text.Unbroken (oneLine s).toList := by
  rw [oneLine, String.toList_ofList]
  exact fun c => Text.isLineBreak_of_mem_collapseBreaks

/-- The description of a declaration is made of words. -/
theorem Declaration.unbroken_description {text : List Char} {d : Declaration}
    (h : Declaration.parse text = .ok d) : Text.Unbroken d.description := by
  obtain ⟨head, rest, hwords, -, -, rfl⟩ := Declaration.parse_eq_ok_iff.1 h
  obtain ⟨vs, hdescription, hvs⟩ := exists_description_bindWords (typesOfWord head) rest
  rw [hdescription]
  refine Text.unbroken_joinSpaced fun v hv => ?_
  rcases hvs v hv with rfl | hmem
  · exact List.forall_mem_singleton.2 (by decide)
  · exact Text.unbroken_of_mem_words (hwords ▸ List.mem_cons_of_mem head hmem)

/-! ## Texts in a document -/

mutual

/-- The texts in a value and in its mappings, at every depth. A list has no texts: in an exported tree,
types are the only list. -/
def Value.texts : Value → List String
  | .scalar (.str s) => [s]
  | .scalar _ => []
  | .list _ => []
  | .map es => textsOfEntries es

/-- The texts in the values of entries. -/
def textsOfEntries : List (Scalar × Value) → List String
  | [] => []
  | (_, v) :: rest => v.texts ++ textsOfEntries rest

end

/-- Writing an entry brings in the texts of its value at most. -/
theorem mem_texts_insert {k : Scalar} {v : Value} {es : Entries} {s : String}
    (h : s ∈ textsOfEntries (Entries.insert k v es)) : s ∈ v.texts ∨ s ∈ textsOfEntries es := by
  induction es with
  | nil =>
    rw [Entries.insert, textsOfEntries, List.mem_append] at h
    exact h
  | cons e es ih =>
    obtain ⟨k', v'⟩ := e
    rw [Entries.insert] at h
    rw [textsOfEntries, List.mem_append]
    split at h
    · rw [textsOfEntries, List.mem_append] at h
      exact h.imp_right .inr
    · rw [textsOfEntries, List.mem_append] at h
      rcases h with h | h
      · exact .inr (.inl h)
      · exact (ih h).imp_right .inr

namespace Hash

theorem mem_texts_putChildren {children : List (Key × Tree)} {acc : Entries} {s : String}
    (h : s ∈ textsOfEntries (putChildren children acc)) :
    s ∈ textsOfEntries acc ∨ ∃ w ∈ children, s ∈ w.2.toValue.texts := by
  induction children generalizing acc with
  | nil =>
    rw [putChildren] at h
    exact .inl h
  | cons child children ih =>
    obtain ⟨k, t⟩ := child
    rw [putChildren] at h
    rcases ih h with h | ⟨w, hw, h⟩
    · rcases mem_texts_insert h with h | h
      · exact .inr ⟨(k, t), List.mem_cons_self, h⟩
      · exact .inl h
    · exact .inr ⟨w, List.mem_cons_of_mem _ hw, h⟩

/-- The texts of an exported node are its own and those of its children. -/
theorem mem_texts_toValue {content : List Char} {types : List (List Char)}
    {children : List (Key × Tree)} {s : String}
    (h : s ∈ (Tree.node content types children).toValue.texts) :
    s = String.ofList content ∨ ∃ w ∈ children, s ∈ w.2.toValue.texts := by
  rw [Tree.toValue, Value.texts] at h
  rcases mem_texts_putChildren h with h | h
  · refine .inl (List.mem_singleton.1 ?_)
    simpa only [textsOfEntries, Value.texts, Value.strs, List.append_nil] using h
  · exact .inr h

/-! ## Trees of hashes -/

/-- Every text of an exported tree is on one line. -/
def Tree.Unbroken (t : Tree) : Prop := ∀ s ∈ t.toValue.texts, Text.Unbroken s.toList

theorem Tree.unbroken_node {content : List Char} (types : List (List Char))
    {children : List (Key × Tree)} (hcontent : Text.Unbroken content)
    (hchildren : ∀ w ∈ children, w.2.Unbroken) : (Tree.node content types children).Unbroken := by
  intro s hs
  obtain rfl | ⟨w, hw, hs⟩ := mem_texts_toValue hs
  · rwa [String.toList_ofList]
  · exact hchildren w hw s hs

theorem unbroken_withLead {description lead : List Char} (hdescription : Text.Unbroken description)
    (hlead : Text.Unbroken lead) : Text.Unbroken (withLead description lead) := by
  rw [withLead]
  split
  · exact hdescription
  · split
    · exact hlead
    · refine hdescription.append (List.forall_mem_cons.2 ⟨by decide, hlead⟩)

theorem unbroken_blockDescription {text : List Char} {d : Option Declaration}
    (h : Declares text d) : Text.Unbroken (blockDescription d) := by
  cases h with
  | nothing => exact Text.unbroken_nil
  | parameter hd => exact Declaration.unbroken_description hd

/-- **What a hash writes has no line break.** -/
theorem Written.unbroken {w : Key × Tree} (h : Written w) : w.2.Unbroken := by
  induction h with
  | leaf hd _ =>
    exact Tree.unbroken_node _ (Declaration.unbroken_description hd)
      fun v hv => absurd hv List.not_mem_nil
  | block _ _ _ hd _ _ ih =>
    have hdescription := unbroken_blockDescription hd
    exact Tree.unbroken_node _ (unbroken_withLead hdescription (Text.unbroken_squeeze _)) ih

/-- A hash is parsed to a tree whose texts are on one line. -/
theorem unbroken_of_parse {dialect : Dialect} {content : List Char} {t : Tree}
    (h : parse dialect content = .ok t) : t.Unbroken := by
  obtain ⟨text, children, rfl, -, hchildren⟩ := exists_of_parse h
  exact Tree.unbroken_node _ (Text.unbroken_squeeze text) fun w hw => (hchildren w hw).unbroken

end Hash

/-! ## Exported doc comments -/

/-- The texts under a name. -/
def fieldTexts (name : String) (es : Entries) : List String :=
  ((es.get? name).map Value.texts).getD []

/-- The texts of an exported annotation: its content, or those at the nodes of its tree. -/
def tagTexts : Value → List String
  | .map es => fieldTexts "content" es
  | _ => []

/-- The documentation texts of an exported doc comment: both descriptions and the texts of its
annotations. -/
def docTexts : Value → List String
  | .map es => fieldTexts "description" es ++ fieldTexts "long_description" es ++
      match Entries.get? "tags" es with
      | some (.list tags) => tags.flatMap tagTexts
      | _ => []
  | _ => []

theorem docTexts_record (short long : String) (tags : List Value) :
    docTexts (.record [("description", .str short), ("long_description", .str long),
      ("tags", .list tags)]) = short :: long :: tags.flatMap tagTexts := rfl

theorem tagTexts_record (name : String) (content : Value) (fields : List (String × Value)) :
    tagTexts (.record ([("name", .str name), ("content", content)] ++ fields)) = content.texts := rfl

/-- A version that stands in for the text of the annotation is on one line. -/
def Tag.VersionUnbroken (t : Tag) : Prop :=
  ∀ number, t.detail = .version number → t.name = "since" → Text.Unbroken number.toList

/-- The text of an annotation is on one line, as it is written and as a tree. -/
theorem unbroken_of_outcome_tagContent {n : Normalizer} {t : Tag} {v : Value}
    (h : (n.tagContent t).outcome = .ok v) : ∀ s ∈ v.texts, Text.Unbroken s.toList := by
  have hraw : ∀ s ∈ (Value.str (oneLine t.content)).texts, Text.Unbroken s.toList := by
    intro s hs
    rw [Value.texts] at hs
    rw [List.mem_singleton.1 hs]
    exact unbroken_oneLine t.content
  rw [Normalizer.tagContent] at h
  split at h
  · rw [Normalizer.hashContent] at h
    split at h
    · next tree hparse =>
      cases h
      exact Hash.unbroken_of_parse hparse
    · split at h
      · cases h
        exact hraw
      · cases h
  · cases h
    exact hraw

/-- Only the version of a `@since` stands in for a text, and only if there is one. -/
theorem versionInstead?_eq_some_iff {t : Tag} {number : String} :
    Normalizer.versionInstead? t = some number ↔
      t.detail = .version number ∧ t.name = "since" ∧ number ≠ "" := by
  rw [Normalizer.versionInstead?]
  split
  · next number' hdetail =>
    simp only [hdetail, Option.ite_none_right_eq_some, Bool.and_eq_true, beq_iff_eq, bne_iff_ne,
      sinceTagName, Option.some.injEq, TagDetail.version.injEq]
    constructor
    · rintro ⟨⟨hname, hne⟩, rfl⟩
      exact ⟨rfl, hname, hne⟩
    · rintro ⟨rfl, hname, hne⟩
      exact ⟨⟨hname, hne⟩, rfl⟩
  · next hdetail =>
    simp only [reduceCtorEq, false_iff, not_and]
    exact fun h => absurd h (hdetail number)

theorem versionUnbroken_iff {t : Tag} :
    t.VersionUnbroken ↔
      ∀ number, Normalizer.versionInstead? t = some number → Text.Unbroken number.toList := by
  constructor
  · intro h number hversion
    obtain ⟨hdetail, hname, -⟩ := versionInstead?_eq_some_iff.1 hversion
    exact h number hdetail hname
  · intro h number hdetail hname
    by_cases hne : number = ""
    · rw [hne]
      exact Text.unbroken_nil
    · exact h number (versionInstead?_eq_some_iff.2 ⟨hdetail, hname, hne⟩)

/-- The texts of an exported annotation are on one line exactly if the version that stands in for them
is. -/
theorem tagTexts_unbroken_iff {n : Normalizer} {t : Tag} {v : Value}
    (h : (n.tag t).outcome = .ok v) :
    (∀ s ∈ tagTexts v, Text.Unbroken s.toList) ↔ t.VersionUnbroken := by
  obtain ⟨content, hcontent, hv⟩ := Traced.outcome_bind_eq_ok_iff.1 h
  cases hv
  rw [tagTexts_record, versionUnbroken_iff]
  cases Normalizer.versionInstead? t with
  | some number =>
    simp only [Value.texts, List.forall_mem_singleton, Option.some.injEq, forall_eq']
  | none =>
    simp only [reduceCtorEq, false_imp_iff, implies_true, iff_true]
    exact unbroken_of_outcome_tagContent hcontent

/-- Related lists have a property throughout together. -/
theorem forall_mem_iff_of_forall₂ {α β : Type} {R : α → β → Prop} {p : α → Prop} {q : β → Prop}
    (h : ∀ a b, R a b → (q b ↔ p a)) {as : List α} {bs : List β} (hR : List.Forall₂ R as bs) :
    (∀ b ∈ bs, q b) ↔ ∀ a ∈ as, p a := by
  induction hR with
  | nil => simp only [List.not_mem_nil, false_imp_iff, implies_true]
  | cons hab _ ih => rw [List.forall_mem_cons, List.forall_mem_cons, h _ _ hab, ih]

/-- **The texts of an exported doc comment are on one line** exactly if the versions that stand in for
the text of an annotation are. -/
theorem docTexts_unbroken_iff (n : Normalizer) (d : Option Docblock) (v : Value)
    (h : (n.docblock d).outcome = .ok v) :
    (∀ s ∈ docTexts v, Text.Unbroken s.toList) ↔
      ∀ block, d = some block → ∀ t ∈ block.tags, t.VersionUnbroken := by
  cases d with
  | none =>
    have hempty : Text.Unbroken "".toList := Text.unbroken_nil
    cases h
    rw [emptyDoc, docTexts_record]
    simp only [List.flatMap_nil, List.forall_mem_cons, hempty, List.not_mem_nil, reduceCtorEq,
      false_imp_iff, implies_true, and_self]
  | some block =>
    obtain ⟨tags, htags, hv⟩ := Traced.outcome_bind_eq_ok_iff.1 h
    cases hv
    have hall := forall_mem_iff_of_forall₂ (fun _ _ h => tagTexts_unbroken_iff h)
      (Traced.outcome_mapM_eq_ok_iff.1 htags)
    rw [docTexts_record, List.forall_mem_cons, List.forall_mem_cons]
    simp only [unbroken_oneLine, true_and, List.mem_flatMap, forall_exists_index, and_imp,
      Option.some.injEq, forall_eq']
    rw [← hall]
    exact ⟨fun h v hv s hs => h s v hv hs, fun h s v hv hs => h v hv s hs⟩

/-- A comment over two lines, with a version, is exported on one line each. -/
theorem docTexts_unbroken_since :
    ∃ v, (Normalizer.docblock ⟨⟨.standard, 3, true⟩, false⟩
        (some ⟨"Adds\nnumbers.", "", [⟨"since", "Added\r\n.", .version "1.0"⟩]⟩)).outcome = .ok v ∧
      docTexts v = ["Adds numbers.", "", "1.0"] ∧ ∀ s ∈ docTexts v, Text.Unbroken s.toList := by
  obtain ⟨v, hv, htexts⟩ : ∃ v, (Normalizer.docblock ⟨⟨.standard, 3, true⟩, false⟩
      (some ⟨"Adds\nnumbers.", "", [⟨"since", "Added\r\n.", .version "1.0"⟩]⟩)).outcome = .ok v ∧
      docTexts v = ["Adds numbers.", "", "1.0"] := ⟨_, rfl, rfl⟩
  refine ⟨v, hv, htexts, (docTexts_unbroken_iff _ _ v hv).2 ?_⟩
  rintro block hblock t ht number hdetail -
  cases hblock
  rw [List.mem_singleton.1 ht] at hdetail
  cases hdetail
  exact unbroken_oneLine "1.0"

/-- A version may come with a line feed, which is neither taken off it when the annotation is built nor
when it is exported. -/
theorem docTexts_broken_version :
    Tag.build .standard "since" "1.0\n Added." = .ok ⟨"since", "Added.", .version "1.0\n"⟩ ∧
      ∃ v, (Normalizer.docblock ⟨⟨.standard, 3, true⟩, true⟩
          (some ⟨"", "", [⟨"since", "Added.", .version "1.0\n"⟩]⟩)).outcome = .ok v ∧
        "1.0\n" ∈ docTexts v ∧ ¬Text.Unbroken "1.0\n".toList := by
  refine ⟨rfl, _, rfl, ?_, fun h => ?_⟩
  · rw [docTexts_record]
    exact List.mem_cons_of_mem _ (List.mem_cons_of_mem _ List.mem_cons_self)
  · exact absurd (h '\n' (by decide)) (by decide)

end DocTree
