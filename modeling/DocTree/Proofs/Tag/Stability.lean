import DocTree.Proofs.Schema.Stability
import DocTree.Tag.Check

/-!
# Annotations read again

An annotation is written with the kind that it has and with the fields of that kind, so it is read as
an annotation of the same kind (`stable_tag`), also where the document named the kind only.
-/

namespace DocTree

open Schema Checked

/-- A kind is found under its name. -/
theorem TagKind.ofName?_name (kind : TagKind) : TagKind.ofName? kind.name = some kind := by
  cases kind <;> rfl

theorem kindLiteral_name (kind : TagKind) : kindLiteral kind (.str kind.name) = .ok () := by
  cases kind <;> rfl

/-- The detail that is read belongs to the kind that was asked for. -/
theorem TagDetail.kind_of_check {es : Entries} {kind : TagKind} {d : TagDetail}
    (h : TagDetail.check es kind = .ok d) : d.kind = kind := by
  cases kind with
  | plain =>
    obtain rfl := Checked.ok.inj h
    rfl
  | typed =>
    obtain ⟨types, -, rfl⟩ := fmap_eq_ok_iff.1 h
    rfl
  | binding =>
    obtain ⟨g, hg, v, -, rfl⟩ := seq_eq_ok_iff.1 h
    obtain ⟨types, -, rfl⟩ := fmap_eq_ok_iff.1 hg
    rfl
  | reference =>
    obtain ⟨target, -, rfl⟩ := fmap_eq_ok_iff.1 h
    rfl
  | version =>
    obtain ⟨number, -, rfl⟩ := fmap_eq_ok_iff.1 h
    rfl

/-- The fields of an annotation. -/
def Tag.fields (t : Tag) : List (String × Value) :=
  [("kind", .str t.kind.name), ("name", .str t.name), ("content", .str t.content)] ++ t.detail.fields

/-- A detail is read back from the fields of its annotation. -/
theorem TagDetail.check_fields {es : Entries} {kind : TagKind} {name content : String}
    {d : TagDetail} (h : TagDetail.check es kind = .ok d) :
    TagDetail.check (fieldEntries (Tag.fields ⟨name, content, d⟩)) kind = .ok d := by
  cases kind with
  | plain => exact h
  | typed =>
    obtain ⟨types, htypes, rfl⟩ := fmap_eq_ok_iff.1 h
    exact fmap_eq_ok_iff.2 ⟨types, stable_distinctTexts.field rfl htypes rfl, rfl⟩
  | binding =>
    obtain ⟨g, hg, v, hv, rfl⟩ := seq_eq_ok_iff.1 h
    obtain ⟨types, htypes, rfl⟩ := fmap_eq_ok_iff.1 hg
    refine seq_eq_ok_iff.2 ⟨_, fmap_eq_ok_iff.2 ⟨types, ?_, rfl⟩, v, ?_, rfl⟩
    · exact stable_distinctTexts.field rfl htypes rfl
    · exact stable_text.field rfl hv rfl
  | reference =>
    obtain ⟨target, htarget, rfl⟩ := fmap_eq_ok_iff.1 h
    exact fmap_eq_ok_iff.2 ⟨target, stable_text.field rfl htarget rfl, rfl⟩
  | version =>
    obtain ⟨number, hnumber, rfl⟩ := fmap_eq_ok_iff.1 h
    exact fmap_eq_ok_iff.2 ⟨number, stable_text.field rfl hnumber rfl, rfl⟩

namespace Tag

theorem checkAs_eq_ok_iff {kind : TagKind} {v : Value} {t : Tag} :
    checkAs kind v = .ok t ↔ ∃ es, v = .map es ∧
      field es "kind" () (kindLiteral kind) = .ok () ∧
      required es "name" nonEmptyText = .ok t.name ∧ field es "content" "" text = .ok t.content ∧
      TagDetail.check es kind = .ok t.detail := by
  rw [checkAs, ofFields_eq_ok_iff]
  refine exists_congr fun es => and_congr_right fun _ => ?_
  rw [seq_eq_ok_iff]
  simp only [exists_seq_eq_ok_iff, exists_fmap_eq_ok_iff]
  constructor
  · rintro ⟨⟨⟩, hkind, name, hname, content, hcontent, detail, hdetail, rfl⟩
    exact ⟨hkind, hname, hcontent, hdetail⟩
  · rintro ⟨hkind, hname, hcontent, hdetail⟩
    exact ⟨(), hkind, _, hname, _, hcontent, _, hdetail, rfl⟩

theorem kind_of_checkAs {kind : TagKind} {v : Value} {t : Tag} (h : checkAs kind v = .ok t) :
    t.kind = kind := by
  obtain ⟨es, -, -, -, -, hdetail⟩ := checkAs_eq_ok_iff.1 h
  exact TagDetail.kind_of_check hdetail

/-- An annotation is read as one of the kind that it names. -/
theorem exists_checkAs_of_check {v : Value} {t : Tag} (h : check v = .ok t) :
    ∃ kind, checkAs kind v = .ok t := by
  unfold check at h
  split at h
  · split at h
    · exact absurd h fail_ne_ok
    · split at h
      · next kind _ => exact ⟨kind, under_eq_ok_iff.1 h⟩
      · exact absurd h fail_ne_ok
    · exact absurd h fail_ne_ok
  · exact absurd h fail_ne_ok

theorem checkAs_toValue {kind : TagKind} {v : Value} {t : Tag} (h : checkAs kind v = .ok t) :
    checkAs t.kind t.toValue = .ok t := by
  rw [kind_of_checkAs h]
  obtain ⟨name, content, detail⟩ := t
  obtain ⟨es, -, -, hname, hcontent, hdetail⟩ := checkAs_eq_ok_iff.1 h
  obtain rfl := TagDetail.kind_of_check hdetail
  have hkind : field (fieldEntries (fields ⟨name, content, detail⟩)) "kind" ()
      (kindLiteral detail.kind) = .ok () :=
    field_eq_ok_iff.2 (.inl ⟨_, rfl, kindLiteral_name detail.kind⟩)
  exact checkAs_eq_ok_iff.2 ⟨_, rfl, hkind, stable_nonEmptyText.required hname rfl,
    stable_text.field rfl hcontent rfl, TagDetail.check_fields hdetail⟩

/-- An annotation is read as what it is written for. -/
theorem check_toValue_of_checkAs {t : Tag} (h : checkAs t.kind t.toValue = .ok t) :
    check t.toValue = .ok t := by
  obtain ⟨es, hes, hkind⟩ : ∃ es, t.toValue = .map es ∧
      Entries.get? "kind" es = some (.str t.kind.name) := ⟨_, rfl, rfl⟩
  rw [hes] at h ⊢
  simp only [check, hkind, TagKind.ofName?_name]
  exact under_eq_ok_iff.2 h

end Tag

theorem stable_tag : Stable Tag.check Tag.toValue := by
  intro v t h
  obtain ⟨kind, hkind⟩ := Tag.exists_checkAs_of_check h
  exact Tag.check_toValue_of_checkAs (Tag.checkAs_toValue hkind)

end DocTree
