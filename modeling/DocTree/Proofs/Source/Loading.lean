import DocTree.Proofs.Log.Outcome
import DocTree.Proofs.Schema.Checked
import DocTree.Source.Load

/-!
# What loading a dump reports

Loading checks every item of a dump and gives the source files if each of them is one. If not, it
reports what is wrong with all of them: the findings of each item in the order of the items, each laid
at the item (`findings_eq`). A check that refuses an item says why (`explained_sourceFile`), so no item
is dropped without a finding, and loading succeeds exactly if every item is a source file
(`exists_accept_eq_ok_iff`).
-/

namespace DocTree

open Schema Checked

/-! ## Refusals have reasons -/

@[simp] theorem explained_texts_map (f : List String → List String) (v : Value) :
    ((listOf text v).map f).Explained := (explained_listOf explained_text v).map f

@[simp] theorem explained_detail (es : Entries) (kind : TagKind) :
    (TagDetail.check es kind).Explained := by
  have htypes : ∀ v, (typeList v).Explained := explained_texts_map List.eraseDups
  cases kind with
  | plain => exact explained_ok _
  | typed => exact (explained_field htypes es _ _).fmap _
  | binding =>
    exact ((explained_field htypes es _ _).fmap _).seq (explained_field explained_text es _ _)
  | reference => exact (explained_field explained_text es _ _).fmap _
  | version => exact (explained_field explained_text es _ _).fmap _

@[simp] theorem explained_kindLiteral (kind : TagKind) (v : Value) :
    (kindLiteral kind v).Explained := by
  unfold kindLiteral
  split
  · split
    · exact explained_ok ()
    · exact explained_fail _
  · exact explained_fail _

@[simp] theorem explained_tag (v : Value) : (Tag.check v).Explained := by
  have hkind : ∀ kind v, (Tag.checkAs kind v).Explained := fun kind =>
    explained_ofFields fun es => by refine .seq (.seq (.seq (.fmap ?_ _) ?_) ?_) ?_ <;> simp
  unfold Tag.check
  split
  · split
    · exact explained_fail _
    · split
      · exact (hkind _ _).under _
      · exact explained_fail _
    · exact explained_fail _
  · exact explained_fail _

@[simp] theorem explained_docblock (v : Value) : (Docblock.check v).Explained :=
  explained_ofFields (fun es => by refine .seq (.seq (.fmap ?_ _) ?_) ?_ <;> simp) v

@[simp] theorem explained_lineNumber (v : Value) : (lineNumber v).Explained :=
  explained_natAtLeast 1 v

@[simp] theorem explained_head (es : Entries) : (Head.check es).Explained := by
  refine .seq (.seq (.seq (.fmap ?_ _) ?_) ?_) ?_ <;> simp

@[simp] theorem explained_argument (v : Value) : (Argument.check v).Explained :=
  explained_ofFields (fun es => by refine .seq (.seq (.fmap ?_ _) ?_) ?_ <;> simp) v

@[simp] theorem explained_inclusion (v : Value) : (Inclusion.check v).Explained :=
  explained_ofFields (fun es => by refine .seq (.seq (.fmap ?_ _) ?_) ?_ <;> simp) v

@[simp] theorem explained_constant (v : Value) : (ConstantDecl.check v).Explained :=
  explained_ofFields (fun es => by refine .seq (.seq (.fmap ?_ _) ?_) ?_ <;> simp) v

@[simp] theorem explained_usage (v : Value) : (Usage.check v).Explained :=
  explained_ofFields (fun es => by refine .obeying (.seq (.fmap ?_ _) ?_) _ <;> simp) v

@[simp] theorem explained_uses (v : Value) : (usesCheck v).Explained :=
  explained_mapOf (explained_listOf explained_usage) v

@[simp] theorem explained_hook (v : Value) : (Hook.check v).Explained :=
  explained_ofFields (fun es => by refine .obeying (.seq (.seq (.fmap ?_ _) ?_) ?_) _ <;> simp) v

@[simp] theorem explained_body (es : Entries) : (Body.check es).Explained := by
  refine .seq (.seq (.fmap ?_ _) ?_) ?_ <;> simp

@[simp] theorem explained_function (v : Value) : (FunctionDecl.check v).Explained :=
  explained_ofFields (fun es => by refine .obeying (.seq (.fmap ?_ _) ?_) _ <;> simp) v

@[simp] theorem explained_method (v : Value) : (MethodDecl.check v).Explained :=
  explained_ofFields (fun es => by
    refine .obeying (.seq (.seq (.seq (.seq (.seq (.fmap ?_ _) ?_) ?_) ?_) ?_) ?_) _ <;> simp) v

@[simp] theorem explained_property (v : Value) : (PropertyDecl.check v).Explained :=
  explained_ofFields (fun es => by
    refine .obeying (.seq (.seq (.seq (.fmap ?_ _) ?_) ?_) ?_) _ <;> simp) v

@[simp] theorem explained_class (v : Value) : (ClassDecl.check v).Explained :=
  explained_ofFields (fun es => by
    refine .obeying (.seq (.seq (.seq (.seq (.seq (.seq (.fmap ?_ _) ?_) ?_) ?_) ?_) ?_) ?_) _ <;>
      simp) v

/-- **What is no source file is refused for a reason.** -/
theorem explained_sourceFile (v : Value) : (SourceFile.check v).Explained :=
  explained_ofFields (fun es => by
    refine .seq (.seq (.seq (.seq (.seq (.seq (.seq (.fmap ?_ _) ?_) ?_) ?_) ?_) ?_) ?_) ?_ <;>
      simp) v

namespace Dump

/-! ## Findings -/

/-- The findings in the item at a position: its issues, each laid at the item. -/
def findingsAt (i : Nat) (v : Value) : List Finding :=
  match SourceFile.check v with
  | .ok _ => []
  | .bad issues => issues.map fun issue =>
      ⟨.name "files" :: .index i :: issue.place, some issue.fault.code, some issue.fault.message⟩

/-- There are findings in an item exactly if it is no source file. -/
theorem findingsAt_eq_nil_iff {i : Nat} {v : Value} :
    findingsAt i v = [] ↔ ∃ f, SourceFile.check v = .ok f := by
  unfold findingsAt
  cases h : SourceFile.check v with
  | ok f => exact ⟨fun _ => ⟨f, rfl⟩, fun _ => rfl⟩
  | bad issues =>
    have hne : issues ≠ [] := fun hnil => explained_sourceFile v (hnil ▸ h)
    constructor
    · exact fun hnil => absurd (List.map_eq_nil_iff.1 hnil) hne
    · rintro ⟨f, hf⟩
      cases hf

/-- **The findings are those of the items, in order.** -/
theorem findings_eq (i : Nat) (items : List Value) :
    (checkAll i items).2 = (items.zipIdx i).flatMap fun q => findingsAt q.2 q.1 := by
  induction items generalizing i with
  | nil => rfl
  | cons v rest ih =>
    rw [checkAll, List.zipIdx_cons, List.flatMap_cons, ← ih, findingsAt]
    cases SourceFile.check v with
    | ok f => rfl
    | bad issues =>
      show List.map _ (List.map _ (List.map _ issues)) ++ _ = _
      rw [List.map_map, List.map_map]
      rfl

theorem findings_eq_nil_iff {items : List Value} :
    (checkAll 0 items).2 = [] ↔ ∀ v ∈ items, ∃ f, SourceFile.check v = .ok f := by
  rw [findings_eq, List.flatMap_eq_nil_iff]
  simp only [findingsAt_eq_nil_iff]
  constructor
  · intro h v hv
    obtain ⟨i, hi, rfl⟩ := List.getElem_of_mem hv
    exact h (items[i], i) (List.mk_mem_zipIdx_iff_getElem?.2 (List.getElem?_eq_getElem hi))
  · exact fun h q hq => h q.1 (List.fst_mem_of_mem_zipIdx hq)

/-- Where there are no findings, every item is a source file. -/
theorem files_of_findings_eq_nil {i : Nat} {items : List Value}
    (h : ∀ v ∈ items, ∃ f, SourceFile.check v = .ok f) :
    List.Forall₂ (fun v f => SourceFile.check v = .ok f) items (checkAll i items).1 := by
  induction items generalizing i with
  | nil => exact .nil
  | cons v rest ih =>
    obtain ⟨f, hf⟩ := h v List.mem_cons_self
    rw [checkAll, hf]
    exact .cons hf (ih fun w hw => h w (List.mem_cons_of_mem v hw))

/-! ## Accepting a dump -/

theorem accept_of_findings_eq_nil (path : String) {items : List Value}
    (h : (checkAll 0 items).2 = []) : accept path items = .ok (checkAll 0 items).1 := by
  rw [accept]
  exact if_pos (List.isEmpty_iff.2 h)

/-- A dump that is not accepted is reported with its findings. -/
theorem accept_of_findings_ne_nil (path : String) {items : List Value}
    (h : (checkAll 0 items).2 ≠ []) : ∃ report, accept path items = .error (.reported report) ∧
      report.findings = items.zipIdx.flatMap fun q => findingsAt q.2 q.1 := by
  refine ⟨_, if_neg fun hempty => h (List.isEmpty_iff.1 hempty), ?_⟩
  exact findings_eq 0 items

/-- A dump is accepted exactly if every item is a source file. -/
theorem exists_accept_eq_ok_iff {path : String} {items : List Value} :
    (∃ fs, accept path items = .ok fs) ↔ ∀ v ∈ items, ∃ f, SourceFile.check v = .ok f := by
  rw [← findings_eq_nil_iff]
  constructor
  · rintro ⟨fs, hfs⟩
    by_contra hfindings
    obtain ⟨report, hreport, -⟩ := accept_of_findings_ne_nil path hfindings
    cases hfs.symm.trans hreport
  · exact fun h => ⟨_, accept_of_findings_eq_nil path h⟩

/-- What is accepted are the items, each as a source file. -/
theorem forall₂_of_accept {path : String} {items : List Value} {fs : List SourceFile}
    (h : accept path items = .ok fs) :
    List.Forall₂ (fun v f => SourceFile.check v = .ok f) items fs := by
  have hfiles := exists_accept_eq_ok_iff.1 ⟨fs, h⟩
  rw [accept_of_findings_eq_nil path (findings_eq_nil_iff.2 hfiles)] at h
  obtain rfl := Except.ok.inj h
  exact files_of_findings_eq_nil hfiles

/-- Loading is reading and then accepting what was read. -/
theorem outcome_load (d : Folder) (path : String) (r : Registry) :
    (load d path r).outcome = (read d path r).outcome >>= accept (Path.normal path) := by
  rw [load, Traced.outcome_bind]
  rfl

end Dump

end DocTree
