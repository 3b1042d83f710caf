import DocTree.Proofs.Tag.Stability
import DocTree.Source.Check
import DocTree.Source.Dump

/-!
# Source files read again

A source file that was read from a document can be written with all its fields, and what is written is
read as the same file (`stable_sourceFile`). The same holds of everything a file is made of.

Each shape has two lemmas. `check_eq_ok_iff` says what its check reads from which field; used in one
direction it takes a document apart, used in the other it reads what was written, field by field. The
rule that an element does not end before it starts is kept because the lines are.
-/

namespace DocTree

open Schema Checked

/-! ## Doc comments -/

theorem Docblock.check_eq_ok_iff {v : Value} {d : Docblock} :
    Docblock.check v = .ok d ↔ ∃ es, v = .map es ∧
      field es "short_description" "" text = .ok d.short ∧
      field es "long_description" "" text = .ok d.long ∧
      field es "tags" [] (listOf Tag.check) = .ok d.tags := by
  rw [Docblock.check, ofFields_eq_ok_iff]
  refine exists_congr fun es => and_congr_right fun _ => ?_
  rw [seq_eq_ok_iff]
  simp only [exists_seq_eq_ok_iff, exists_fmap_eq_ok_iff]
  constructor
  · rintro ⟨short, hshort, long, hlong, tags, htags, rfl⟩
    exact ⟨hshort, hlong, htags⟩
  · rintro ⟨hshort, hlong, htags⟩
    exact ⟨_, hshort, _, hlong, _, htags, rfl⟩

theorem stable_docblock : Stable Docblock.check Docblock.toValue := by
  intro v d h
  obtain ⟨es, -, hshort, hlong, htags⟩ := Docblock.check_eq_ok_iff.1 h
  refine Docblock.check_eq_ok_iff.2 ⟨_, rfl, ?_, ?_, ?_⟩
  · exact stable_text.field rfl hshort rfl
  · exact stable_text.field rfl hlong rfl
  · exact stable_tag.listOf.field rfl htags rfl

theorem stable_optional_docblock : Stable (optional Docblock.check) Docblock.optToValue :=
  stable_docblock.optional nofun rfl fun _ => rfl

/-! ## Heads -/

theorem stable_lineNumber : Stable lineNumber .nat := stable_natAtLeast 1

theorem stable_optional_lineNumber : Stable (optional lineNumber) .optNat :=
  stable_lineNumber.optional nofun rfl fun _ => rfl

theorem Head.check_eq_ok_iff {es : Entries} {h : Head} :
    Head.check es = .ok h ↔ required es "name" nonEmptyText = .ok h.name ∧
      required es "line" lineNumber = .ok h.line ∧
      field es "end_line" none (optional lineNumber) = .ok h.endLine ∧
      field es "docblock" none (optional Docblock.check) = .ok h.docblock := by
  rw [Head.check, seq_eq_ok_iff]
  simp only [exists_seq_eq_ok_iff, exists_fmap_eq_ok_iff]
  constructor
  · rintro ⟨name, hname, line, hline, endLine, hend, docblock, hdoc, rfl⟩
    exact ⟨hname, hline, hend, hdoc⟩
  · rintro ⟨hname, hline, hend, hdoc⟩
    exact ⟨_, hname, _, hline, _, hend, _, hdoc, rfl⟩

/-- A head is read back from the start of the fields of its element. -/
theorem Head.check_fields {es : Entries} {h : Head} (hread : Head.check es = .ok h)
    (more : List (String × Value)) : Head.check (fieldEntries (h.fields ++ more)) = .ok h := by
  obtain ⟨hname, hline, hend, hdoc⟩ := Head.check_eq_ok_iff.1 hread
  refine Head.check_eq_ok_iff.2 ⟨?_, ?_, ?_, ?_⟩
  · exact stable_nonEmptyText.required hname rfl
  · exact stable_lineNumber.required hline rfl
  · exact stable_optional_lineNumber.field rfl hend rfl
  · exact stable_optional_docblock.field rfl hdoc rfl

/-! ## Arguments, inclusions and constants -/

theorem Argument.check_eq_ok_iff {v : Value} {a : Argument} :
    Argument.check v = .ok a ↔ ∃ es, v = .map es ∧
      required es "name" nonEmptyText = .ok a.name ∧
      field es "default" none (optional text) = .ok a.default ∧
      field es "type" none (optional text) = .ok a.type := by
  rw [Argument.check, ofFields_eq_ok_iff]
  refine exists_congr fun es => and_congr_right fun _ => ?_
  rw [seq_eq_ok_iff]
  simp only [exists_seq_eq_ok_iff, exists_fmap_eq_ok_iff]
  constructor
  · rintro ⟨name, hname, default, hdefault, type, htype, rfl⟩
    exact ⟨hname, hdefault, htype⟩
  · rintro ⟨hname, hdefault, htype⟩
    exact ⟨_, hname, _, hdefault, _, htype, rfl⟩

theorem stable_argument : Stable Argument.check Argument.toValue := by
  intro v a h
  obtain ⟨es, -, hname, hdefault, htype⟩ := Argument.check_eq_ok_iff.1 h
  refine Argument.check_eq_ok_iff.2 ⟨_, rfl, ?_, ?_, ?_⟩
  · exact stable_nonEmptyText.required hname rfl
  · exact stable_optional_text.field rfl hdefault rfl
  · exact stable_optional_text.field rfl htype rfl

theorem IncludeKind.choice_name (k : IncludeKind) :
    choice IncludeKind.choices (.str k.name) = .ok k := by
  cases k <;> rfl

theorem Inclusion.check_eq_ok_iff {v : Value} {i : Inclusion} :
    Inclusion.check v = .ok i ↔ ∃ es, v = .map es ∧
      required es "name" nonEmptyText = .ok i.name ∧ required es "line" lineNumber = .ok i.line ∧
      field es "type" .required (choice IncludeKind.choices) = .ok i.kind := by
  rw [Inclusion.check, ofFields_eq_ok_iff]
  refine exists_congr fun es => and_congr_right fun _ => ?_
  rw [seq_eq_ok_iff]
  simp only [exists_seq_eq_ok_iff, exists_fmap_eq_ok_iff]
  constructor
  · rintro ⟨name, hname, line, hline, kind, hkind, rfl⟩
    exact ⟨hname, hline, hkind⟩
  · rintro ⟨hname, hline, hkind⟩
    exact ⟨_, hname, _, hline, _, hkind, rfl⟩

theorem stable_inclusion : Stable Inclusion.check Inclusion.toValue := by
  intro v i h
  obtain ⟨es, -, hname, hline, hkind⟩ := Inclusion.check_eq_ok_iff.1 h
  refine Inclusion.check_eq_ok_iff.2 ⟨_, rfl, ?_, ?_, ?_⟩
  · exact stable_nonEmptyText.required hname rfl
  · exact stable_lineNumber.required hline rfl
  · exact (stable_of_forall IncludeKind.choice_name).field rfl hkind rfl

theorem ConstantDecl.check_eq_ok_iff {v : Value} {c : ConstantDecl} :
    ConstantDecl.check v = .ok c ↔ ∃ es, v = .map es ∧
      required es "name" nonEmptyText = .ok c.name ∧ required es "line" lineNumber = .ok c.line ∧
      field es "value" none (optional text) = .ok c.value := by
  rw [ConstantDecl.check, ofFields_eq_ok_iff]
  refine exists_congr fun es => and_congr_right fun _ => ?_
  rw [seq_eq_ok_iff]
  simp only [exists_seq_eq_ok_iff, exists_fmap_eq_ok_iff]
  constructor
  · rintro ⟨name, hname, line, hline, value, hvalue, rfl⟩
    exact ⟨hname, hline, hvalue⟩
  · rintro ⟨hname, hline, hvalue⟩
    exact ⟨_, hname, _, hline, _, hvalue, rfl⟩

theorem stable_constant : Stable ConstantDecl.check ConstantDecl.toValue := by
  intro v c h
  obtain ⟨es, -, hname, hline, hvalue⟩ := ConstantDecl.check_eq_ok_iff.1 h
  refine ConstantDecl.check_eq_ok_iff.2 ⟨_, rfl, ?_, ?_, ?_⟩
  · exact stable_nonEmptyText.required hname rfl
  · exact stable_lineNumber.required hline rfl
  · exact stable_optional_text.field rfl hvalue rfl

/-! ## Uses and hooks -/

theorem Usage.check_eq_ok_iff {v : Value} {u : Usage} :
    Usage.check v = .ok u ↔ ∃ es, v = .map es ∧ Head.check es = .ok u.head ∧
      field es "arguments" [] (listOf anything) = .ok u.arguments ∧ u.head.orderRule = none := by
  rw [Usage.check, ofFields_eq_ok_iff]
  refine exists_congr fun es => and_congr_right fun _ => ?_
  rw [obeying_eq_ok_iff, seq_eq_ok_iff]
  simp only [exists_fmap_eq_ok_iff]
  constructor
  · rintro ⟨⟨head, hhead, arguments, harguments, rfl⟩, horder⟩
    exact ⟨hhead, harguments, horder⟩
  · rintro ⟨hhead, harguments, horder⟩
    exact ⟨⟨_, hhead, _, harguments, rfl⟩, horder⟩

/-- The literals of a call are any values, so they are written as they are. -/
theorem stable_literals : Stable (listOf anything) .list := by
  intro v xs h
  have hread := stable_anything.listOf v xs h
  dsimp only at hread
  rwa [List.map_id] at hread

theorem stable_usage : Stable Usage.check Usage.toValue := by
  intro v u h
  obtain ⟨es, -, hhead, harguments, horder⟩ := Usage.check_eq_ok_iff.1 h
  refine Usage.check_eq_ok_iff.2 ⟨_, rfl, ?_, ?_, horder⟩
  · exact Head.check_fields hhead _
  · exact stable_literals.field rfl harguments rfl

/-- Grouped uses are read back group by group. -/
theorem stable_uses : Stable usesCheck usesToValue := stable_usage.listOf.mapOf

theorem HookKind.choice_name (k : HookKind) : choice HookKind.choices (.str k.name) = .ok k := by
  cases k <;> rfl

theorem Hook.check_eq_ok_iff {v : Value} {h : Hook} :
    Hook.check v = .ok h ↔ ∃ es, v = .map es ∧ Head.check es = .ok h.head ∧
      required es "type" (choice HookKind.choices) = .ok h.kind ∧
      field es "arguments" [] (listOf text) = .ok h.arguments ∧ h.head.orderRule = none := by
  rw [Hook.check, ofFields_eq_ok_iff]
  refine exists_congr fun es => and_congr_right fun _ => ?_
  rw [obeying_eq_ok_iff, seq_eq_ok_iff]
  simp only [exists_seq_eq_ok_iff, exists_fmap_eq_ok_iff]
  constructor
  · rintro ⟨⟨head, hhead, kind, hkind, arguments, harguments, rfl⟩, horder⟩
    exact ⟨hhead, hkind, harguments, horder⟩
  · rintro ⟨hhead, hkind, harguments, horder⟩
    exact ⟨⟨_, hhead, _, hkind, _, harguments, rfl⟩, horder⟩

theorem stable_hook : Stable Hook.check Hook.toValue := by
  intro v hook h
  obtain ⟨es, -, hhead, hkind, harguments, horder⟩ := Hook.check_eq_ok_iff.1 h
  refine Hook.check_eq_ok_iff.2 ⟨_, rfl, ?_, ?_, ?_, horder⟩
  · exact Head.check_fields hhead _
  · exact (stable_of_forall HookKind.choice_name).required hkind rfl
  · exact stable_texts.field rfl harguments rfl

/-! ## Functions and methods -/

theorem Body.check_eq_ok_iff {es : Entries} {b : Body} :
    Body.check es = .ok b ↔ field es "arguments" [] (listOf Argument.check) = .ok b.arguments ∧
      field es "uses" [] usesCheck = .ok b.uses ∧
      field es "hooks" [] (listOf Hook.check) = .ok b.hooks := by
  rw [Body.check, seq_eq_ok_iff]
  simp only [exists_seq_eq_ok_iff, exists_fmap_eq_ok_iff]
  constructor
  · rintro ⟨arguments, harguments, uses, huses, hooks, hhooks, rfl⟩
    exact ⟨harguments, huses, hhooks⟩
  · rintro ⟨harguments, huses, hhooks⟩
    exact ⟨_, harguments, _, huses, _, hhooks, rfl⟩

/-- A body is read back from the fields that follow those of the head. -/
theorem Body.check_fields {es : Entries} {b : Body} (hread : Body.check es = .ok b) (h : Head)
    (more : List (String × Value)) :
    Body.check (fieldEntries (h.fields ++ b.fields ++ more)) = .ok b := by
  obtain ⟨harguments, huses, hhooks⟩ := Body.check_eq_ok_iff.1 hread
  refine Body.check_eq_ok_iff.2 ⟨?_, ?_, ?_⟩
  · exact stable_argument.listOf.field rfl harguments rfl
  · exact stable_uses.field rfl huses rfl
  · exact stable_hook.listOf.field rfl hhooks rfl

theorem FunctionDecl.check_eq_ok_iff {v : Value} {f : FunctionDecl} :
    FunctionDecl.check v = .ok f ↔ ∃ es, v = .map es ∧ Head.check es = .ok f.head ∧
      Body.check es = .ok f.body ∧ f.head.orderRule = none := by
  rw [FunctionDecl.check, ofFields_eq_ok_iff]
  refine exists_congr fun es => and_congr_right fun _ => ?_
  rw [obeying_eq_ok_iff, seq_eq_ok_iff]
  simp only [exists_fmap_eq_ok_iff]
  constructor
  · rintro ⟨⟨head, hhead, body, hbody, rfl⟩, horder⟩
    exact ⟨hhead, hbody, horder⟩
  · rintro ⟨hhead, hbody, horder⟩
    exact ⟨⟨_, hhead, _, hbody, rfl⟩, horder⟩

theorem stable_function : Stable FunctionDecl.check FunctionDecl.toValue := by
  intro v f h
  obtain ⟨es, -, hhead, hbody, horder⟩ := FunctionDecl.check_eq_ok_iff.1 h
  refine FunctionDecl.check_eq_ok_iff.2 ⟨_, rfl, ?_, ?_, horder⟩
  · exact Head.check_fields hhead _
  · exact Body.check_fields hbody f.head []

theorem Visibility.choice_name (x : Visibility) :
    choice Visibility.choices (.str x.name) = .ok x := by
  cases x <;> rfl

theorem stable_visibility : Stable (choice Visibility.choices) fun x => .str x.name :=
  stable_of_forall Visibility.choice_name

theorem MethodDecl.check_eq_ok_iff {v : Value} {m : MethodDecl} :
    MethodDecl.check v = .ok m ↔ ∃ es, v = .map es ∧ Head.check es = .ok m.head ∧
      Body.check es = .ok m.body ∧
      field es "visibility" .everyone (choice Visibility.choices) = .ok m.visibility ∧
      field es "static" false truth = .ok m.isStatic ∧ field es "final" false truth = .ok m.isFinal ∧
      field es "abstract" false truth = .ok m.isAbstract ∧ m.head.orderRule = none := by
  rw [MethodDecl.check, ofFields_eq_ok_iff]
  refine exists_congr fun es => and_congr_right fun _ => ?_
  rw [obeying_eq_ok_iff, seq_eq_ok_iff]
  simp only [exists_seq_eq_ok_iff, exists_fmap_eq_ok_iff]
  constructor
  · rintro ⟨⟨head, hhead, body, hbody, visibility, hvisibility, isStatic, hstatic, isFinal, hfinal,
      isAbstract, habstract, rfl⟩, horder⟩
    exact ⟨hhead, hbody, hvisibility, hstatic, hfinal, habstract, horder⟩
  · rintro ⟨hhead, hbody, hvisibility, hstatic, hfinal, habstract, horder⟩
    exact ⟨⟨_, hhead, _, hbody, _, hvisibility, _, hstatic, _, hfinal, _, habstract, rfl⟩, horder⟩

theorem stable_method : Stable MethodDecl.check MethodDecl.toValue := by
  intro v m h
  obtain ⟨es, -, hhead, hbody, hvisibility, hstatic, hfinal, habstract, horder⟩ :=
    MethodDecl.check_eq_ok_iff.1 h
  refine MethodDecl.check_eq_ok_iff.2 ⟨_, rfl, ?_, ?_, ?_, ?_, ?_, ?_, horder⟩
  · exact Head.check_fields hhead _
  · exact Body.check_fields hbody m.head _
  · exact stable_visibility.field rfl hvisibility rfl
  · exact stable_truth.field rfl hstatic rfl
  · exact stable_truth.field rfl hfinal rfl
  · exact stable_truth.field rfl habstract rfl

/-! ## Classes -/

theorem PropertyDecl.check_eq_ok_iff {v : Value} {p : PropertyDecl} :
    PropertyDecl.check v = .ok p ↔ ∃ es, v = .map es ∧ Head.check es = .ok p.head ∧
      field es "default" none (optional text) = .ok p.default ∧
      field es "visibility" .everyone (choice Visibility.choices) = .ok p.visibility ∧
      field es "static" false truth = .ok p.isStatic ∧ p.head.orderRule = none := by
  rw [PropertyDecl.check, ofFields_eq_ok_iff]
  refine exists_congr fun es => and_congr_right fun _ => ?_
  rw [obeying_eq_ok_iff, seq_eq_ok_iff]
  simp only [exists_seq_eq_ok_iff, exists_fmap_eq_ok_iff]
  constructor
  · rintro ⟨⟨head, hhead, default, hdefault, visibility, hvisibility, isStatic, hstatic, rfl⟩, horder⟩
    exact ⟨hhead, hdefault, hvisibility, hstatic, horder⟩
  · rintro ⟨hhead, hdefault, hvisibility, hstatic, horder⟩
    exact ⟨⟨_, hhead, _, hdefault, _, hvisibility, _, hstatic, rfl⟩, horder⟩

theorem stable_property : Stable PropertyDecl.check PropertyDecl.toValue := by
  intro v p h
  obtain ⟨es, -, hhead, hdefault, hvisibility, hstatic, horder⟩ := PropertyDecl.check_eq_ok_iff.1 h
  refine PropertyDecl.check_eq_ok_iff.2 ⟨_, rfl, ?_, ?_, ?_, ?_, horder⟩
  · exact Head.check_fields hhead _
  · exact stable_optional_text.field rfl hdefault rfl
  · exact stable_visibility.field rfl hvisibility rfl
  · exact stable_truth.field rfl hstatic rfl

theorem ClassDecl.check_eq_ok_iff {v : Value} {c : ClassDecl} :
    ClassDecl.check v = .ok c ↔ ∃ es, v = .map es ∧ Head.check es = .ok c.head ∧
      field es "final" false truth = .ok c.isFinal ∧
      field es "abstract" false truth = .ok c.isAbstract ∧
      field es "parent" none (optional text) = .ok c.parent ∧
      field es "interfaces" [] (fun v => (listOf text v).map List.eraseDups) = .ok c.interfaces ∧
      field es "properties" [] (listOf PropertyDecl.check) = .ok c.properties ∧
      field es "methods" [] (listOf MethodDecl.check) = .ok c.methods ∧
      c.head.orderRule = none := by
  rw [ClassDecl.check, ofFields_eq_ok_iff]
  refine exists_congr fun es => and_congr_right fun _ => ?_
  rw [obeying_eq_ok_iff, seq_eq_ok_iff]
  simp only [exists_seq_eq_ok_iff, exists_fmap_eq_ok_iff]
  constructor
  · rintro ⟨⟨head, hhead, isFinal, hfinal, isAbstract, habstract, parent, hparent, interfaces,
      hinterfaces, properties, hproperties, methods, hmethods, rfl⟩, horder⟩
    exact ⟨hhead, hfinal, habstract, hparent, hinterfaces, hproperties, hmethods, horder⟩
  · rintro ⟨hhead, hfinal, habstract, hparent, hinterfaces, hproperties, hmethods, horder⟩
    exact ⟨⟨_, hhead, _, hfinal, _, habstract, _, hparent, _, hinterfaces, _, hproperties, _,
      hmethods, rfl⟩, horder⟩

theorem stable_class : Stable ClassDecl.check ClassDecl.toValue := by
  intro v c h
  obtain ⟨es, -, hhead, hfinal, habstract, hparent, hinterfaces, hproperties, hmethods, horder⟩ :=
    ClassDecl.check_eq_ok_iff.1 h
  refine ClassDecl.check_eq_ok_iff.2 ⟨_, rfl, ?_, ?_, ?_, ?_, ?_, ?_, ?_, horder⟩
  · exact Head.check_fields hhead _
  · exact stable_truth.field rfl hfinal rfl
  · exact stable_truth.field rfl habstract rfl
  · exact stable_optional_text.field rfl hparent rfl
  · exact stable_distinctTexts.field rfl hinterfaces rfl
  · exact stable_property.listOf.field rfl hproperties rfl
  · exact stable_method.listOf.field rfl hmethods rfl

/-! ## Files -/

theorem SourceFile.check_eq_ok_iff {v : Value} {f : SourceFile} :
    SourceFile.check v = .ok f ↔ ∃ es, v = .map es ∧
      required es "path" nonEmptyText = .ok f.path ∧
      field es "docblock" none (optional Docblock.check) = .ok f.docblock ∧
      field es "includes" [] (listOf Inclusion.check) = .ok f.includes ∧
      field es "constants" [] (listOf ConstantDecl.check) = .ok f.constants ∧
      field es "uses" [] usesCheck = .ok f.uses ∧
      field es "hooks" [] (listOf Hook.check) = .ok f.hooks ∧
      field es "functions" [] (listOf FunctionDecl.check) = .ok f.functions ∧
      field es "classes" [] (listOf ClassDecl.check) = .ok f.classes := by
  rw [SourceFile.check, ofFields_eq_ok_iff]
  refine exists_congr fun es => and_congr_right fun _ => ?_
  rw [seq_eq_ok_iff]
  simp only [exists_seq_eq_ok_iff, exists_fmap_eq_ok_iff]
  constructor
  · rintro ⟨path, hpath, docblock, hdoc, includes, hincludes, constants, hconstants, uses, huses,
      hooks, hhooks, functions, hfunctions, classes, hclasses, rfl⟩
    exact ⟨hpath, hdoc, hincludes, hconstants, huses, hhooks, hfunctions, hclasses⟩
  · rintro ⟨hpath, hdoc, hincludes, hconstants, huses, hhooks, hfunctions, hclasses⟩
    exact ⟨_, hpath, _, hdoc, _, hincludes, _, hconstants, _, huses, _, hhooks, _, hfunctions, _,
      hclasses, rfl⟩

theorem stable_sourceFile : Stable SourceFile.check SourceFile.toValue := by
  intro v f h
  obtain ⟨es, -, hpath, hdoc, hincludes, hconstants, huses, hhooks, hfunctions, hclasses⟩ :=
    SourceFile.check_eq_ok_iff.1 h
  refine SourceFile.check_eq_ok_iff.2 ⟨_, rfl, ?_, ?_, ?_, ?_, ?_, ?_, ?_, ?_⟩
  · exact stable_nonEmptyText.required hpath rfl
  · exact stable_optional_docblock.field rfl hdoc rfl
  · exact stable_inclusion.listOf.field rfl hincludes rfl
  · exact stable_constant.listOf.field rfl hconstants rfl
  · exact stable_uses.field rfl huses rfl
  · exact stable_hook.listOf.field rfl hhooks rfl
  · exact stable_function.listOf.field rfl hfunctions rfl
  · exact stable_class.listOf.field rfl hclasses rfl

end DocTree
