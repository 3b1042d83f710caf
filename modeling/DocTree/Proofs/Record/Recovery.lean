import DocTree.Proofs.Log.Outcome
import DocTree.Proofs.Source.Stability
import DocTree.Record.Element

/-!
# Reading a file back from its record

The record of a file leaves nothing of its structure out. `SourceFile.ofRecord` reads a record, and what
it reads is the file without its path, its uses and the texts of its doc comments (`SourceFile.bare`): of
a property it is still known whether it has one. So two files with the same record have the same
structure (`outcome_file_structure`).

## Shape of the proof

Each element has a reader, which finds the fields of its record by name, and a lemma that the reader
finds there what was exported. An export of a list is a list of exports (`listOf_of_forall₂`), so these
lemmas compose along the nesting of elements. A part that a record leaves out is read as empty, and it is
left out only where it is empty.
-/

namespace DocTree

open Schema Checked

/-! ## What is read back -/

/-- A head without its doc comment. -/
def Head.bare (h : Head) : Head := { h with docblock := none }

/-- A hook without its doc comment. -/
def Hook.bare (h : Hook) : Hook := { h with head := h.head.bare }

/-- A body without its uses and the doc comments of its hooks. -/
def Body.bare (b : Body) : Body := { b with uses := [], hooks := b.hooks.map Hook.bare }

/-- A function without its uses and doc comments. -/
def FunctionDecl.bare (f : FunctionDecl) : FunctionDecl :=
  { f with head := f.head.bare, body := f.body.bare }

/-- A method without its uses and doc comments. -/
def MethodDecl.bare (m : MethodDecl) : MethodDecl :=
  { m with head := m.head.bare, body := m.body.bare }

/-- A doc comment without texts. -/
def Docblock.blank : Docblock := ⟨"", "", []⟩

/-- A property without the texts of its doc comment. -/
def PropertyDecl.bare (p : PropertyDecl) : PropertyDecl :=
  { p with head := { p.head with docblock := p.head.docblock.map fun _ => .blank } }

/-- A class without uses and the texts of doc comments. -/
def ClassDecl.bare (c : ClassDecl) : ClassDecl :=
  { c with head := c.head.bare, properties := c.properties.map PropertyDecl.bare,
           methods := c.methods.map MethodDecl.bare }

/-- A file without its path, uses and the texts of doc comments. -/
def SourceFile.bare (f : SourceFile) : SourceFile :=
  { f with path := "", docblock := none, uses := [], hooks := f.hooks.map Hook.bare,
           functions := f.functions.map FunctionDecl.bare, classes := f.classes.map ClassDecl.bare }

/-! ## Readers of records -/

/-- A line, as it stands in a record. -/
def recordedLine : Value → Checked Nat := natAtLeast 0

/-- The head of a recorded element. -/
def Head.ofRecord (es : Entries) : Checked Head :=
  (fun name line endLine => ⟨name, line, endLine, none⟩) <$> required es "name" text <*>
    required es "line" recordedLine <*> required es "end_line" (optional recordedLine)

/-- A recorded argument. -/
def Argument.ofRecord : Value → Checked Argument :=
  ofFields "Argument" fun es =>
    Argument.mk <$> required es "name" text <*> required es "default" (optional text) <*>
      required es "type" (optional text)

/-- A recorded inclusion. -/
def Inclusion.ofRecord : Value → Checked Inclusion :=
  ofFields "Include" fun es =>
    Inclusion.mk <$> required es "name" text <*> required es "line" recordedLine <*>
      required es "type" (choice IncludeKind.choices)

/-- A recorded constant. -/
def ConstantDecl.ofRecord : Value → Checked ConstantDecl :=
  ofFields "Constant" fun es =>
    ConstantDecl.mk <$> required es "name" text <*> required es "line" recordedLine <*>
      required es "value" (optional text)

/-- A recorded hook. -/
def Hook.ofRecord : Value → Checked Hook :=
  ofFields "Hook" fun es =>
    Hook.mk <$> Head.ofRecord es <*> required es "type" (choice HookKind.choices) <*>
      required es "arguments" (listOf text)

/-- The recorded body of a function or method. -/
def Body.ofRecord (es : Entries) : Checked Body :=
  (fun arguments hooks => ⟨arguments, [], hooks⟩) <$>
    required es "arguments" (listOf Argument.ofRecord) <*> required es "hooks" (listOf Hook.ofRecord)

/-- A recorded function. -/
def FunctionDecl.ofRecord : Value → Checked FunctionDecl :=
  ofFields "Function" fun es => FunctionDecl.mk <$> Head.ofRecord es <*> Body.ofRecord es

/-- A recorded method. -/
def MethodDecl.ofRecord : Value → Checked MethodDecl :=
  ofFields "Method" fun es =>
    MethodDecl.mk <$> Head.ofRecord es <*> Body.ofRecord es <*>
      required es "visibility" (choice Visibility.choices) <*> required es "static" truth <*>
      required es "final" truth <*> required es "abstract" truth

/-- A recorded property, which has a doc comment if its record has one. -/
def PropertyDecl.ofRecord : Value → Checked PropertyDecl :=
  ofFields "Property" fun es =>
    (fun head default visibility isStatic =>
      ⟨{ head with docblock := if es.has "doc" then some .blank else none }, default, visibility,
        isStatic⟩) <$> Head.ofRecord es <*> required es "default" (optional text) <*>
      required es "visibility" (choice Visibility.choices) <*> required es "static" truth

/-- A recorded class. -/
def ClassDecl.ofRecord : Value → Checked ClassDecl :=
  ofFields "ClassElement" fun es =>
    ClassDecl.mk <$> Head.ofRecord es <*> required es "final" truth <*>
      required es "abstract" truth <*> required es "extends" (optional text) <*>
      required es "implements" (listOf text) <*>
      required es "properties" (listOf PropertyDecl.ofRecord) <*>
      required es "methods" (listOf MethodDecl.ofRecord)

/-- A recorded file; what its record leaves out is empty. -/
def SourceFile.ofRecord : Value → Checked SourceFile :=
  ofFields "ReflectedFile" fun es =>
    (fun includes constants hooks functions classes =>
      ⟨"", none, includes, constants, [], hooks, functions, classes⟩) <$>
      field es "includes" [] (listOf Inclusion.ofRecord) <*>
      field es "constants" [] (listOf ConstantDecl.ofRecord) <*>
      field es "hooks" [] (listOf Hook.ofRecord) <*>
      field es "functions" [] (listOf FunctionDecl.ofRecord) <*>
      field es "classes" [] (listOf ClassDecl.ofRecord)

/-! ## Fields and lists -/

theorem optional_text_optStr (s : Option String) : optional text (.optStr s) = .ok s := by
  cases s <;> rfl

theorem recordedLine_nat (n : Nat) : recordedLine (.nat n) = .ok n := natAtLeast_nat (Nat.zero_le n)

theorem optional_recordedLine_optNat (n : Option Nat) :
    optional recordedLine (.optNat n) = .ok n := by
  cases n with
  | none => rfl
  | some n =>
    show (recordedLine (.nat n)).map some = _
    rw [recordedLine_nat]
    rfl

section Lists

variable {α : Type} {read : Value → Checked α} {bare : α → α}

/-- Items that are each read as what they were exported from are read so together. -/
theorem listOf_of_forall₂ {xs : List α} {vs : List Value}
    (h : List.Forall₂ (fun x v => read v = .ok (bare x)) xs vs) :
    listOf read (.list vs) = .ok (xs.map bare) :=
  listOf_eq_ok_iff.2 ⟨vs, rfl, List.forall₂_map_right_iff.2 h.flip⟩

/-- An export over a list is read back if the export of each item is. -/
theorem listOf_of_mapM {ε : Type} {exported : α → Traced ε Value}
    (h : ∀ x v, (exported x).outcome = .ok v → read v = .ok (bare x)) {xs : List α}
    {vs : List Value} (hvs : (xs.mapM exported).outcome = .ok vs) :
    listOf read (.list vs) = .ok (xs.map bare) :=
  listOf_of_forall₂ ((Traced.outcome_mapM_eq_ok_iff.1 hvs).imp fun x v => h x v)

end Lists

/-! ## Elements -/

theorem Head.ofRecord_headFields (h : Head) (more : List (String × Value)) :
    Head.ofRecord (fieldEntries (Exporter.headFields h ++ more)) = .ok h.bare := by
  rw [Head.ofRecord, seq_eq_ok_iff]
  simp only [exists_seq_eq_ok_iff, exists_fmap_eq_ok_iff, required_eq_ok_iff]
  exact ⟨_, ⟨_, rfl, rfl⟩, _, ⟨_, rfl, recordedLine_nat _⟩, _,
    ⟨_, rfl, optional_recordedLine_optNat _⟩, rfl⟩

theorem Argument.ofRecord_record (a : Argument) : Argument.ofRecord (.record
    [("name", .str a.name), ("default", .optStr a.default), ("type", .optStr a.type)]) = .ok a := by
  refine ofFields_eq_ok_iff.2 ⟨_, rfl, ?_⟩
  rw [seq_eq_ok_iff]
  simp only [exists_seq_eq_ok_iff, exists_fmap_eq_ok_iff, required_eq_ok_iff]
  exact ⟨_, ⟨_, rfl, rfl⟩, _, ⟨_, rfl, optional_text_optStr _⟩, _, ⟨_, rfl, optional_text_optStr _⟩,
    rfl⟩

theorem Inclusion.ofRecord_record (i : Inclusion) : Inclusion.ofRecord (.record
    [("name", .str i.name), ("line", .nat i.line), ("type", .str i.kind.name)]) = .ok i := by
  refine ofFields_eq_ok_iff.2 ⟨_, rfl, ?_⟩
  rw [seq_eq_ok_iff]
  simp only [exists_seq_eq_ok_iff, exists_fmap_eq_ok_iff, required_eq_ok_iff]
  exact ⟨_, ⟨_, rfl, rfl⟩, _, ⟨_, rfl, recordedLine_nat _⟩, _, ⟨_, rfl, IncludeKind.choice_name _⟩,
    rfl⟩

theorem ConstantDecl.ofRecord_record (c : ConstantDecl) : ConstantDecl.ofRecord (.record
    [("name", .str c.name), ("line", .nat c.line), ("value", .optStr c.value)]) = .ok c := by
  refine ofFields_eq_ok_iff.2 ⟨_, rfl, ?_⟩
  rw [seq_eq_ok_iff]
  simp only [exists_seq_eq_ok_iff, exists_fmap_eq_ok_iff, required_eq_ok_iff]
  exact ⟨_, ⟨_, rfl, rfl⟩, _, ⟨_, rfl, recordedLine_nat _⟩, _, ⟨_, rfl, optional_text_optStr _⟩, rfl⟩

section Exporters

variable {x : Exporter}

theorem Hook.ofRecord_hook {h : Hook} {v : Value} (hv : (x.hook h).outcome = .ok v) :
    Hook.ofRecord v = .ok h.bare := by
  obtain ⟨doc, -, hdoc⟩ := Traced.outcome_bind_eq_ok_iff.1 hv
  cases hdoc
  refine ofFields_eq_ok_iff.2 ⟨_, rfl, ?_⟩
  rw [seq_eq_ok_iff]
  simp only [exists_seq_eq_ok_iff, exists_fmap_eq_ok_iff, required_eq_ok_iff]
  exact ⟨_, Head.ofRecord_headFields h.head _, _, ⟨_, rfl, HookKind.choice_name _⟩, _,
    ⟨_, rfl, listOf_text_strs _⟩, rfl⟩

/-- A property without a doc comment has no field for it. -/
theorem PropertyDecl.ofRecord_property {p : PropertyDecl} {v : Value}
    (hv : (x.property p).outcome = .ok v) : PropertyDecl.ofRecord v = .ok p.bare := by
  obtain ⟨more, rfl, hdoc⟩ : ∃ more, v = .record (Exporter.headFields p.head ++
      ([("default", .optStr p.default), ("static", .bool p.isStatic),
        ("visibility", .str p.visibility.name)] ++ more)) ∧
      (fieldEntries more).has "doc" = p.head.docblock.isSome := by
    rw [Exporter.property] at hv
    cases hsome : p.head.docblock with
    | none =>
      rw [hsome] at hv
      cases hv
      exact ⟨[], rfl, rfl⟩
    | some d =>
      rw [hsome] at hv
      obtain ⟨doc, -, hdoc⟩ := Traced.outcome_bind_eq_ok_iff.1 hv
      cases hdoc
      exact ⟨[("doc", doc)], rfl, rfl⟩
  refine ofFields_eq_ok_iff.2 ⟨_, rfl, ?_⟩
  rw [seq_eq_ok_iff]
  simp only [exists_seq_eq_ok_iff, exists_fmap_eq_ok_iff, required_eq_ok_iff]
  refine ⟨_, Head.ofRecord_headFields p.head _, _, ⟨_, rfl, optional_text_optStr _⟩, _,
    ⟨_, rfl, Visibility.choice_name _⟩, _, ⟨_, rfl, rfl⟩, ?_⟩
  -- what is known of the doc comment is that there is one
  have hblank : (if (fieldEntries more).has "doc" then some Docblock.blank else none) =
      p.head.docblock.map fun _ => .blank := by
    rw [hdoc]
    cases p.head.docblock <;> rfl
  exact congrArg (fun d => PropertyDecl.mk { p.head with docblock := d } p.default p.visibility
    p.isStatic) hblank

/-- A body is read back behind the fields of its element. -/
theorem Body.ofRecord_bodyFields {b : Body} {fields : List (String × Value)}
    (hfields : (x.bodyFields b).outcome = .ok fields) {es : Entries}
    (harguments : es.get? "arguments" = some (exportArguments b.arguments))
    (hhooks : es.get? "hooks" = (fieldEntries fields).get? "hooks") :
    Body.ofRecord es = .ok b.bare := by
  obtain ⟨hooks, hrecorded, hread⟩ : ∃ hooks, (fieldEntries fields).get? "hooks" = some hooks ∧
      listOf Hook.ofRecord hooks = .ok (b.hooks.map Hook.bare) := by
    rw [Exporter.bodyFields] at hfields
    split at hfields
    · obtain ⟨uses, -, hfields⟩ := Traced.outcome_bind_eq_ok_iff.1 hfields
      obtain ⟨hooks, hexported, hfields⟩ := Traced.outcome_bind_eq_ok_iff.1 hfields
      cases hfields
      exact ⟨_, rfl, listOf_of_mapM (fun _ _ => Hook.ofRecord_hook) hexported⟩
    · next hnone =>
      cases hfields
      -- a body that refers to nothing fires no hooks
      have hempty : b.hooks = [] := by
        rw [Body.refersToOthers, Bool.or_eq_true, not_or] at hnone
        simpa using hnone.2
      rw [hempty]
      exact ⟨_, rfl, rfl⟩
  rw [Body.ofRecord, seq_eq_ok_iff]
  simp only [exists_fmap_eq_ok_iff, required_eq_ok_iff]
  exact ⟨_, ⟨_, harguments, listOf_map fun a _ => Argument.ofRecord_record a⟩, _,
    ⟨_, hhooks.trans hrecorded, hread⟩, rfl⟩

theorem FunctionDecl.ofRecord_function {f : FunctionDecl} {v : Value}
    (hv : (x.function f).outcome = .ok v) : FunctionDecl.ofRecord v = .ok f.bare := by
  obtain ⟨doc, -, hv⟩ := Traced.outcome_bind_eq_ok_iff.1 hv
  obtain ⟨references, hreferences, hv⟩ := Traced.outcome_bind_eq_ok_iff.1 hv
  cases hv
  refine ofFields_eq_ok_iff.2 ⟨_, rfl, ?_⟩
  rw [seq_eq_ok_iff]
  simp only [exists_fmap_eq_ok_iff]
  refine ⟨_, ?_, _, Body.ofRecord_bodyFields hreferences rfl rfl, rfl⟩
  exact Head.ofRecord_headFields f.head _

theorem MethodDecl.ofRecord_method {m : MethodDecl} {v : Value}
    (hv : (x.method m).outcome = .ok v) : MethodDecl.ofRecord v = .ok m.bare := by
  obtain ⟨doc, -, hv⟩ := Traced.outcome_bind_eq_ok_iff.1 hv
  obtain ⟨references, hreferences, hv⟩ := Traced.outcome_bind_eq_ok_iff.1 hv
  cases hv
  refine ofFields_eq_ok_iff.2 ⟨_, rfl, ?_⟩
  rw [seq_eq_ok_iff]
  simp only [exists_seq_eq_ok_iff, exists_fmap_eq_ok_iff, required_eq_ok_iff]
  refine ⟨_, ?_, _, Body.ofRecord_bodyFields hreferences rfl rfl, _,
    ⟨_, rfl, Visibility.choice_name _⟩, _, ⟨_, rfl, rfl⟩, _, ⟨_, rfl, rfl⟩, _, ⟨_, rfl, rfl⟩, rfl⟩
  exact Head.ofRecord_headFields m.head _

theorem ClassDecl.ofRecord_classDecl {c : ClassDecl} {v : Value}
    (hv : (x.classDecl c).outcome = .ok v) : ClassDecl.ofRecord v = .ok c.bare := by
  obtain ⟨properties, hproperties, hv⟩ := Traced.outcome_bind_eq_ok_iff.1 hv
  obtain ⟨methods, hmethods, hv⟩ := Traced.outcome_bind_eq_ok_iff.1 hv
  obtain ⟨doc, -, hv⟩ := Traced.outcome_bind_eq_ok_iff.1 hv
  cases hv
  refine ofFields_eq_ok_iff.2 ⟨_, rfl, ?_⟩
  rw [seq_eq_ok_iff]
  simp only [exists_seq_eq_ok_iff, exists_fmap_eq_ok_iff, required_eq_ok_iff]
  exact ⟨_, Head.ofRecord_headFields c.head _, _, ⟨_, rfl, rfl⟩, _, ⟨_, rfl, rfl⟩, _,
    ⟨_, rfl, optional_text_optStr _⟩, _, ⟨_, rfl, listOf_text_strs _⟩, _,
    ⟨_, rfl, listOf_of_mapM (fun _ _ => PropertyDecl.ofRecord_property) hproperties⟩, _,
    ⟨_, rfl, listOf_of_mapM (fun _ _ => MethodDecl.ofRecord_method) hmethods⟩, rfl⟩

end Exporters

/-! ## Files -/

/-- The parts of a file that its record has only where there is something in them. -/
def SourceFile.optionalParts (f : SourceFile) : List (String × Bool) :=
  [("uses", f.uses.isEmpty), ("includes", f.includes.isEmpty), ("constants", f.constants.isEmpty),
   ("hooks", f.hooks.isEmpty), ("functions", f.functions.isEmpty), ("classes", f.classes.isEmpty)]

/-- The keys of the record of a file. -/
def SourceFile.recordKeys (f : SourceFile) : List String :=
  ["file", "path", "root"] ++ f.optionalParts.flatMap fun part => if part.2 then [] else [part.1]

theorem keys_unlessEmpty {α : Type} (xs : List α) (name : String) (v : Value) :
    (Exporter.unlessEmpty xs name v).map Prod.fst = if xs.isEmpty then [] else [name] := by
  cases xs <;> rfl

theorem get?_append (name : String) (a b : List (String × Value)) :
    (fieldEntries (a ++ b)).get? name = ((fieldEntries a).get? name).or ((fieldEntries b).get? name) := by
  induction a with
  | nil => rfl
  | cons e a ih =>
    show (if Scalar.str e.1 = .str name then some e.2 else (fieldEntries (a ++ b)).get? name) =
      Option.or (if Scalar.str e.1 = .str name then some e.2 else (fieldEntries a).get? name) _
    split
    · rfl
    · exact ih

theorem get?_unlessEmpty {α : Type} (xs : List α) (key name : String) (v : Value) :
    (fieldEntries (Exporter.unlessEmpty xs key v)).get? name =
      if key = name then if xs.isEmpty then none else some v else none := by
  rw [Exporter.unlessEmpty]
  cases xs with
  | nil => exact (ite_self none).symm
  | cons a xs =>
    show (if Scalar.str key = .str name then some v else none) = _
    simp only [Scalar.str.injEq]
    rfl

/-- What a record leaves out is read as the empty list that it is. -/
theorem field_eq_ok_of_unlessEmpty {α β : Type} {read : Value → Checked β} {es : Entries}
    {name : String} {xs : List α} {ys : List β} {v : Value}
    (hget : es.get? name = if xs.isEmpty then none else some v)
    (hlength : ys.length = xs.length) (hread : listOf read v = .ok ys) :
    field es name [] (listOf read) = .ok ys := by
  cases xs with
  | nil => exact field_eq_ok_iff.2 (.inr ⟨hget, List.length_eq_zero_iff.1 hlength⟩)
  | cons a xs => exact field_eq_ok_iff.2 (.inl ⟨v, hget, hread⟩)

/-- **The record of a file keeps its structure.** -/
theorem SourceFile.ofRecord_file {x : Exporter} {root : String} {f : SourceFile} {v : Value}
    (h : (x.file root f).outcome = .ok v) :
    (∃ fields, v = .record fields ∧ fields.map Prod.fst = f.recordKeys) ∧
      SourceFile.ofRecord v = .ok f.bare := by
  obtain ⟨doc, -, h⟩ := Traced.outcome_bind_eq_ok_iff.1 h
  obtain ⟨_, -, h⟩ := Traced.outcome_bind_eq_ok_iff.1 h
  obtain ⟨uses, -, h⟩ := Traced.outcome_bind_eq_ok_iff.1 h
  obtain ⟨hooks, hhooks, h⟩ := Traced.outcome_bind_eq_ok_iff.1 h
  obtain ⟨functions, hfunctions, h⟩ := Traced.outcome_bind_eq_ok_iff.1 h
  obtain ⟨classes, hclasses, h⟩ := Traced.outcome_bind_eq_ok_iff.1 h
  cases h
  constructor
  · refine ⟨_, rfl, ?_⟩
    simp only [List.map_append, keys_unlessEmpty, SourceFile.recordKeys, SourceFile.optionalParts,
      List.flatMap_cons, List.flatMap_nil, List.append_nil, List.append_assoc]
    rfl
  · refine ofFields_eq_ok_iff.2 ⟨_, rfl, ?_⟩
    rw [seq_eq_ok_iff]
    simp only [exists_seq_eq_ok_iff, exists_fmap_eq_ok_iff]
    refine ⟨_, field_eq_ok_of_unlessEmpty ?_ rfl (listOf_map fun i _ => Inclusion.ofRecord_record i),
      _, field_eq_ok_of_unlessEmpty ?_ rfl (listOf_map fun c _ => ConstantDecl.ofRecord_record c),
      _, field_eq_ok_of_unlessEmpty ?_ (List.length_map _)
        (listOf_of_mapM (fun _ _ => Hook.ofRecord_hook) hhooks),
      _, field_eq_ok_of_unlessEmpty ?_ (List.length_map _)
        (listOf_of_mapM (fun _ _ => FunctionDecl.ofRecord_function) hfunctions),
      _, field_eq_ok_of_unlessEmpty ?_ (List.length_map _)
        (listOf_of_mapM (fun _ _ => ClassDecl.ofRecord_classDecl) hclasses), rfl⟩
    all_goals
      -- of the parts of the record, one has the name that is looked up
      refine Eq.trans (b := (fieldEntries (_ ++ _)).get? _) rfl ?_
      simp only [get?_append, get?_unlessEmpty, String.reduceEq, if_true, if_false, Option.or_none]
      rfl

/-- **The record of a file keeps its structure.** Where the export succeeds, its record has the file,
the path, the root and then the parts that the file has, in a fixed order; reading it back gives all
elements of the file, without its path, its uses and the texts of doc comments. So only files that agree
on all of this have the same record, under whatever root and by whichever exporter it was made. -/
theorem outcome_file_structure {x : Exporter} {root : String} {f : SourceFile} {v : Value}
    (h : (x.file root f).outcome = .ok v) :
    (∃ fields, v = .record fields ∧ fields.map Prod.fst = f.recordKeys) ∧
      SourceFile.ofRecord v = .ok f.bare ∧
      ∀ (y : Exporter) (base : String) (g : SourceFile), (y.file base g).outcome = .ok v →
        g.bare = f.bare := by
  obtain ⟨hkeys, hread⟩ := SourceFile.ofRecord_file h
  refine ⟨hkeys, hread, fun y base g hg => ?_⟩
  exact Checked.ok.inj ((SourceFile.ofRecord_file hg).2.symm.trans hread)

/-- A file with a constant, an empty group of uses and a class, one of whose properties has a doc
comment. -/
theorem outcome_file_structure_class :
    ∃ v, ((⟨⟨⟨.standard, 3, true⟩, false⟩, ["_deprecated_file"]⟩ : Exporter).file "/src"
        ⟨"/src/a.php", none, [], [⟨"A", 2, some "1"⟩], [("functions", [])], [], [],
          [⟨⟨"C", 3, some 9, none⟩, true, false, none, ["I"],
            [⟨⟨"$p", 4, none, some ⟨"Kept.", "", []⟩⟩, none, .owner, true⟩,
              ⟨⟨"$q", 5, none, none⟩, some "2", .everyone, false⟩],
            [⟨⟨"m", 6, some 8, none⟩,
              ⟨[⟨"$x", some "3", none⟩], [], [⟨⟨"h", 7, none, none⟩, .filter, ["$x"]⟩]⟩,
              .family, false, true, false⟩]⟩]⟩).outcome = .ok v ∧
      (∃ fields, v = .record fields ∧
        fields.map Prod.fst = ["file", "path", "root", "uses", "constants", "classes"]) ∧
      SourceFile.ofRecord v = .ok
        ⟨"", none, [], [⟨"A", 2, some "1"⟩], [], [], [],
          [⟨⟨"C", 3, some 9, none⟩, true, false, none, ["I"],
            [⟨⟨"$p", 4, none, some .blank⟩, none, .owner, true⟩,
              ⟨⟨"$q", 5, none, none⟩, some "2", .everyone, false⟩],
            [⟨⟨"m", 6, some 8, none⟩,
              ⟨[⟨"$x", some "3", none⟩], [], [⟨⟨"h", 7, none, none⟩, .filter, ["$x"]⟩]⟩,
              .family, false, true, false⟩]⟩]⟩ := by
  refine Exists.imp (fun v hv =>
    ⟨hv, (outcome_file_structure hv).1, (outcome_file_structure hv).2.1⟩) ?_
  exact ⟨_, rfl⟩

end DocTree
