import DocTree.Proofs.Log.Outcome
import DocTree.Proofs.Source.Classifying
import DocTree.Record.Element

/-!
# Strict and lenient export of a file

A lenient export keeps the text of a hash that cannot be read, a strict one fails there. Nothing else
tells them apart: the lenient export of a file always has a record, and the strict one has the same
record unless a doc comment has a bad hash; then it fails with the first of these, laid at the owner of
that doc comment (`outcome_file_strict`).

## Shape of the proof

`FailsOnlyFor fault lenient strict` says so of one computation. It holds of what returns a value, and it
passes through sequences, lists and the relabelling of failures, where the first fault wins; so each
exporter needs only its own steps named, and its faults come out in the order in which it takes its
parts. `SourceFile.owners` lists the owners of doc comments in that order.
-/

namespace DocTree

/-! ## Computations that fail only for a fault -/

/-- The lenient computation has a result; the strict one has the same, or fails with the fault. -/
def FailsOnlyFor {ε α : Type} (fault : Option ε) (lenient strict : Traced ε α) : Prop :=
  ∃ a, lenient.outcome = .ok a ∧ strict.outcome = fault.elim (.ok a) .error

namespace FailsOnlyFor

variable {ε ε' α β : Type} {x y : Traced ε α}

/-- A computation that succeeds does so in either mode. -/
theorem of_ok {a : α} (h : x.outcome = .ok a) : FailsOnlyFor none x x := ⟨a, h, h⟩

theorem pure (a : α) : FailsOnlyFor none (pure a : Traced ε α) (Pure.pure a) := of_ok rfl

/-- The first of two steps faults first. -/
theorem bind {fault later : Option ε} {f g : α → Traced ε β} (h : FailsOnlyFor fault x y)
    (hf : ∀ a, FailsOnlyFor later (f a) (g a)) :
    FailsOnlyFor (fault.or later) (x >>= f) (y >>= g) := by
  obtain ⟨a, hx, hy⟩ := h
  obtain ⟨b, hfa, hga⟩ := hf a
  refine ⟨b, by rw [Traced.outcome_bind_of_ok hx, hfa], ?_⟩
  cases fault with
  | none => rw [Traced.outcome_bind_of_ok hy, hga, Option.none_or]
  | some e => exact Traced.outcome_bind_of_error hy g

/-- A first step that succeeds in both modes leaves the fault to the second. -/
theorem bind_of_ok {fault : Option ε} {f g : α → Traced ε β} {a : α} (hx : x.outcome = .ok a)
    (hf : ∀ a, FailsOnlyFor fault (f a) (g a)) : FailsOnlyFor fault (x >>= f) (x >>= g) := by
  rw [← Option.none_or (o := fault)]
  exact (of_ok hx).bind hf

/-- What only arranges a result does not fault. -/
theorem bind_pure {fault : Option ε} (h : FailsOnlyFor fault x y) (f : α → β) :
    FailsOnlyFor fault (x >>= fun a => Pure.pure (f a)) (y >>= fun a => Pure.pure (f a)) := by
  rw [← Option.or_none (o := fault)]
  exact h.bind fun a => .pure (f a)

/-- The first item of a list to fault is the fault of the list. -/
theorem mapM {fault : α → Option ε} {f g : α → Traced ε β}
    (h : ∀ a, FailsOnlyFor (fault a) (f a) (g a)) (l : List α) :
    FailsOnlyFor (l.findSome? fault) (l.mapM f) (l.mapM g) := by
  induction l with
  | nil => exact .pure []
  | cons a l ih =>
    have hcons : (a :: l).findSome? fault = (fault a).or (l.findSome? fault) := by
      rw [List.findSome?_cons]
      cases fault a <;> rfl
    rw [hcons, List.mapM_cons, List.mapM_cons]
    exact (h a).bind fun b => ih.bind_pure (b :: ·)

/-- A fault is relabelled with the failures. -/
theorem mapError {fault : Option ε} (h : FailsOnlyFor fault x y) (f : ε → ε') :
    FailsOnlyFor (fault.map f) (x.mapError f) (y.mapError f) := by
  obtain ⟨a, hx, hy⟩ := h
  refine ⟨a, by rw [Traced.outcome_mapError, hx]; rfl, ?_⟩
  rw [Traced.outcome_mapError, hy]
  cases fault <;> rfl

/-- The strict computation succeeds where there is no fault, with the lenient result. -/
theorem outcome_eq_ok_iff {fault : Option ε} {a : α} (hx : x.outcome = .ok a)
    (h : FailsOnlyFor fault x y) (b : α) : y.outcome = .ok b ↔ fault = none ∧ b = a := by
  obtain ⟨a', hx', hy⟩ := h
  obtain rfl : a = a' := Except.ok.inj (hx.symm.trans hx')
  rw [hy]
  cases fault with
  | none =>
    simp only [Option.elim, Except.ok.injEq, true_and]
    exact eq_comm
  | some e => simp only [Option.elim, reduceCtorEq, false_and]

/-- The strict computation fails with the fault, and with nothing else. -/
theorem outcome_eq_error_iff {fault : Option ε} (h : FailsOnlyFor fault x y) (e : ε) :
    y.outcome = .error e ↔ fault = some e := by
  obtain ⟨a, -, hy⟩ := h
  rw [hy]
  cases fault with
  | none => simp only [Option.elim, reduceCtorEq]
  | some e' => simp only [Option.elim, Except.error.injEq, Option.some.injEq]

end FailsOnlyFor

/-! ## Bad hashes -/

/-- The annotation is a parameter whose text, on one line, starts with a brace and is no hash. -/
def Tag.BadHash (dialect : Hash.Dialect) (t : Tag) (e : Hash.Error) : Prop :=
  t.name = "param" ∧ (Text.trimLeft (oneLine t.content).toList).head? = some '{' ∧
    Hash.parse dialect (oneLine t.content).toList = .error e

/-- What has a doc comment: a file, or an element of one. -/
inductive Owner where
  | file (path : String) (docblock : Option Docblock)
  | element (kind : String) (head : Head)

namespace Owner

/-- The doc comment of an owner. -/
def docblock : Owner → Option Docblock
  | file _ d => d
  | element _ h => h.docblock

/-- The failure that names an owner. -/
def blame : Owner → Hash.Error → ExportError
  | file path _, e => .file ⟨hashCause e, path, some "file docblock"⟩
  | element kind h, e => .element ⟨hashCause e, kind, h.name, some h.line⟩

/-- The doc comment of the owner has a bad hash. -/
def Bad (dialect : Hash.Dialect) (o : Owner) : Prop :=
  ∃ d, o.docblock = some d ∧ ∃ t ∈ d.tags, ∃ e, t.BadHash dialect e

/-- The first bad hash in the doc comment of the owner is bad for this reason. -/
def FirstBad (dialect : Hash.Dialect) (o : Owner) (e : Hash.Error) : Prop :=
  ∃ d, o.docblock = some d ∧ ∃ before t after, d.tags = before ++ t :: after ∧
    t.BadHash dialect e ∧ ∀ u ∈ before, ∀ e', ¬u.BadHash dialect e'

end Owner

/-- A hook as an owner. -/
def Hook.owner (h : Hook) : Owner := .element "hook" h.head

/-- The owners in a function: the function, then its hooks. -/
def FunctionDecl.owners (f : FunctionDecl) : List Owner :=
  .element "function" f.head :: f.body.hooks.map Hook.owner

/-- The owners in a method: the method, then its hooks. -/
def MethodDecl.owners (m : MethodDecl) : List Owner :=
  .element "method" m.head :: m.body.hooks.map Hook.owner

/-- A property as an owner. -/
def PropertyDecl.owner (p : PropertyDecl) : Owner := .element "property" p.head

/-- The owners in a class: its properties, its methods, and the class itself at the end. -/
def ClassDecl.owners (c : ClassDecl) : List Owner :=
  c.properties.map PropertyDecl.owner ++ c.methods.flatMap MethodDecl.owners ++
    [.element "class" c.head]

/-- The owners of doc comments in a file, in the order in which they are exported. -/
def SourceFile.owners (f : SourceFile) : List Owner :=
  .file f.path f.docblock :: (f.hooks.map Hook.owner ++ f.functions.flatMap FunctionDecl.owners ++
    f.classes.flatMap ClassDecl.owners)

/-! ## The first fault -/

/-- The fault of an annotation whose text is a bad hash. -/
def Tag.hashFault? (dialect : Hash.Dialect) (t : Tag) : Option Hash.Error :=
  if t.name == hashTagName && Hash.looksLikeHash (oneLine t.content).toList then
    fault? (Hash.parse dialect (oneLine t.content).toList)
  else none

/-- The fault of the first bad hash in a doc comment. -/
def Owner.hashFault? (dialect : Hash.Dialect) (o : Owner) : Option Hash.Error :=
  o.docblock.bind fun d => d.tags.findSome? (Tag.hashFault? dialect)

/-- The failure of an owner with a bad hash. -/
def Owner.failure? (dialect : Hash.Dialect) (o : Owner) : Option ExportError :=
  (o.hashFault? dialect).map o.blame

/-- The failure of the first owner with a bad hash. -/
def firstFailure? (dialect : Hash.Dialect) (os : List Owner) : Option ExportError :=
  os.findSome? (Owner.failure? dialect)

theorem Tag.hashFault?_eq_some_iff {dialect : Hash.Dialect} {t : Tag} {e : Hash.Error} :
    t.hashFault? dialect = some e ↔ t.BadHash dialect e := by
  have hlooks : (t.name == hashTagName && Hash.looksLikeHash (oneLine t.content).toList) = true ↔
      t.name = "param" ∧ (Text.trimLeft (oneLine t.content).toList).head? = some '{' := by
    rw [Bool.and_eq_true, beq_iff_eq, Hash.looksLikeHash, beq_iff_eq, hashTagName]
  rw [Tag.hashFault?, Tag.BadHash, ← and_assoc, ← hlooks]
  split
  · next h => rw [fault?_eq_some_iff, and_iff_right h]
  · next h => simp only [reduceCtorEq, h, false_and]

theorem Tag.hashFault?_eq_none_iff {dialect : Hash.Dialect} {t : Tag} :
    t.hashFault? dialect = none ↔ ∀ e, ¬t.BadHash dialect e := by
  simp only [Option.eq_none_iff_forall_ne_some, ne_eq, Tag.hashFault?_eq_some_iff]

theorem Owner.hashFault?_eq_some_iff {dialect : Hash.Dialect} {o : Owner} {e : Hash.Error} :
    o.hashFault? dialect = some e ↔ o.FirstBad dialect e := by
  simp only [Owner.hashFault?, Option.bind_eq_some_iff, List.findSome?_eq_some_iff,
    Tag.hashFault?_eq_some_iff, Tag.hashFault?_eq_none_iff, Owner.FirstBad]

theorem Owner.failure?_eq_none_iff {dialect : Hash.Dialect} {o : Owner} :
    o.failure? dialect = none ↔ ¬o.Bad dialect := by
  simp only [Owner.failure?, Option.map_eq_none_iff, Owner.hashFault?, Option.bind_eq_none_iff,
    List.findSome?_eq_none_iff, Tag.hashFault?_eq_none_iff, Owner.Bad, not_exists, not_and]

theorem firstFailure?_eq_none_iff {dialect : Hash.Dialect} {os : List Owner} :
    firstFailure? dialect os = none ↔ ∀ o ∈ os, ¬o.Bad dialect := by
  simp only [firstFailure?, List.findSome?_eq_none_iff, Owner.failure?_eq_none_iff]

theorem firstFailure?_eq_some_iff {dialect : Hash.Dialect} {os : List Owner} {err : ExportError} :
    firstFailure? dialect os = some err ↔
      ∃ before o after e, os = before ++ o :: after ∧ (∀ p ∈ before, ¬p.Bad dialect) ∧
        o.FirstBad dialect e ∧ err = o.blame e := by
  simp only [firstFailure?, List.findSome?_eq_some_iff, Owner.failure?_eq_none_iff]
  constructor
  · rintro ⟨before, o, after, hsplit, hfail, hbefore⟩
    obtain ⟨e, he, rfl⟩ := Option.map_eq_some_iff.1 hfail
    exact ⟨before, o, after, e, hsplit, hbefore, Owner.hashFault?_eq_some_iff.1 he, rfl⟩
  · rintro ⟨before, o, after, e, hsplit, hbefore, he, rfl⟩
    have hfail := congrArg (Option.map o.blame) (Owner.hashFault?_eq_some_iff.2 he)
    exact ⟨before, o, after, hsplit, hfail, hbefore⟩

theorem firstFailure?_cons (dialect : Hash.Dialect) (o : Owner) (os : List Owner) :
    firstFailure? dialect (o :: os) = (o.failure? dialect).or (firstFailure? dialect os) := by
  rw [firstFailure?, List.findSome?_cons]
  cases o.failure? dialect <;> rfl

theorem firstFailure?_append (dialect : Hash.Dialect) (os ps : List Owner) :
    firstFailure? dialect (os ++ ps) = (firstFailure? dialect os).or (firstFailure? dialect ps) :=
  List.findSome?_append

theorem firstFailure?_map {α : Type} (dialect : Hash.Dialect) (owner : α → Owner) (l : List α) :
    firstFailure? dialect (l.map owner) = l.findSome? fun a => (owner a).failure? dialect :=
  List.findSome?_map

theorem firstFailure?_flatMap {α : Type} (dialect : Hash.Dialect) (owners : α → List Owner)
    (l : List α) : firstFailure? dialect (l.flatMap owners) =
      l.findSome? fun a => firstFailure? dialect (owners a) := by
  induction l with
  | nil => rfl
  | cons a l ih =>
    rw [List.flatMap_cons, firstFailure?_append, ih, List.findSome?_cons]
    cases firstFailure? dialect (owners a) <;> rfl

/-! ## The exporters -/

section Exporters

variable (dialect : Hash.Dialect) (markers : List String)

/-- The exporter that keeps the text of a bad hash. -/
def Exporter.lenient : Exporter := ⟨⟨dialect, true⟩, markers⟩

/-- The exporter that fails at a bad hash. -/
def Exporter.strict : Exporter := ⟨⟨dialect, false⟩, markers⟩

/-- The text of an annotation is the only thing that the two exporters treat differently. -/
theorem failsOnlyFor_tag (t : Tag) :
    FailsOnlyFor (t.hashFault? dialect) (Normalizer.tag ⟨dialect, true⟩ t)
      (Normalizer.tag ⟨dialect, false⟩ t) := by
  have hcontent : FailsOnlyFor (t.hashFault? dialect) (Normalizer.tagContent ⟨dialect, true⟩ t)
      (Normalizer.tagContent ⟨dialect, false⟩ t) := by
    rw [Normalizer.tagContent, Normalizer.tagContent, Tag.hashFault?]
    split
    · rw [Normalizer.hashContent, Normalizer.hashContent]
      split
      · next tree hparse =>
        rw [hparse]
        exact .of_ok rfl
      · next e hparse =>
        rw [hparse]
        exact ⟨_, rfl, rfl⟩
    · exact .pure _
  exact hcontent.bind_pure _

theorem failsOnlyFor_docblock (d : Option Docblock) :
    FailsOnlyFor (d.bind fun d => d.tags.findSome? (Tag.hashFault? dialect))
      (Normalizer.docblock ⟨dialect, true⟩ d) (Normalizer.docblock ⟨dialect, false⟩ d) := by
  cases d with
  | none => exact .pure emptyDoc
  | some d => exact (FailsOnlyFor.mapM (failsOnlyFor_tag dialect) d.tags).bind_pure _

/-- A failure in the doc comment of an element is laid at the element. -/
theorem failsOnlyFor_elementDoc (kind : String) (h : Head) :
    FailsOnlyFor ((Owner.element kind h).failure? dialect)
      ((Exporter.lenient dialect markers).elementDoc kind h)
      ((Exporter.strict dialect markers).elementDoc kind h) :=
  (failsOnlyFor_docblock dialect h.docblock).mapError _

/-- A failure in the doc comment of a file is laid at the file. -/
theorem failsOnlyFor_fileDoc (f : SourceFile) :
    FailsOnlyFor ((Owner.file f.path f.docblock).failure? dialect)
      ((Exporter.lenient dialect markers).fileDoc f) ((Exporter.strict dialect markers).fileDoc f) :=
  (failsOnlyFor_docblock dialect f.docblock).mapError _

theorem failsOnlyFor_hooks (hs : List Hook) :
    FailsOnlyFor (firstFailure? dialect (hs.map Hook.owner))
      ((Exporter.lenient dialect markers).hooks hs) ((Exporter.strict dialect markers).hooks hs) := by
  rw [firstFailure?_map]
  refine FailsOnlyFor.mapM (fun h => ?_) hs
  exact (failsOnlyFor_elementDoc dialect markers "hook" h.head).bind_pure _

/-- A property without a doc comment has no bad one. -/
theorem failsOnlyFor_property (p : PropertyDecl) :
    FailsOnlyFor (p.owner.failure? dialect) ((Exporter.lenient dialect markers).property p)
      ((Exporter.strict dialect markers).property p) := by
  rw [Exporter.property, Exporter.property]
  cases hdoc : p.head.docblock with
  | none =>
    have hnone : p.owner.failure? dialect = none := by
      rw [PropertyDecl.owner, Owner.failure?, Owner.hashFault?, Owner.docblock, hdoc]
      rfl
    rw [hnone]
    exact .pure _
  | some d => exact (failsOnlyFor_elementDoc dialect markers "property" p.head).bind_pure _

/-- A body that refers to nothing fires no hooks. -/
theorem failsOnlyFor_bodyFields (b : Body) :
    FailsOnlyFor (firstFailure? dialect (b.hooks.map Hook.owner))
      ((Exporter.lenient dialect markers).bodyFields b)
      ((Exporter.strict dialect markers).bodyFields b) := by
  rw [Exporter.bodyFields, Exporter.bodyFields]
  split
  · refine FailsOnlyFor.bind_of_ok rfl fun uses => ?_
    exact (failsOnlyFor_hooks dialect markers b.hooks).bind_pure _
  · next h =>
    have hnil : b.hooks = [] := by
      rw [Body.refersToOthers, Bool.or_eq_true, Bool.not_eq_true', Bool.not_eq_true', not_or,
        Bool.not_eq_false, Bool.not_eq_false] at h
      exact List.isEmpty_iff.1 h.2
    rw [hnil]
    exact .pure _

theorem failsOnlyFor_function (f : FunctionDecl) :
    FailsOnlyFor (firstFailure? dialect f.owners) ((Exporter.lenient dialect markers).function f)
      ((Exporter.strict dialect markers).function f) := by
  rw [FunctionDecl.owners, firstFailure?_cons]
  refine (failsOnlyFor_elementDoc dialect markers "function" f.head).bind fun doc => ?_
  exact (failsOnlyFor_bodyFields dialect markers f.body).bind_pure _

theorem failsOnlyFor_method (m : MethodDecl) :
    FailsOnlyFor (firstFailure? dialect m.owners) ((Exporter.lenient dialect markers).method m)
      ((Exporter.strict dialect markers).method m) := by
  rw [MethodDecl.owners, firstFailure?_cons]
  refine (failsOnlyFor_elementDoc dialect markers "method" m.head).bind fun doc => ?_
  exact (failsOnlyFor_bodyFields dialect markers m.body).bind_pure _

theorem failsOnlyFor_classDecl (c : ClassDecl) :
    FailsOnlyFor (firstFailure? dialect c.owners) ((Exporter.lenient dialect markers).classDecl c)
      ((Exporter.strict dialect markers).classDecl c) := by
  rw [ClassDecl.owners, List.append_assoc, firstFailure?_append, firstFailure?_append,
    firstFailure?_map, firstFailure?_flatMap]
  refine (FailsOnlyFor.mapM (failsOnlyFor_property dialect markers) c.properties).bind
    fun properties => ?_
  refine (FailsOnlyFor.mapM (failsOnlyFor_method dialect markers) c.methods).bind fun methods => ?_
  have hclass : firstFailure? dialect [.element "class" c.head] =
      (Owner.element "class" c.head).failure? dialect := List.findSome?_singleton
  rw [hclass]
  exact (failsOnlyFor_elementDoc dialect markers "class" c.head).bind_pure _

/-- The strict export of a file fails only for its first owner with a bad hash. -/
theorem failsOnlyFor_file (root : String) (f : SourceFile) :
    FailsOnlyFor (firstFailure? dialect f.owners) ((Exporter.lenient dialect markers).file root f)
      ((Exporter.strict dialect markers).file root f) := by
  rw [SourceFile.owners, firstFailure?_cons, List.append_assoc, firstFailure?_append,
    firstFailure?_append, firstFailure?_flatMap, firstFailure?_flatMap]
  refine (failsOnlyFor_fileDoc dialect markers f).bind fun doc => ?_
  -- notes and uses are written in either mode
  refine FailsOnlyFor.bind_of_ok rfl fun _ => ?_
  refine FailsOnlyFor.bind_of_ok rfl fun uses => ?_
  refine (failsOnlyFor_hooks dialect markers f.hooks).bind fun hooks => ?_
  refine (FailsOnlyFor.mapM (failsOnlyFor_function dialect markers) f.functions).bind
    fun functions => ?_
  exact (FailsOnlyFor.mapM (failsOnlyFor_classDecl dialect markers) f.classes).bind_pure _

/-- **Strict and lenient export differ only where a hash is bad**: the lenient export of a file has a
record, the strict one has that record if no doc comment is bad, and otherwise fails at the first bad
one, naming its owner. -/
theorem outcome_file_strict (root : String) (f : SourceFile) :
    ∃ record, ((Exporter.lenient dialect markers).file root f).outcome = .ok record ∧
      (∀ v, ((Exporter.strict dialect markers).file root f).outcome = .ok v ↔
        (∀ o ∈ f.owners, ¬o.Bad dialect) ∧ v = record) ∧
      ∀ err, ((Exporter.strict dialect markers).file root f).outcome = .error err ↔
        ∃ before o after e, f.owners = before ++ o :: after ∧ (∀ p ∈ before, ¬p.Bad dialect) ∧
          o.FirstBad dialect e ∧ err = o.blame e := by
  have hfile := failsOnlyFor_file dialect markers root f
  have ⟨record, hrecord, _⟩ := hfile
  refine ⟨record, hrecord, fun v => ?_, fun err => ?_⟩
  · rw [hfile.outcome_eq_ok_iff hrecord, firstFailure?_eq_none_iff]
  · rw [hfile.outcome_eq_error_iff, firstFailure?_eq_some_iff]

end Exporters

end DocTree
