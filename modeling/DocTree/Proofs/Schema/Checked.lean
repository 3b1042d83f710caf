import DocTree.Schema.Check

/-!
# What a check says

A check reads its document or finds faults. The `_eq_ok_iff` lemmas say of each way of building a check
when it reads and what; no proof about a shape opens the way its fields are combined. `Explained` says
that a check does not refuse without a reason: what is refused has at least one issue. `Spares` says that
none of the issues lies at or below some place.
-/

namespace DocTree.Schema

variable {α β : Type}

namespace Checked

/-! ## What is read -/

@[simp] theorem map_eq_ok_iff {f : α → β} {a : Checked α} {y : β} :
    a.map f = .ok y ↔ ∃ x, a = .ok x ∧ f x = y := by
  cases a <;> simp [map]

theorem fmap_eq_ok_iff {f : α → β} {a : Checked α} {y : β} :
    (f <$> a) = .ok y ↔ ∃ x, a = .ok x ∧ f x = y := map_eq_ok_iff

/-- Both parts are read. -/
theorem seq_eq_ok_iff {f : Checked (α → β)} {a : Checked α} {y : β} :
    (f <*> a) = .ok y ↔ ∃ g, f = .ok g ∧ ∃ x, a = .ok x ∧ g x = y := by
  show both f a = .ok y ↔ _
  cases f <;> cases a <;> simp [both]

/-- The first field of a record is read before the others. -/
theorem exists_fmap_eq_ok_iff {f : α → β} {a : Checked α} {p : β → Prop} :
    (∃ y, (f <$> a) = .ok y ∧ p y) ↔ ∃ x, a = .ok x ∧ p (f x) := by
  simp only [fmap_eq_ok_iff]
  constructor
  · rintro ⟨_, ⟨x, hx, rfl⟩, hp⟩
    exact ⟨x, hx, hp⟩
  · rintro ⟨x, hx, hp⟩
    exact ⟨f x, ⟨x, hx, rfl⟩, hp⟩

/-- A further field of a record is read after those before it. -/
theorem exists_seq_eq_ok_iff {f : Checked (α → β)} {a : Checked α} {p : β → Prop} :
    (∃ y, (f <*> a) = .ok y ∧ p y) ↔ ∃ g, f = .ok g ∧ ∃ x, a = .ok x ∧ p (g x) := by
  simp only [seq_eq_ok_iff]
  constructor
  · rintro ⟨_, ⟨g, hg, x, hx, rfl⟩, hp⟩
    exact ⟨g, hg, x, hx, hp⟩
  · rintro ⟨g, hg, x, hx, hp⟩
    exact ⟨g x, ⟨g, hg, x, hx, rfl⟩, hp⟩

theorem refine_eq_ok_iff {a : Checked α} {f : α → Checked β} {y : β} :
    a.refine f = .ok y ↔ ∃ x, a = .ok x ∧ f x = .ok y := by
  cases a <;> simp [refine]

/-- The place of a part does not decide whether it is read. -/
@[simp] theorem under_eq_ok_iff {step : Step} {a : Checked α} {x : α} :
    a.under step = .ok x ↔ a = .ok x := by
  cases a <;> simp [under]

theorem fail_ne_ok {fault : Fault} {x : α} : fail fault ≠ .ok x := nofun

@[simp] theorem obeying_eq_ok_iff {rule : α → Option String} {a : Checked α} {x : α} :
    a.obeying rule = .ok x ↔ a = .ok x ∧ rule x = none := by
  rw [obeying, refine_eq_ok_iff]
  constructor
  · rintro ⟨y, hy, h⟩
    cases hrule : rule y with
    | none =>
      rw [hrule] at h
      obtain rfl := Checked.ok.inj h
      exact ⟨hy, hrule⟩
    | some text =>
      rw [hrule] at h
      exact absurd h fail_ne_ok
  · rintro ⟨hx, hrule⟩
    exact ⟨x, hx, by rw [hrule]⟩

theorem against_eq_ok_iff {shape : String} {a : Checked α} {x : α} :
    a.against shape = .ok x ↔ a = .ok x := by
  cases a <;> simp [against]

/-! ## What is refused -/

/-- What is refused is refused for a reason. -/
def Explained (a : Checked α) : Prop := a ≠ .bad []

@[simp] theorem explained_ok (x : α) : (ok x).Explained := nofun

@[simp] theorem explained_fail (fault : Fault) : (fail fault : Checked α).Explained := nofun

@[simp] theorem Explained.map {a : Checked α} (h : a.Explained) (f : α → β) : (a.map f).Explained := by
  cases a with
  | ok x => exact explained_ok (f x)
  | bad issues => exact fun hbad => h (congrArg _ (Checked.bad.inj hbad))

@[simp] theorem Explained.fmap {a : Checked α} (h : a.Explained) (f : α → β) :
    (f <$> a).Explained := h.map f

@[simp] theorem Explained.seq {f : Checked (α → β)} {a : Checked α} (hf : f.Explained)
    (ha : a.Explained) : (f <*> a).Explained := by
  show both f a ≠ .bad []
  cases f with
  | ok g =>
    cases a with
    | ok x => exact explained_ok (g x)
    | bad issues => exact fun hbad => ha (congrArg _ (Checked.bad.inj hbad))
  | bad issues =>
    cases a with
    | ok x => exact fun hbad => hf (congrArg _ (Checked.bad.inj hbad))
    | bad more =>
      intro hbad
      have hnil : issues = [] := (List.append_eq_nil_iff.1 (Checked.bad.inj hbad)).1
      exact hf (congrArg _ hnil)

@[simp] theorem Explained.refine {a : Checked α} (h : a.Explained) {f : α → Checked β}
    (hf : ∀ x, (f x).Explained) : (a.refine f).Explained := by
  cases a with
  | ok x => exact hf x
  | bad issues => exact fun hbad => h (congrArg _ (Checked.bad.inj hbad))

@[simp] theorem Explained.under {a : Checked α} (h : a.Explained) (step : Step) :
    (a.under step).Explained := by
  cases a with
  | ok x => exact explained_ok x
  | bad issues =>
    intro hbad
    have hnil : issues = [] := List.map_eq_nil_iff.1 (Checked.bad.inj hbad)
    exact h (congrArg _ hnil)

@[simp] theorem Explained.obeying {a : Checked α} (h : a.Explained) (rule : α → Option String) :
    (a.obeying rule).Explained := by
  refine h.refine fun x => ?_
  split
  · exact explained_ok x
  · exact explained_fail _

/-- No issue lies at the place or below it. -/
def Spares (a : Checked α) (place : List Step) : Prop :=
  ∀ issues, a = .bad issues → ∀ i ∈ issues, ¬place <+: i.place

theorem spares_ok (x : α) (place : List Step) : (ok x).Spares place := nofun

variable {place : List Step}

theorem Spares.map {a : Checked α} (h : a.Spares place) (f : α → β) : (a.map f).Spares place := by
  cases a with
  | ok x => exact spares_ok (f x) place
  | bad issues => exact fun _ hbad => h _ (congrArg _ (Checked.bad.inj hbad))

theorem Spares.fmap {a : Checked α} (h : a.Spares place) (f : α → β) : (f <$> a).Spares place := h.map f

theorem Spares.seq {f : Checked (α → β)} {a : Checked α} (hf : f.Spares place) (ha : a.Spares place) :
    (f <*> a).Spares place := by
  show (both f a).Spares place
  cases f with
  | ok g =>
    cases a with
    | ok x => exact spares_ok (g x) place
    | bad issues => exact fun _ hbad => ha _ (congrArg _ (Checked.bad.inj hbad))
  | bad issues =>
    cases a with
    | ok x => exact fun _ hbad => hf _ (congrArg _ (Checked.bad.inj hbad))
    | bad more =>
      rintro _ hbad i hi
      obtain rfl := Checked.bad.inj hbad
      rcases List.mem_append.1 hi with hi | hi
      · exact hf issues rfl i hi
      · exact ha more rfl i hi

/-- The issues of a part lie below the step that leads to it. -/
theorem Spares.under {a : Checked α} {step other : Step} (h : step = other → a.Spares place) :
    (a.under step).Spares (other :: place) := by
  cases a with
  | ok x => exact spares_ok x _
  | bad issues =>
    rintro _ hbad i hi hplace
    obtain rfl := Checked.bad.inj hbad
    obtain ⟨j, hj, rfl⟩ := List.mem_map.1 hi
    obtain ⟨heq, hbelow⟩ := List.cons_prefix_cons.1 hplace
    exact h heq.symm issues rfl j hj hbelow

end Checked

open Checked

/-! ## Fields -/

section Fields

variable {es : Entries} {name : String} {check : Value → Checked α} {default x : α}

theorem ofFields_eq_ok_iff {shape : String} {check : Entries → Checked α} {v : Value} :
    ofFields shape check v = .ok x ↔ ∃ es, v = .map es ∧ check es = .ok x := by
  cases v <;> simp [ofFields, fail]

/-- A field that has to be there is there and is read. -/
theorem required_eq_ok_iff :
    required es name check = .ok x ↔ ∃ v, es.get? name = some v ∧ check v = .ok x := by
  rw [required]
  cases es.get? name <;> simp

/-- A field with a default is read, or it is not there. -/
theorem field_eq_ok_iff : field es name default check = .ok x ↔
    (∃ v, es.get? name = some v ∧ check v = .ok x) ∨ es.get? name = none ∧ x = default := by
  rw [field]
  cases es.get? name <;> simp [eq_comm (a := default)]

theorem explained_ofFields {shape : String} {check : Entries → Checked α}
    (h : ∀ es, (check es).Explained) (v : Value) : (ofFields shape check v).Explained := by
  cases v with
  | map es => exact h es
  | scalar s => exact explained_fail _
  | list items => exact explained_fail _

@[simp] theorem explained_required (h : ∀ v, (check v).Explained) (es : Entries) (name : String) :
    (required es name check).Explained := by
  rw [required]
  cases es.get? name with
  | none => exact nofun
  | some v => exact (h v).under _

@[simp] theorem explained_field (h : ∀ v, (check v).Explained) (es : Entries) (name : String)
    (default : α) : (field es name default check).Explained := by
  rw [field]
  cases es.get? name with
  | none => exact explained_ok default
  | some v => exact (h v).under _

/-- The issues of a field lie below its name. -/
theorem spares_field {other : String} {place : List Step}
    (h : ∀ v, name = other → es.get? name = some v → (check v).Spares place) :
    (field es name default check).Spares (.name other :: place) := by
  rw [field]
  cases hget : es.get? name with
  | none => exact spares_ok default _
  | some v => exact Spares.under fun hname => h v (Step.name.inj hname) hget

theorem spares_field_of_none {other : String} {place : List Step} (h : es.get? other = none) :
    (field es name default check).Spares (.name other :: place) :=
  spares_field fun v hname hv => by
    rw [hname, h] at hv
    cases hv

/-- What is no mapping is complained about where it stands. -/
theorem spares_ofFields {shape : String} {check : Entries → Checked α} {v : Value} {place : List Step}
    (hplace : place ≠ []) (h : ∀ es, v = .map es → (check es).Spares place) :
    (ofFields shape check v).Spares place := by
  have hfail : (fail (.notModel shape) : Checked α).Spares place := by
    rintro _ hbad i hi hbelow
    obtain rfl := Checked.bad.inj hbad
    obtain rfl := List.mem_singleton.1 hi
    exact hplace (List.prefix_nil.1 hbelow)
  cases v with
  | map es => exact h es rfl
  | scalar s => exact hfail
  | list items => exact hfail

end Fields

/-! ## Scalars -/

@[simp] theorem explained_text (v : Value) : (text v).Explained := by
  unfold text
  split
  · exact explained_ok _
  · exact explained_fail _

@[simp] theorem explained_nonEmptyText (v : Value) : (nonEmptyText v).Explained := by
  refine (explained_text v).refine fun s => ?_
  split
  · exact explained_fail _
  · exact explained_ok _

@[simp] theorem explained_choice (choices : List (String × α)) (v : Value) :
    (choice choices v).Explained := by
  unfold choice
  split
  · split
    · exact explained_ok _
    · exact explained_fail _
  · exact explained_fail _

theorem explained_integer (v : Value) : (integer v).Explained := by
  unfold integer
  repeat' split
  all_goals simp

@[simp] theorem explained_natAtLeast (least : Nat) (v : Value) : (natAtLeast least v).Explained := by
  refine (explained_integer v).refine fun n => ?_
  split
  · exact explained_fail _
  · exact explained_ok _

@[simp] theorem explained_truth (v : Value) : (truth v).Explained := by
  unfold truth
  dsimp only
  repeat' split
  all_goals simp

/-! ## Parts -/

section Parts

variable {check : Value → Checked α}

@[simp] theorem explained_optional (h : ∀ v, (check v).Explained) (v : Value) :
    (optional check v).Explained := by
  unfold optional
  split
  · exact explained_ok none
  · exact (h v).map some

theorem explained_itemsFrom (h : ∀ v, (check v).Explained) (i : Nat) (items : List Value) :
    (itemsFrom check i items).Explained := by
  induction items generalizing i with
  | nil => exact explained_ok []
  | cons v rest ih => exact (((h v).under _).fmap _).seq (ih (i + 1))

@[simp] theorem explained_listOf (h : ∀ v, (check v).Explained) (v : Value) :
    (listOf check v).Explained := by
  unfold listOf
  split
  · exact explained_itemsFrom h 0 _
  · exact explained_fail _

theorem explained_keyName (k : Scalar) : (keyName k).Explained := by
  unfold keyName
  split
  · exact explained_ok _
  · exact nofun

theorem explained_entriesOf (h : ∀ v, (check v).Explained) (es : Entries) :
    (entriesOf check es).Explained := by
  induction es with
  | nil => exact explained_ok []
  | cons e rest ih =>
    exact (((explained_keyName e.1).fmap _).seq ((h e.2).under _)).seq ih

@[simp] theorem explained_mapOf (h : ∀ v, (check v).Explained) (v : Value) :
    (mapOf check v).Explained := by
  unfold mapOf
  split
  · exact explained_entriesOf h _
  · exact explained_fail _

@[simp] theorem explained_anything (v : Value) : (anything v).Explained := explained_ok v

end Parts

end DocTree.Schema
