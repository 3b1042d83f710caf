import DocTree.Value.Bindings
import Mathlib.Data.List.Nodup

/-!
# The last binding of a name

When names are bound one after another, a name is bound to what its last binding says
(`get?_setAll_eq_some_iff`). Which names count as one is left open by `LastWhere`, which speaks of the
last binding of a name with some property; in bindings that have each name once, looking a name up finds
the last binding of it (`get?_eq_some_iff_lastWhere`).
-/

namespace DocTree.Bindings

variable {α β : Type} {P Q : String → Prop} {bs cs start : Bindings α} {a : α} {n name : String}

/-! ## Last bindings -/

/-- Of the bindings of names with the property `P`, the last one binds to `a`. -/
def LastWhere (P : String → Prop) (bs : Bindings α) (a : α) : Prop :=
  ∃ before name after, bs = before ++ (name, a) :: after ∧ P name ∧ ∀ b ∈ after, ¬P b.1

theorem not_lastWhere_nil : ¬LastWhere P [] a := by
  rintro ⟨before, name, after, h, -⟩
  exact List.append_ne_nil_of_right_ne_nil before (List.cons_ne_nil _ _) h.symm

/-- The first binding is the last one if no other is. -/
theorem lastWhere_cons {b : String × α} : LastWhere P (b :: bs) a ↔
    LastWhere P bs a ∨ P b.1 ∧ b.2 = a ∧ ∀ c ∈ bs, ¬P c.1 := by
  constructor
  · rintro ⟨before, name, after, h, hname, hafter⟩
    cases before with
    | nil =>
      obtain ⟨rfl, rfl⟩ := List.cons.inj h
      exact .inr ⟨hname, rfl, hafter⟩
    | cons c before =>
      obtain ⟨rfl, rfl⟩ := List.cons.inj h
      exact .inl ⟨before, name, after, rfl, hname, hafter⟩
  · rintro (⟨before, name, after, rfl, hname, hafter⟩ | ⟨hname, rfl, hafter⟩)
    · exact ⟨b :: before, name, after, rfl, hname, hafter⟩
    · exact ⟨[], b.1, bs, rfl, hname, hafter⟩

theorem LastWhere.exists_mem (h : LastWhere P bs a) : ∃ b ∈ bs, P b.1 ∧ b.2 = a := by
  obtain ⟨before, name, after, rfl, hname, -⟩ := h
  exact ⟨(name, a), List.mem_append_right _ List.mem_cons_self, hname, rfl⟩

/-- There is a last one exactly if there is one. -/
theorem exists_lastWhere_iff : (∃ a, LastWhere P bs a) ↔ ∃ b ∈ bs, P b.1 := by
  constructor
  · rintro ⟨a, ha⟩
    obtain ⟨b, hb, hP, -⟩ := ha.exists_mem
    exact ⟨b, hb, hP⟩
  · rintro ⟨b, hb, hP⟩
    induction bs generalizing b with
    | nil => exact absurd hb List.not_mem_nil
    | cons c bs ih =>
      by_cases hrest : ∃ b ∈ bs, P b.1
      · obtain ⟨b, hb, hP⟩ := hrest
        obtain ⟨a, ha⟩ := ih b hb hP
        exact ⟨a, lastWhere_cons.2 (.inl ha)⟩
      · have hnone : ∀ b ∈ bs, ¬P b.1 := fun b hb hP => hrest ⟨b, hb, hP⟩
        rcases List.mem_cons.1 hb with rfl | hb
        · exact ⟨b.2, lastWhere_cons.2 (.inr ⟨hP, rfl, hnone⟩)⟩
        · exact absurd hP (hnone b hb)

theorem lastWhere_congr (h : ∀ b ∈ bs, P b.1 ↔ Q b.1) : LastWhere P bs a ↔ LastWhere Q bs a := by
  induction bs with
  | nil => exact iff_of_false not_lastWhere_nil not_lastWhere_nil
  | cons b bs ih =>
    have hrest : ∀ c ∈ bs, P c.1 ↔ Q c.1 := fun c hc => h c (List.mem_cons_of_mem b hc)
    rw [lastWhere_cons, lastWhere_cons, ih hrest, h b List.mem_cons_self]
    refine or_congr_right (and_congr_right fun _ => and_congr_right fun _ => ?_)
    exact forall₂_congr fun c hc => not_congr (hrest c hc)

/-- Further bindings come last. -/
theorem lastWhere_append : LastWhere P (bs ++ cs) a ↔
    LastWhere P cs a ∨ (∀ c ∈ cs, ¬P c.1) ∧ LastWhere P bs a := by
  induction bs with
  | nil => simp [not_lastWhere_nil]
  | cons b bs ih =>
    rw [List.cons_append, lastWhere_cons, lastWhere_cons, ih]
    simp only [List.forall_mem_append]
    tauto

/-- Names and what they are bound to may be changed everywhere. -/
theorem lastWhere_map {f : String → String} {g : α → β} {b : β} :
    LastWhere P (bs.map fun c => (f c.1, g c.2)) b ↔
      ∃ a, LastWhere (fun name => P (f name)) bs a ∧ g a = b := by
  induction bs with
  | nil => simp [not_lastWhere_nil]
  | cons c bs ih =>
    rw [List.map_cons, lastWhere_cons, ih]
    simp only [lastWhere_cons, List.forall_mem_map]
    constructor
    · rintro (⟨a, ha, rfl⟩ | ⟨hP, rfl, hnone⟩)
      · exact ⟨a, .inl ha, rfl⟩
      · exact ⟨c.2, .inr ⟨hP, rfl, hnone⟩, rfl⟩
    · rintro ⟨a, ha | ⟨hP, rfl, hnone⟩, rfl⟩
      · exact .inl ⟨a, ha, rfl⟩
      · exact .inr ⟨hP, rfl, hnone⟩

/-! ## Looking up -/

theorem get?_eq_none_iff : get? n bs = none ↔ ∀ b ∈ bs, b.1 ≠ n := by
  induction bs with
  | nil => simp [get?]
  | cons b bs ih =>
    rw [get?, List.forall_mem_cons, ← ih]
    split
    · next h => simp [h]
    · next h => simp [h]

/-- Binding a name changes what that name is bound to and nothing else. -/
theorem get?_set (name n : String) (a : α) (bs : Bindings α) :
    get? n (set name a bs) = if n = name then some a else get? n bs := by
  induction bs with
  | nil =>
    rw [set, get?]
    simp only [eq_comm]
    rfl
  | cons b bs ih =>
    rw [set]
    by_cases hb : b.1 = name
    · rw [if_pos hb, get?, get?, hb]
      by_cases hn : n = name
      · rw [if_pos hn, if_pos hn.symm]
      · rw [if_neg hn, if_neg (Ne.symm hn), if_neg (Ne.symm hn)]
    · rw [if_neg hb, get?, get?, ih]
      by_cases hn : n = name
      · rw [if_pos hn, if_pos hn, if_neg (hn ▸ hb)]
      · rw [if_neg hn, if_neg hn]

/-- **The last binding wins.** -/
theorem get?_setAll_eq_some_iff : get? n (setAll bs start) = some a ↔
    LastWhere (· = n) bs a ∨ (∀ b ∈ bs, b.1 ≠ n) ∧ get? n start = some a := by
  induction bs generalizing start with
  | nil => simp [setAll, not_lastWhere_nil]
  | cons b bs ih =>
    have hstep : setAll (b :: bs) start = setAll bs (set b.1 b.2 start) := rfl
    rw [hstep, ih, get?_set, lastWhere_cons, List.forall_mem_cons]
    by_cases hb : b.1 = n
    · rw [if_pos hb.symm, Option.some.injEq]
      simp only [hb]
      tauto
    · rw [if_neg (Ne.symm hb)]
      simp only [hb]
      tauto

/-! ## Each name once -/

theorem mem_set {b : String × α} (h : b ∈ set name a bs) : b = (name, a) ∨ b ∈ bs := by
  induction bs with
  | nil => exact .inl (List.mem_singleton.1 h)
  | cons c bs ih =>
    rw [set] at h
    split at h
    · next hc =>
      rcases List.mem_cons.1 h with rfl | h
      · exact .inl (by rw [hc])
      · exact .inr (List.mem_cons_of_mem c h)
    · rcases List.mem_cons.1 h with rfl | h
      · exact .inr List.mem_cons_self
      · exact (ih h).imp_right (List.mem_cons_of_mem c)

theorem nodup_names_set (h : (names bs).Nodup) : (names (set name a bs)).Nodup := by
  induction bs with
  | nil => exact List.nodup_singleton name
  | cons c bs ih =>
    rw [names, List.map_cons, List.nodup_cons] at h
    rw [set]
    split
    · exact List.nodup_cons.2 h
    · next hc =>
      refine List.nodup_cons.2 ⟨fun hmem => ?_, ih h.2⟩
      obtain ⟨b, hb, heq⟩ := List.mem_map.1 hmem
      rcases mem_set hb with rfl | hb
      · exact hc heq.symm
      · exact h.1 (List.mem_map.2 ⟨b, hb, heq⟩)

theorem get?_of_mem {b : String × α} (h : (names bs).Nodup) (hb : b ∈ bs) :
    get? b.1 bs = some b.2 := by
  induction bs with
  | nil => exact absurd hb List.not_mem_nil
  | cons c bs ih =>
    rw [names, List.map_cons, List.nodup_cons] at h
    rcases List.mem_cons.1 hb with rfl | hb
    · exact if_pos rfl
    · have hc : c.1 ≠ b.1 := fun hc => h.1 (List.mem_map.2 ⟨b, hb, hc.symm⟩)
      rw [get?, if_neg hc, ih h.2 hb]

/-- Where each name is bound once, a name is looked up by its last binding. -/
theorem get?_eq_some_iff_lastWhere (h : (names bs).Nodup) :
    get? n bs = some a ↔ LastWhere (· = n) bs a := by
  induction bs with
  | nil => simp [get?, not_lastWhere_nil]
  | cons b bs ih =>
    rw [names, List.map_cons, List.nodup_cons] at h
    rw [get?, lastWhere_cons, ← ih h.2]
    by_cases hb : b.1 = n
    · have hnone : ∀ c ∈ bs, c.1 ≠ n := fun c hc hcn =>
        h.1 (List.mem_map.2 ⟨c, hc, hcn.trans hb.symm⟩)
      rw [if_pos hb, Option.some.injEq, get?_eq_none_iff.2 hnone]
      constructor
      · exact fun ha => .inr ⟨hb, ha, hnone⟩
      · rintro (ha | ⟨-, ha, -⟩)
        · cases ha
        · exact ha
    · simp [hb]

end DocTree.Bindings
