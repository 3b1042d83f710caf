import DocTree.Proofs.Fault
import DocTree.Proofs.Schema.Checked

/-!
# Reading again what was read

What a check reads can be written back as a document. A check is *stable* for a way of writing if it
reads what is written as what it was, whatever the document said that it first read: a number given by
its text is written as a number, a truth value given by a word as a truth value, and so on.

Scalars are stable on their own; lists, mappings, fields and rules keep stability. A record is stable
field by field (`Stable.required`, `Stable.field`), which is how the shapes of the library get it.
-/

namespace DocTree.Schema

variable {α : Type}

/-- What the check reads is read as the same again after it is written. -/
def Stable (check : Value → Checked α) (write : α → Value) : Prop :=
  ∀ v x, check v = .ok x → check (write x) = .ok x

/-! ## Scalars -/

/-- A check that reads everything that is written is stable. -/
theorem stable_of_forall {check : Value → Checked α} {write : α → Value}
    (h : ∀ x, check (write x) = .ok x) : Stable check write := fun _ x _ => h x

theorem stable_anything : Stable anything id := stable_of_forall fun _ => rfl

theorem stable_text : Stable text .str := stable_of_forall fun _ => rfl

theorem stable_truth : Stable truth .bool := stable_of_forall fun _ => rfl

theorem nonEmptyText_eq_ok_iff {v : Value} {s : String} :
    nonEmptyText v = .ok s ↔ v = .str s ∧ s ≠ "" := by
  have htext : ∀ t, text v = .ok t ↔ v = .str t := by
    intro t
    unfold text
    split <;> simp_all [Checked.fail]
  rw [nonEmptyText, Checked.refine_eq_ok_iff]
  simp only [htext]
  constructor
  · rintro ⟨t, rfl, h⟩
    split at h
    · exact absurd h Checked.fail_ne_ok
    · next hne =>
      obtain rfl := Checked.ok.inj h
      exact ⟨rfl, fun hempty => hne (beq_iff_eq.2 hempty)⟩
  · rintro ⟨rfl, hne⟩
    exact ⟨s, rfl, if_neg fun hempty => hne (beq_iff_eq.1 hempty)⟩

theorem stable_nonEmptyText : Stable nonEmptyText .str := by
  intro v s h
  obtain ⟨rfl, -⟩ := nonEmptyText_eq_ok_iff.1 h
  exact h

/-- A number that is read is not below the bound, however it was given. -/
theorem le_of_natAtLeast {least n : Nat} {v : Value} (h : natAtLeast least v = .ok n) :
    least ≤ n := by
  obtain ⟨k, -, hk⟩ := Checked.refine_eq_ok_iff.1 h
  split at hk
  · exact absurd hk Checked.fail_ne_ok
  · have hn : k.toNat = n := Checked.ok.inj hk
    omega

theorem natAtLeast_nat {least n : Nat} (h : least ≤ n) : natAtLeast least (.nat n) = .ok n := by
  have hge : ¬(n : Int) < least := by omega
  exact if_neg hge

theorem stable_natAtLeast (least : Nat) : Stable (natAtLeast least) .nat :=
  fun _ _ h => natAtLeast_nat (le_of_natAtLeast h)

theorem stable_natBetween (least greatest : Nat) : Stable (natBetween least greatest) .nat := by
  intro v n h
  obtain ⟨k, hk, hle⟩ := Checked.refine_eq_ok_iff.1 h
  split at hle
  · exact absurd hle Checked.fail_ne_ok
  · next hgreatest =>
    obtain rfl := Checked.ok.inj hle
    refine Checked.refine_eq_ok_iff.2 ⟨k, stable_natAtLeast least v k hk, if_neg hgreatest⟩

/-! ## Parts -/

section Parts

variable {check : Value → Checked α} {write : α → Value}

/-- The absent value is written where there is nothing, so the check must not read it as something. -/
theorem Stable.optional (h : Stable check write) (hnull : ∀ x, check .null ≠ .ok x)
    {writeOption : Option α → Value} (hnone : writeOption none = .null)
    (hsome : ∀ x, writeOption (some x) = write x) :
    Stable (optional check) writeOption := by
  intro v o hread
  cases o with
  | none => rw [hnone]; rfl
  | some x =>
    have hx : check (write x) = .ok x := by
      unfold Schema.optional at hread
      split at hread
      · cases hread
      · obtain ⟨y, hy, hsame⟩ := Checked.map_eq_ok_iff.1 hread
        obtain rfl := Option.some.inj hsame
        exact h v y hy
    rw [hsome]
    unfold Schema.optional
    split
    · next hwritten =>
      rw [hwritten] at hx
      exact absurd hx (hnull x)
    · rw [hx]; rfl

theorem stable_optional_text : Stable (optional text) .optStr :=
  stable_text.optional nofun rfl fun _ => rfl

/-- Items are read each on its own, from any position on. -/
theorem itemsFrom_eq_ok_iff {i : Nat} {items : List Value} {xs : List α} :
    itemsFrom check i items = .ok xs ↔ List.Forall₂ (fun v x => check v = .ok x) items xs := by
  induction items generalizing i xs with
  | nil =>
    rw [itemsFrom, List.forall₂_nil_left_iff]
    exact ⟨fun h => (Checked.ok.inj h).symm, fun h => h ▸ rfl⟩
  | cons v rest ih =>
    rw [itemsFrom, Checked.seq_eq_ok_iff, Checked.exists_fmap_eq_ok_iff,
      List.forall₂_cons_left_iff]
    simp only [Checked.under_eq_ok_iff, ih]
    constructor
    · rintro ⟨x, hx, xs, hxs, rfl⟩
      exact ⟨x, xs, hx, hxs, rfl⟩
    · rintro ⟨x, xs, hx, hxs, rfl⟩
      exact ⟨x, hx, xs, hxs, rfl⟩

theorem listOf_eq_ok_iff {v : Value} {xs : List α} : listOf check v = .ok xs ↔
    ∃ items, v = .list items ∧ List.Forall₂ (fun v x => check v = .ok x) items xs := by
  unfold Schema.listOf
  split
  · next items =>
    rw [itemsFrom_eq_ok_iff]
    refine ⟨fun h => ⟨items, rfl, h⟩, ?_⟩
    rintro ⟨ws, hws, h⟩
    rwa [Value.list.inj hws]
  · next hno =>
    refine ⟨fun h => absurd h Checked.fail_ne_ok, ?_⟩
    rintro ⟨items, rfl, -⟩
    exact (hno items rfl).elim

/-- Items that are each read back are read back together. -/
theorem listOf_map {xs : List α} (h : ∀ x ∈ xs, check (write x) = .ok x) :
    listOf check (.list (xs.map write)) = .ok xs := by
  refine listOf_eq_ok_iff.2 ⟨_, rfl, ?_⟩
  rw [List.forall₂_map_left_iff, List.forall₂_same]
  exact h

theorem Stable.listOf (h : Stable check write) :
    Stable (listOf check) fun xs => .list (xs.map write) := by
  intro v xs hread
  obtain ⟨items, -, hitems⟩ := listOf_eq_ok_iff.1 hread
  exact listOf_map (forall_mem_of_forall₂ h hitems)

/-- A list of texts is read back, whatever texts it has. -/
theorem listOf_text_strs (ts : List String) : listOf text (.strs ts) = .ok ts :=
  @listOf_map String text .str ts fun _ _ => rfl

theorem stable_texts : Stable (listOf text) .strs := stable_of_forall listOf_text_strs

/-- Texts that are put into a form which putting in order again leaves alone are stable. -/
theorem stable_texts_map {f : List String → List String} (hf : ∀ ts, f (f ts) = f ts) :
    Stable (fun v => (listOf text v).map f) .strs := by
  intro v ts h
  obtain ⟨us, -, rfl⟩ := Checked.map_eq_ok_iff.1 h
  show (listOf text (.strs (f us))).map f = _
  rw [listOf_text_strs, Checked.map, hf]

/-- Dropping what comes again leaves nothing to drop. -/
theorem eraseDups_eraseDups (ts : List String) : ts.eraseDups.eraseDups = ts.eraseDups := by
  match ts with
  | [] => rfl
  | t :: ts =>
    have hrest : (ts.filter fun u => !u == t).eraseDups.filter (fun u => !u == t) =
        (ts.filter fun u => !u == t).eraseDups := by
      refine List.filter_eq_self.2 fun u hu => ?_
      exact (List.mem_filter.1 (List.mem_eraseDups.1 hu)).2
    rw [List.eraseDups_cons, List.eraseDups_cons, hrest, eraseDups_eraseDups]
termination_by ts.length
decreasing_by exact Nat.lt_succ_of_le (List.length_filter_le _ ts)

theorem stable_distinctTexts : Stable (fun v => (listOf text v).map List.eraseDups) .strs :=
  stable_texts_map eraseDups_eraseDups

theorem mapOf_record {bs : List (String × α)} (h : ∀ b ∈ bs, check (write b.2) = .ok b.2) :
    mapOf check (.record (bs.map fun b => (b.1, write b.2))) = .ok bs := by
  show entriesOf check ((bs.map fun b => (b.1, write b.2)).map fun f => (.str f.1, f.2)) = _
  induction bs with
  | nil => rfl
  | cons b bs ih =>
    have hb := h b List.mem_cons_self
    have hbs := ih fun c hc => h c (List.mem_cons_of_mem b hc)
    rw [List.map_cons, List.map_cons, entriesOf, hb, hbs]
    rfl

theorem exists_of_mem_entriesOf {es : Entries} {bs : List (String × α)}
    (h : entriesOf check es = .ok bs) : ∀ b ∈ bs, ∃ v, check v = .ok b.2 := by
  induction es generalizing bs with
  | nil =>
    obtain rfl : [] = bs := Checked.ok.inj h
    exact fun b hb => absurd hb List.not_mem_nil
  | cons e rest ih =>
    rw [entriesOf, Checked.seq_eq_ok_iff] at h
    simp only [Checked.exists_seq_eq_ok_iff, Checked.exists_fmap_eq_ok_iff] at h
    obtain ⟨name, -, x, hx, others, hothers, rfl⟩ := h
    intro b hb
    rcases List.mem_cons.1 hb with rfl | hb
    · exact ⟨e.2, Checked.under_eq_ok_iff.1 hx⟩
    · exact ih hothers b hb

theorem Stable.mapOf (h : Stable check write) :
    Stable (mapOf check) fun bs => .record (bs.map fun b => (b.1, write b.2)) := by
  intro v bs hread
  unfold Schema.mapOf at hread
  split at hread
  · refine mapOf_record fun b hb => ?_
    obtain ⟨w, hw⟩ := exists_of_mem_entriesOf hread b hb
    exact h w b.2 hw
  · exact absurd hread Checked.fail_ne_ok

/-- A rule about what was read does not see how it was written. -/
theorem Stable.obeying (h : Stable check write) (rule : α → Option String) :
    Stable (fun v => (check v).obeying rule) write := by
  intro v x hread
  obtain ⟨hx, hrule⟩ := Checked.obeying_eq_ok_iff.1 hread
  exact Checked.obeying_eq_ok_iff.2 ⟨h v x hx, hrule⟩

/-! ## Fields -/

/-- The entries of a record with these fields. -/
def fieldEntries (fields : List (String × Value)) : Entries := fields.map fun f => (.str f.1, f.2)

variable {es written : Entries} {name : String} {x default : α}

/-- A field that has to be there is read back from where it is written. -/
theorem Stable.required (h : Stable check write) (hread : required es name check = .ok x)
    (hwritten : written.get? name = some (write x)) : required written name check = .ok x := by
  obtain ⟨v, -, hv⟩ := required_eq_ok_iff.1 hread
  exact required_eq_ok_iff.2 ⟨write x, hwritten, h v x hv⟩

/-- A field with a default is written also where it was left out, so the default has to be read back. -/
theorem Stable.field (h : Stable check write) (hdefault : check (write default) = .ok default)
    (hread : field es name default check = .ok x)
    (hwritten : written.get? name = some (write x)) : field written name default check = .ok x := by
  refine field_eq_ok_iff.2 (.inl ⟨write x, hwritten, ?_⟩)
  rcases field_eq_ok_iff.1 hread with ⟨v, -, hv⟩ | ⟨-, rfl⟩
  · exact h v x hv
  · exact hdefault

end Parts

end DocTree.Schema
