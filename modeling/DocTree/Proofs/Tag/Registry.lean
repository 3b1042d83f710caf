import DocTree.Proofs.Fault
import DocTree.Proofs.Tag.Stability
import DocTree.Proofs.Text.Case
import DocTree.Proofs.Value.Bindings
import DocTree.Tag.Registry

/-!
# Which registries there are

A registry is made of bindings and markers, and extended by further ones. What it binds a name to is
said in terms of the bindings as they were given: the last one whose name is the same in lower case
(`get?_lowered_eq_some_iff`, `get?_setAll_lowered`), or the kind that names a variable where a marker was
given no other (`get?_make`). From this follow what a registry always satisfies (`Sound`,
`sound_of_make`) and when there is none (`exists_make_iff`, `exists_extend_iff`).
-/

namespace DocTree

open Bindings

/-! ## Names -/

theorem lowerName_lowerName (name : String) : lowerName (lowerName name) = lowerName name := by
  rw [lowerName, lowerName, String.toList_ofList, Text.lower_lower]

/-! ## Kinds -/

/-- The value names one of the kinds. -/
def IsKind (v : Value) : Prop := ∃ kind : TagKind, v = .str kind.name

theorem TagKind.ofValue_eq_ok_iff {v : Value} {kind : TagKind} :
    TagKind.ofValue v = .ok kind ↔ v = .str kind.name := by
  constructor
  · intro h
    unfold TagKind.ofValue at h
    split at h
    · next s =>
      split at h
      · next k hk =>
        obtain rfl := Except.ok.inj h
        have hname : (k.name == s) = true := List.find?_some (p := fun k => TagKind.name k == s) hk
        rw [eq_of_beq hname]
      · cases h
    · cases h
  · rintro rfl
    rw [TagKind.ofValue, TagKind.ofName?_name]

theorem TagKind.name_injective : Function.Injective TagKind.name := fun kind kind' h => by
  have hkind := TagKind.ofName?_name kind
  rw [h, TagKind.ofName?_name] at hkind
  exact (Option.some.inj hkind).symm

namespace Registry

/-- Bindings as they are given. -/
def asGiven (kinds : Bindings TagKind) : Bindings Value := kinds.map fun b => (b.1, .str b.2.name)

/-- The kinds of bindings are known exactly if the bindings are the given form of bindings of kinds. -/
theorem mapM_ofValue_eq_ok_iff {kinds : Bindings Value} {known : Bindings TagKind} :
    (kinds.mapM fun b => do return (b.1, ← TagKind.ofValue b.2)) = .ok known ↔
      kinds = asGiven known := by
  have hone : ∀ (b : String × Value) (k : String × TagKind),
      (do return (b.1, ← TagKind.ofValue b.2) : Except RegistryError (String × TagKind)) = .ok k ↔
        b = (k.1, .str k.2.name) := by
    rintro ⟨name, v⟩ ⟨name', kind⟩
    rw [bind_eq_ok_iff]
    simp only [TagKind.ofValue_eq_ok_iff, Prod.mk.injEq]
    constructor
    · rintro ⟨k, rfl, hk⟩
      cases hk
      exact ⟨rfl, rfl⟩
    · rintro ⟨rfl, rfl⟩
      exact ⟨kind, rfl, rfl⟩
  rw [mapM_eq_ok_iff, asGiven, ← List.forall₂_eq_eq_eq, List.forall₂_map_right_iff]
  simp only [hone]

theorem exists_asGiven_iff {kinds : Bindings Value} :
    (∃ known, kinds = asGiven known) ↔ ∀ b ∈ kinds, IsKind b.2 := by
  simp only [← mapM_ofValue_eq_ok_iff, exists_mapM_eq_ok_iff, bind_eq_ok_iff,
    TagKind.ofValue_eq_ok_iff]
  refine forall₂_congr fun b _ => ?_
  constructor
  · rintro ⟨-, kind, hkind, -⟩
    exact ⟨kind, hkind⟩
  · rintro ⟨kind, hkind⟩
    exact ⟨_, kind, hkind, rfl⟩

theorem lastWhere_asGiven {P : String → Prop} {known : Bindings TagKind} {v : Value} :
    LastWhere P (asGiven known) v ↔ ∃ kind, LastWhere P known kind ∧ .str kind.name = v := by
  rw [asGiven]
  exact lastWhere_map (f := id) (g := fun kind : TagKind => Value.str kind.name)

theorem lastWhere_asGiven_kind {P : String → Prop} {known : Bindings TagKind} {kind : TagKind} :
    LastWhere P (asGiven known) (.str kind.name) ↔ LastWhere P known kind := by
  rw [lastWhere_asGiven]
  constructor
  · rintro ⟨kind', hlast, hname⟩
    obtain rfl := TagKind.name_injective (Scalar.str.inj (Value.scalar.inj hname))
    exact hlast
  · exact fun hlast => ⟨kind, hlast, rfl⟩

/-! ## Markers -/

section Markers

variable {kinds bound : Bindings TagKind} {m n : String} {ms : List String}

/-- A marker is added exactly if it is bound to no other kind. -/
theorem exists_addMarker_iff :
    (∃ bound, addMarker kinds m = .ok bound) ↔ ∀ kind ∈ get? m kinds, kind = .binding := by
  rw [addMarker]
  cases h : get? m kinds with
  | none => simp
  | some kind => cases kind <;> simp

/-- Adding a marker binds the marker, and nothing else. -/
theorem get?_addMarker (h : addMarker kinds m = .ok bound) :
    get? n bound = if n = m then some .binding else get? n kinds := by
  rw [addMarker] at h
  split at h
  · obtain rfl := Except.ok.inj h
    exact get?_set m n .binding kinds
  · next hm =>
    obtain rfl := Except.ok.inj h
    split
    · next hn => rw [hn, hm]
    · rfl
  · cases h

/-- Markers are added exactly if none of them is bound to another kind. -/
theorem exists_foldlM_addMarker_iff : (∃ bound, ms.foldlM addMarker kinds = .ok bound) ↔
    ∀ m ∈ ms, ∀ kind ∈ get? m kinds, kind = .binding := by
  induction ms generalizing kinds with
  | nil => exact iff_of_true ⟨kinds, rfl⟩ fun m hm => absurd hm List.not_mem_nil
  | cons m ms ih =>
    simp only [List.foldlM_cons, bind_eq_ok_iff]
    rw [List.forall_mem_cons, ← exists_addMarker_iff]
    constructor
    · rintro ⟨bound, next, hnext, hrest⟩
      refine ⟨⟨next, hnext⟩, fun m' hm' kind hkind => ?_⟩
      -- the other markers are looked for where this one is bound too
      have hrest := ih.1 ⟨bound, hrest⟩ m' hm'
      rw [get?_addMarker hnext] at hrest
      split at hrest
      · next hm =>
        rw [hm] at hkind
        exact exists_addMarker_iff.1 ⟨next, hnext⟩ kind hkind
      · exact hrest kind hkind
    · rintro ⟨⟨next, hnext⟩, hrest⟩
      have hothers : ∀ m' ∈ ms, ∀ kind ∈ get? m' next, kind = .binding := by
        intro m' hm' kind hkind
        rw [get?_addMarker hnext] at hkind
        split at hkind
        · exact (Option.some.inj hkind).symm
        · exact hrest m' hm' kind hkind
      obtain ⟨bound, hbound⟩ := ih.2 hothers
      exact ⟨bound, next, hnext, hbound⟩

theorem get?_foldlM_addMarker (h : ms.foldlM addMarker kinds = .ok bound) :
    get? n bound = if n ∈ ms then some .binding else get? n kinds := by
  induction ms generalizing kinds with
  | nil =>
    obtain rfl := Except.ok.inj h
    rw [if_neg List.not_mem_nil]
  | cons m ms ih =>
    rw [List.foldlM_cons, bind_eq_ok_iff] at h
    obtain ⟨next, hnext, hrest⟩ := h
    rw [ih hrest, get?_addMarker hnext]
    by_cases hn : n ∈ ms
    · rw [if_pos hn, if_pos (List.mem_cons_of_mem m hn)]
    · have hmem : n ∈ m :: ms ↔ n = m := by simp [hn]
      simp only [if_neg hn, hmem]

end Markers

/-! ## Names in lower case -/

section Tidy

variable {α : Type} {bs start : Bindings α} {a : α} {n name : String}

/-- Every name is in lower case and bound once. -/
structure Tidy (bs : Bindings α) : Prop where
  lower : ∀ b ∈ bs, lowerName b.1 = b.1
  nodup : (Bindings.names bs).Nodup

theorem tidy_nil : Tidy ([] : Bindings α) := ⟨fun _ h => absurd h List.not_mem_nil, List.nodup_nil⟩

theorem Tidy.set (h : Tidy bs) (hname : lowerName name = name) : Tidy (set name a bs) where
  lower b hb := by
    rcases mem_set hb with rfl | hb
    · exact hname
    · exact h.lower b hb
  nodup := nodup_names_set h.nodup

theorem Tidy.setAll (h : Tidy start) (hbs : ∀ b ∈ bs, lowerName b.1 = b.1) :
    Tidy (setAll bs start) := by
  induction bs generalizing start with
  | nil => exact h
  | cons b bs ih =>
    obtain ⟨hb, hbs⟩ := List.forall_mem_cons.1 hbs
    exact ih (h.set hb) hbs

/-- The names of tidy bindings may be compared in any case. -/
theorem Tidy.get?_eq_some_iff (h : Tidy bs) :
    get? n bs = some a ↔ LastWhere (lowerName · = n) bs a := by
  rw [get?_eq_some_iff_lastWhere h.nodup]
  exact lastWhere_congr fun b hb => by rw [h.lower b hb]

/-- Bindings with their names in lower case. -/
def lowered (bs : Bindings α) : Bindings α := setAll (bs.map fun b => (lowerName b.1, b.2)) []

theorem tidy_lowered : Tidy (lowered bs) := by
  refine tidy_nil.setAll fun b hb => ?_
  obtain ⟨c, -, rfl⟩ := List.mem_map.1 hb
  exact lowerName_lowerName c.1

theorem get?_lowered_eq_some_iff :
    get? n (lowered bs) = some a ↔ LastWhere (lowerName · = n) bs a := by
  have hmap : LastWhere (· = n) (bs.map fun b => (lowerName b.1, id b.2)) a ↔
      ∃ a', LastWhere (lowerName · = n) bs a' ∧ id a' = a := lastWhere_map
  simp only [id, exists_eq_right] at hmap
  rw [lowered, get?_setAll_eq_some_iff, hmap]
  simp [get?]

theorem get?_lowered_eq_none_iff : get? n (lowered bs) = none ↔ ∀ b ∈ bs, lowerName b.1 ≠ n := by
  simp only [Option.eq_none_iff_forall_ne_some, Ne, get?_lowered_eq_some_iff]
  rw [← not_exists, exists_lastWhere_iff]
  simp

/-- Bindings that are added to tidy ones in lower case come behind them. -/
theorem get?_setAll_lowered (h : Tidy start) :
    get? n (setAll (lowered bs) start) = some a ↔ LastWhere (lowerName · = n) (start ++ bs) a := by
  rw [get?_setAll_eq_some_iff, lastWhere_append, ← get?_eq_none_iff, get?_lowered_eq_none_iff,
    ← get?_eq_some_iff_lastWhere tidy_lowered.nodup, get?_lowered_eq_some_iff, h.get?_eq_some_iff]

theorem Tidy.addMarker {kinds bound : Bindings TagKind} (h : Tidy kinds)
    (hname : lowerName name = name) (hbound : addMarker kinds name = .ok bound) : Tidy bound := by
  rw [Registry.addMarker] at hbound
  split at hbound
  · obtain rfl := Except.ok.inj hbound
    exact h.set hname
  · obtain rfl := Except.ok.inj hbound
    exact h
  · cases hbound

theorem Tidy.foldlM_addMarker {kinds bound : Bindings TagKind} {ms : List String} (h : Tidy kinds)
    (hms : ∀ m ∈ ms, lowerName m = m) (hbound : ms.foldlM Registry.addMarker kinds = .ok bound) :
    Tidy bound := by
  induction ms generalizing kinds with
  | nil =>
    obtain rfl := Except.ok.inj hbound
    exact h
  | cons m ms ih =>
    obtain ⟨hm, hms⟩ := List.forall_mem_cons.1 hms
    rw [List.foldlM_cons, bind_eq_ok_iff] at hbound
    obtain ⟨next, hnext, hrest⟩ := hbound
    exact ih (h.addMarker hm hnext) hms hrest

end Tidy

/-! ## Making a registry -/

section Making

variable {kinds : Bindings Value} {ms : List String} {d : Value} {r s : Registry} {n : String}
  {kind : TagKind}

/-- Some marker is bound to a kind that names no variable. -/
def Clash (kinds : Bindings Value) (ms : List String) : Prop :=
  ∃ m ∈ ms, ∃ kind : TagKind,
    LastWhere (lowerName · = lowerName m) kinds (.str kind.name) ∧ kind ≠ .binding

/-- Every name and every marker of the registry is in lower case, every name is bound once, and the
markers are bound to the kind that names a variable. -/
structure Sound (r : Registry) : Prop where
  tidy : Tidy r.kinds
  markers_lower : ∀ m ∈ r.markers, lowerName m = m
  markers_bound : ∀ m ∈ r.markers, get? m r.kinds = some .binding

theorem make_eq_ok_iff : make kinds ms d = .ok r ↔ ∃ known, kinds = asGiven known ∧
    ((ms.map lowerName).eraseDups).foldlM addMarker (lowered known) = .ok r.kinds ∧
    r.markers = (ms.map lowerName).eraseDups ∧ TagKind.ofValue d = .ok r.defaultKind := by
  rw [make, bind_eq_ok_iff]
  simp only [mapM_ofValue_eq_ok_iff]
  refine exists_congr fun known => and_congr_right fun _ => ?_
  rw [ofBindings, bind_eq_ok_iff]
  simp only [bind_eq_ok_iff]
  constructor
  · rintro ⟨_, ⟨bound, hbound, hr⟩, kind, hkind, hmade⟩
    cases hr
    cases hmade
    exact ⟨hbound, rfl, hkind⟩
  · rintro ⟨hbound, hmarkers, hkind⟩
    refine ⟨_, ⟨r.kinds, hbound, rfl⟩, r.defaultKind, hkind, ?_⟩
    rw [← hmarkers]
    rfl

theorem mem_lowered_markers {m : String} :
    m ∈ (ms.map lowerName).eraseDups ↔ ∃ m' ∈ ms, lowerName m' = m := by
  rw [List.mem_eraseDups, List.mem_map]

/-- There is a registry exactly if all kinds are kinds and no marker clashes. -/
theorem exists_make_iff : (∃ r, make kinds ms d = .ok r) ↔
    (∀ b ∈ kinds, IsKind b.2) ∧ IsKind d ∧ ¬Clash kinds ms := by
  constructor
  · rintro ⟨r, h⟩
    obtain ⟨known, rfl, hbound, -, hkind⟩ := make_eq_ok_iff.1 h
    refine ⟨exists_asGiven_iff.1 ⟨known, rfl⟩, ⟨_, TagKind.ofValue_eq_ok_iff.1 hkind⟩, ?_⟩
    rintro ⟨m, hm, kind, hlast, hother⟩
    have hget := get?_lowered_eq_some_iff.2 (lastWhere_asGiven_kind.1 hlast)
    exact hother (exists_foldlM_addMarker_iff.1 ⟨_, hbound⟩ _
      (mem_lowered_markers.2 ⟨m, hm, rfl⟩) kind hget)
  · rintro ⟨hkinds, ⟨kind, hkind⟩, hclash⟩
    obtain ⟨known, rfl⟩ := exists_asGiven_iff.2 hkinds
    obtain ⟨bound, hbound⟩ : ∃ bound,
        ((ms.map lowerName).eraseDups).foldlM addMarker (lowered known) = .ok bound := by
      refine exists_foldlM_addMarker_iff.2 fun m hm kind hget => by_contra fun hother => hclash ?_
      obtain ⟨m', hm', rfl⟩ := mem_lowered_markers.1 hm
      have hlast := get?_lowered_eq_some_iff.1 hget
      exact ⟨m', hm', kind, lastWhere_asGiven_kind.2 hlast, hother⟩
    exact ⟨⟨bound, _, kind⟩,
      make_eq_ok_iff.2 ⟨known, rfl, hbound, rfl, TagKind.ofValue_eq_ok_iff.2 hkind⟩⟩

theorem sound_of_make (h : make kinds ms d = .ok r) : Sound r := by
  obtain ⟨known, -, hbound, hmarkers, -⟩ := make_eq_ok_iff.1 h
  have hlower : ∀ m ∈ r.markers, lowerName m = m := by
    rw [hmarkers]
    intro m hm
    obtain ⟨m, -, rfl⟩ := mem_lowered_markers.1 hm
    exact lowerName_lowerName m
  rw [← hmarkers] at hbound
  refine ⟨tidy_lowered.foldlM_addMarker hlower hbound, hlower, fun m hm => ?_⟩
  rw [get?_foldlM_addMarker hbound, if_pos hm]

/-- A name is bound to the kind it was last given, and a marker that was given none to the kind that
names a variable. -/
theorem get?_make (h : make kinds ms d = .ok r) : get? n r.kinds = some kind ↔
    LastWhere (lowerName · = n) kinds (.str kind.name) ∨ kind = .binding ∧ n ∈ r.markers := by
  obtain ⟨known, rfl, hbound, hmarkers, -⟩ := make_eq_ok_iff.1 h
  rw [← hmarkers] at hbound
  rw [get?_foldlM_addMarker hbound, lastWhere_asGiven_kind, ← get?_lowered_eq_some_iff]
  by_cases hn : n ∈ r.markers
  · have hgiven := exists_foldlM_addMarker_iff.1 ⟨_, hbound⟩ n hn kind
    rw [if_pos hn, Option.some.injEq, eq_comm]
    simp only [hn, and_true]
    exact ⟨.inr, fun hkind => hkind.elim hgiven id⟩
  · rw [if_neg hn]
    simp only [hn, and_false, or_false]

end Making

/-! ## Extending a registry -/

section Extending

variable {kinds : Bindings Value} {ms : Option (List String)} {r s : Registry} {n : String}
  {v : Value} {kind : TagKind}

theorem tidy_asGiven {known : Bindings TagKind} (h : Tidy known) : Tidy (asGiven known) where
  lower := List.forall_mem_map.2 h.lower
  nodup := by
    rw [Bindings.names, asGiven, List.map_map]
    exact h.nodup

/-- The bindings of a registry with further ones in lower case. -/
def merged (r : Registry) (kinds : Bindings Value) : Bindings Value :=
  setAll (lowered kinds) (asGiven r.kinds)

theorem extend_eq_make (r : Registry) (kinds : Bindings Value) (ms : Option (List String)) :
    r.extend kinds ms = make (merged r kinds) (ms.getD r.markers) (.str r.defaultKind.name) := rfl

theorem tidy_merged (hr : Sound r) : Tidy (merged r kinds) :=
  (tidy_asGiven hr.tidy).setAll tidy_lowered.lower

/-- In merged bindings the last one of a name is the last one that was given. -/
theorem lastWhere_merged (hr : Sound r) : LastWhere (lowerName · = n) (merged r kinds) v ↔
    LastWhere (lowerName · = n) (asGiven r.kinds ++ kinds) v := by
  rw [← (tidy_merged hr).get?_eq_some_iff, merged, get?_setAll_lowered (tidy_asGiven hr.tidy)]

theorem clash_merged_iff (hr : Sound r) {ms : List String} :
    Clash (merged r kinds) ms ↔ Clash (asGiven r.kinds ++ kinds) ms := by
  simp only [Clash, lastWhere_merged hr]

/-- There is an extended registry exactly if the last given kind of every name is one and no marker
clashes. -/
theorem exists_extend_iff (hr : Sound r) : (∃ s, r.extend kinds ms = .ok s) ↔
    (∀ name v, LastWhere (lowerName · = name) (asGiven r.kinds ++ kinds) v → IsKind v) ∧
      ¬Clash (asGiven r.kinds ++ kinds) (ms.getD r.markers) := by
  have hkinds : (∀ b ∈ merged r kinds, IsKind b.2) ↔
      ∀ name v, LastWhere (lowerName · = name) (asGiven r.kinds ++ kinds) v → IsKind v := by
    simp only [← lastWhere_merged hr]
    constructor
    · intro h name v hlast
      obtain ⟨b, hb, -, rfl⟩ := hlast.exists_mem
      exact h b hb
    · intro h b hb
      have hget := get?_of_mem (tidy_merged hr).nodup hb
      exact h b.1 b.2 ((tidy_merged hr).get?_eq_some_iff.1 hget)
  have hdefault : IsKind (.str r.defaultKind.name) := ⟨_, rfl⟩
  rw [extend_eq_make, exists_make_iff, hkinds, clash_merged_iff hr]
  simp only [hdefault, true_and]

theorem defaultKind_of_extend (h : r.extend kinds ms = .ok s) : s.defaultKind = r.defaultKind := by
  rw [extend_eq_make] at h
  obtain ⟨-, -, -, -, hkind⟩ := make_eq_ok_iff.1 h
  rw [TagKind.ofValue, TagKind.ofName?_name] at hkind
  exact (Except.ok.inj hkind).symm

end Extending

/-! ## Registries that are made -/

/-- The registry was made with the default kind `d`, and then extended any number of times. -/
inductive Made (d : Value) : Registry → Prop
  | make {kinds : Bindings Value} {ms : List String} {r : Registry} :
      make kinds ms d = .ok r → Made d r
  | extend {r s : Registry} {kinds : Bindings Value} {ms : Option (List String)} :
      Made d r → r.extend kinds ms = .ok s → Made d s

theorem made_standard : Made (.str TagKind.plain.name) standard := by
  have hmake : make (asGiven defaultKinds) defaultMarkers (.str TagKind.plain.name) = .ok standard := by
    decide +kernel
  exact .make hmake

section Made

variable {d : Value} {r : Registry} {n : String}

theorem Made.sound (h : Made d r) : Sound r := by
  cases h with
  | make h => exact sound_of_make h
  | extend _ h => exact sound_of_make (extend_eq_make .. ▸ h)

theorem Made.defaultKind (h : Made d r) : d = .str r.defaultKind.name := by
  induction h with
  | make h =>
    obtain ⟨-, -, -, -, hkind⟩ := make_eq_ok_iff.1 h
    exact TagKind.ofValue_eq_ok_iff.1 hkind
  | extend _ h ih => rw [ih, defaultKind_of_extend h]

/-- A marker is looked up as the name of a variable. -/
theorem Sound.kindOf_marker (hr : Sound r) (h : r.isMarker n = true) :
    r.kindOf n = .binding ∧ r.contains n = true := by
  have hbound := hr.markers_bound _ (List.contains_iff_mem.1 h)
  rw [kindOf, contains, hbound]
  exact ⟨rfl, rfl⟩

end Made

/-- **Markers name variables.** However a registry was made and extended, its markers are bound to the
kind that names a variable and its default kind is the one it was made with. A registry is refused
exactly if something that is given as a kind is none, where of several bindings of a name only the last
is looked at when a registry is extended, or if a marker is bound to another kind. -/
theorem markers_name_variables :
    (∀ d r, Made d r → d = .str r.defaultKind.name ∧
      ∀ n, r.isMarker n = true → r.kindOf n = .binding ∧ r.contains n = true) ∧
    (∀ kinds ms d, (∃ e, make kinds ms d = .error e) ↔
      (∃ b ∈ kinds, ¬IsKind b.2) ∨ ¬IsKind d ∨ Clash kinds ms) ∧
    ∀ d r kinds ms, Made d r → ((∃ e, r.extend kinds ms = .error e) ↔
      (∃ name v, LastWhere (lowerName · = name) (asGiven r.kinds ++ kinds) v ∧ ¬IsKind v) ∨
        Clash (asGiven r.kinds ++ kinds) (ms.getD r.markers)) := by
  refine ⟨fun d r hr => ⟨hr.defaultKind, fun n => hr.sound.kindOf_marker⟩, fun kinds ms d => ?_,
    fun d r kinds ms hr => ?_⟩
  · rw [exists_eq_error_iff, exists_make_iff]
    simp only [not_and_or, not_not, not_forall, exists_prop]
  · rw [exists_eq_error_iff, exists_extend_iff hr.sound]
    simp only [not_and_or, not_not, not_forall, exists_prop]

/-- The standard registry extended by a kind for a marker that names no variable. -/
theorem markers_name_variables_standard :
    Made (.str TagKind.plain.name) standard ∧
      (standard.isMarker "@Type" = true ∧ standard.kindOf "@Type" = .binding) ∧
      ∃ e, standard.extend [("TYPE", .str "typed")] none = .error e := by
  obtain ⟨hmade, -, hextend⟩ := markers_name_variables
  refine ⟨made_standard, ⟨by decide +kernel, ?_⟩, ?_⟩
  · exact ((hmade _ _ made_standard).2 "@Type" (by decide +kernel)).1
  · refine (hextend _ _ _ _ made_standard).2 (.inr ⟨"type", by decide, .typed, ?_, by decide⟩)
    exact ⟨asGiven standard.kinds, "TYPE", [], rfl, by decide +kernel, by simp⟩

end Registry

end DocTree
