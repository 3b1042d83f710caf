import DocTree.Proofs.Log.Outcome
import DocTree.Proofs.Text.Words
import DocTree.Record.Element
import Mathlib.Data.List.Induction

/-!
# Exported uses

Uses are exported group by group, each use with its name and lines. A use also has the version of a
deprecation if it is the first of its name in its group, its name is that of a deprecation function and
some call of that name in the group names a version; the version is then the one that the last such call
names (`outcome_uses`).

## Shape of the proof

The entries of a group are built from its start, and a call may change an entry that was written long
before, so the induction is on the group from its end. What a new call changes is in two places:
`getElem?_attachVersion` says which entry is written again, and `lastNamed_concat` which version is the
last one now.
-/

namespace DocTree

/-! ## The version of a use -/

/-- The call names a version: its second argument is a literal. -/
def Usage.Names (u : Usage) (v : Value) : Prop := u.arguments[1]? = some v ∧ v ≠ .null

/-- Of the calls with the name, the last one to name a version names this one. -/
def LastNamed (us : List Usage) (name : String) (v : Value) : Prop :=
  ∃ before u after, us = before ++ u :: after ∧ u.head.name = name ∧ u.Names v ∧
    ∀ w ∈ after, w.head.name = name → ∀ v', ¬w.Names v'

/-- The use `u` at place `i` of a group is exported with the version `v`. -/
structure VersionAt (markers : List String) (us : List Usage) (i : Nat) (u : Usage) (v : Value) :
    Prop where
  marker : u.head.name ∈ markers
  first : ∀ w ∈ us.take i, w.head.name ≠ u.head.name
  last : LastNamed us u.head.name v

theorem Usage.version?_eq_some_iff {u : Usage} {v : Value} : u.version? = some v ↔ u.Names v := by
  rw [Usage.version?, Usage.Names]
  cases u.arguments with
  | nil => exact ⟨nofun, fun h => nomatch h.1⟩
  | cons a rest =>
    cases rest with
    | nil => exact ⟨nofun, fun h => nomatch h.1⟩
    | cons b rest =>
      split
      · next h =>
        cases h
        exact ⟨nofun, fun h => absurd (Option.some.inj h.1).symm h.2⟩
      · next hnull h =>
        cases h
        exact ⟨fun h => ⟨h, fun hv => hnull (Option.some.inj h ▸ hv)⟩, fun h => h.1⟩
      · next hother =>
        exact absurd rfl (hother _ _ _)

theorem lastNamed_concat {us : List Usage} {u : Usage} {name : String} {v : Value} :
    LastNamed (us ++ [u]) name v ↔ u.head.name = name ∧ u.Names v ∨
      (u.head.name = name → ∀ v', ¬u.Names v') ∧ LastNamed us name v := by
  constructor
  · rintro ⟨before, w, after, hsplit, hname, hnames, hafter⟩
    rcases List.eq_nil_or_concat' after with rfl | ⟨after, u', rfl⟩
    · obtain ⟨rfl, rfl⟩ := List.append_inj' hsplit rfl |>.imp_right List.singleton_inj.1
      exact .inl ⟨hname, hnames⟩
    · rw [← List.cons_append, ← List.append_assoc] at hsplit
      obtain ⟨rfl, rfl⟩ := List.append_inj' hsplit rfl |>.imp_right List.singleton_inj.1
      exact .inr ⟨hafter u (List.mem_append_right _ List.mem_cons_self), before, w, after, rfl, hname,
        hnames, fun x hx => hafter x (List.mem_append_left _ hx)⟩
  · rintro (⟨hname, hnames⟩ | ⟨hu, before, w, after, rfl, hname, hnames, hafter⟩)
    · exact ⟨us, u, [], rfl, hname, hnames, fun x hx => absurd hx List.not_mem_nil⟩
    · refine ⟨before, w, after ++ [u], by rw [List.append_assoc, List.cons_append], hname, hnames, ?_⟩
      intro x hx
      rcases List.mem_append.1 hx with hx | hx
      · exact hafter x hx
      · exact List.mem_singleton.1 hx ▸ hu

theorem LastNamed.exists_mem {us : List Usage} {name : String} {v : Value}
    (h : LastNamed us name v) : ∃ w ∈ us, w.head.name = name := by
  obtain ⟨before, w, after, rfl, hname, -⟩ := h
  exact ⟨w, List.mem_append_right _ List.mem_cons_self, hname⟩

/-! ## Entries -/

/-- The entry of a use. -/
def Usage.entry (u : Usage) (version : Option Value) : UseEntry :=
  ⟨u.head.name, u.head.line, u.head.endLine, version⟩

theorem names_attachVersion (name : String) (v : Value) (es : List UseEntry) :
    (attachVersion name v es).map UseEntry.name = es.map UseEntry.name := by
  induction es with
  | nil => rfl
  | cons e es ih =>
    rw [attachVersion]
    split
    · rfl
    · rw [List.map_cons, List.map_cons, ih]

theorem names_addUse (markers : List String) (es : List UseEntry) (u : Usage) :
    (addUse markers es u).map UseEntry.name = es.map UseEntry.name ++ [u.head.name] := by
  unfold addUse
  dsimp only
  split
  · split
    · rw [names_attachVersion, List.map_append]
      rfl
    · rw [List.map_append]
      rfl
  · rw [List.map_append]
    rfl

theorem groupEntries_concat (markers : List String) (us : List Usage) (u : Usage) :
    groupEntries markers (us ++ [u]) = addUse markers (groupEntries markers us) u :=
  List.foldl_concat _ _ _ _

theorem names_groupEntries (markers : List String) (us : List Usage) :
    (groupEntries markers us).map UseEntry.name = us.map fun u => u.head.name := by
  induction us using List.reverseRecOn with
  | nil => rfl
  | append_singleton us u ih =>
    rw [groupEntries_concat, names_addUse, ih, List.map_append]
    rfl

/-- A version is attached to the first entry with the name. -/
theorem getElem?_attachVersion {name : String} {v : Value} {es : List UseEntry} {i : Nat}
    {e : UseEntry} (h : es[i]? = some e) : (attachVersion name v es)[i]? =
      some (if e.name = name ∧ ∀ d ∈ es.take i, d.name ≠ name then { e with version := some v }
        else e) := by
  induction es generalizing i with
  | nil => cases h
  | cons d es ih =>
    rw [attachVersion]
    cases i with
    | zero =>
      obtain rfl : d = e := Option.some.inj h
      by_cases hname : d.name = name
      · rw [if_pos (beq_iff_eq.2 hname), if_pos ⟨hname, fun _ hd => absurd hd List.not_mem_nil⟩]
        rfl
      · rw [if_neg (mt beq_iff_eq.1 hname), if_neg fun h => hname h.1]
        rfl
    | succ i =>
      by_cases hname : d.name = name
      · -- the entry at the front is the one that is written again
        rw [if_pos (beq_iff_eq.2 hname), if_neg fun h => h.2 d List.mem_cons_self hname]
        exact h
      · rw [if_neg (mt beq_iff_eq.1 hname)]
        have hothers : (∀ x ∈ (d :: es).take (i + 1), x.name ≠ name) ↔
            ∀ x ∈ es.take i, x.name ≠ name := by
          rw [List.take_succ_cons, List.forall_mem_cons, and_iff_right hname]
        simp only [hothers]
        exact ih h

/-- The entries of a group are those of its uses, each with its version. -/
def Accounts (markers : List String) (us : List Usage) (es : List UseEntry) : Prop :=
  ∀ i u, us[i]? = some u → ∃ version, es[i]? = some (u.entry version) ∧
    ∀ v, version = some v ↔ VersionAt markers us i u v

theorem addUse_eq (markers : List String) (es : List UseEntry) (u : Usage) :
    (∃ v, u.head.name ∈ markers ∧ u.Names v ∧
        addUse markers es u = attachVersion u.head.name v (es ++ [u.entry none])) ∨
      ((u.head.name ∈ markers → ∀ v, ¬u.Names v) ∧ addUse markers es u = es ++ [u.entry none]) := by
  unfold addUse
  dsimp only
  split
  · next hmarker =>
    have hmarker : u.head.name ∈ markers := List.contains_iff_mem.1 hmarker
    split
    · next v hv => exact .inl ⟨v, hmarker, Usage.version?_eq_some_iff.1 hv, rfl⟩
    · next hnone =>
      refine .inr ⟨fun _ v hv => ?_, rfl⟩
      rw [Usage.version?_eq_some_iff.2 hv] at hnone
      cases hnone
  · next hmarker => exact .inr ⟨fun h => absurd (List.contains_iff_mem.2 h) hmarker, rfl⟩

section Step

variable {markers : List String} {us : List Usage} {es : List UseEntry} {u : Usage}

/-- Before it is told of its version, a new use has none, as the first of its name can only have the
version of a use. -/
theorem Accounts.concat (h : Accounts markers us es) (hlength : es.length = us.length) {i : Nat}
    {w : Usage} (hw : (us ++ [u])[i]? = some w) :
    ∃ version, (es ++ [u.entry none])[i]? = some (w.entry version) ∧
      ∀ v, version = some v ↔ VersionAt markers us i w v := by
  by_cases hi : i < us.length
  · rw [List.getElem?_append_left hi] at hw
    rw [List.getElem?_append_left (hlength ▸ hi)]
    exact h i w hw
  · have hlt : i < (us ++ [u]).length := (List.getElem?_eq_some_iff.1 hw).1
    rw [List.length_append, List.length_singleton] at hlt
    obtain rfl : i = us.length := by omega
    rw [List.getElem?_concat_length] at hw
    obtain rfl := Option.some.inj hw
    rw [← hlength, List.getElem?_concat_length]
    refine ⟨none, rfl, fun v => ⟨nofun, fun hversion => ?_⟩⟩
    obtain ⟨x, hx, hname⟩ := hversion.last.exists_mem
    have hfirst := hversion.first
    rw [hlength, List.take_length] at hfirst
    exact absurd hname (hfirst x hx)

/-- The version of a use after one more call: the same, unless the use is the first with the name of the
call and the call names a version. -/
theorem versionAt_concat_iff {i : Nat} {w : Usage} {v : Value} (hi : i ≤ us.length) :
    VersionAt markers (us ++ [u]) i w v ↔
      w.head.name ∈ markers ∧ (∀ x ∈ us.take i, x.head.name ≠ w.head.name) ∧
        (u.head.name = w.head.name ∧ u.Names v ∨
          (u.head.name = w.head.name → ∀ v', ¬u.Names v') ∧ LastNamed us w.head.name v) := by
  rw [← lastNamed_concat]
  constructor
  · rintro ⟨hmarker, hfirst, hlast⟩
    rw [List.take_append_of_le_length hi] at hfirst
    exact ⟨hmarker, hfirst, hlast⟩
  · rintro ⟨hmarker, hfirst, hlast⟩
    refine ⟨hmarker, ?_, hlast⟩
    rw [List.take_append_of_le_length hi]
    exact hfirst

/-- A call that names no version of a deprecation changes none. -/
theorem versionAt_concat_of_not_names {i : Nat} {w : Usage} {v : Value} (hi : i ≤ us.length)
    (hu : u.head.name ∈ markers → ∀ v, ¬u.Names v) :
    VersionAt markers (us ++ [u]) i w v ↔ VersionAt markers us i w v := by
  rw [versionAt_concat_iff hi]
  constructor
  · rintro ⟨hmarker, hfirst, ⟨hname, hnames⟩ | ⟨-, hlast⟩⟩
    · exact absurd hnames (hu (hname ▸ hmarker) v)
    · exact ⟨hmarker, hfirst, hlast⟩
  · rintro ⟨hmarker, hfirst, hlast⟩
    exact ⟨hmarker, hfirst, .inr ⟨fun hname => hu (hname ▸ hmarker), hlast⟩⟩

/-- A call that names a version gives it to the first use of its name, and changes no other. -/
theorem versionAt_concat_of_names {i : Nat} {w : Usage} {v v' : Value} (hi : i ≤ us.length)
    (hmarker : u.head.name ∈ markers) (hu : u.Names v') :
    VersionAt markers (us ++ [u]) i w v ↔
      if w.head.name = u.head.name ∧ ∀ x ∈ us.take i, x.head.name ≠ u.head.name then v' = v
      else VersionAt markers us i w v := by
  rw [versionAt_concat_iff hi]
  split
  · next hfirst =>
    rw [hfirst.1]
    constructor
    · rintro ⟨-, -, ⟨-, hnames⟩ | ⟨hnone, -⟩⟩
      · exact Option.some.inj (hu.1.symm.trans hnames.1)
      · exact absurd hu (hnone rfl v')
    · rintro rfl
      exact ⟨hmarker, hfirst.2, .inl ⟨rfl, hu⟩⟩
  · next hother =>
    constructor
    · rintro ⟨hmarker, hfirst, ⟨hname, -⟩ | ⟨-, hlast⟩⟩
      · exact absurd ⟨hname.symm, hname ▸ hfirst⟩ hother
      · exact ⟨hmarker, hfirst, hlast⟩
    · rintro ⟨hmarker, hfirst, hlast⟩
      refine ⟨hmarker, hfirst, .inr ⟨fun hname => ?_, hlast⟩⟩
      exact absurd ⟨hname.symm, hname ▸ hfirst⟩ hother

/-- **One more call keeps account**: what the entries say is what the calls so far say. -/
theorem Accounts.addUse (h : Accounts markers us es)
    (hnames : es.map UseEntry.name = us.map fun u => u.head.name) :
    Accounts markers (us ++ [u]) (addUse markers es u) := by
  have hlength : es.length = us.length := by
    simpa only [List.length_map] using congrArg List.length hnames
  intro i w hw
  have hi : i ≤ us.length := by
    have hlt := (List.getElem?_eq_some_iff.1 hw).1
    rw [List.length_append, List.length_singleton] at hlt
    omega
  obtain ⟨version, hentry, hversion⟩ := h.concat hlength hw
  obtain ⟨v, hmarker, hu, hadd⟩ | ⟨hu, hadd⟩ := addUse_eq markers es u
  · rw [hadd, getElem?_attachVersion hentry]
    -- the entries before this one have the names of the uses before it
    have hfirst : (w.entry version).name = u.head.name ∧
        (∀ d ∈ (es ++ [u.entry none]).take i, d.name ≠ u.head.name) ↔
          w.head.name = u.head.name ∧ ∀ x ∈ us.take i, x.head.name ≠ u.head.name := by
      refine and_congr_right fun _ => ?_
      rw [List.take_append_of_le_length (hlength ▸ hi),
        ← List.forall_mem_map (P := fun name => name ≠ u.head.name), List.map_take, hnames,
        ← List.map_take, List.forall_mem_map]
    by_cases hthis : w.head.name = u.head.name ∧ ∀ x ∈ us.take i, x.head.name ≠ u.head.name
    · refine ⟨some v, by rw [if_pos (hfirst.2 hthis)]; rfl, fun v' => ?_⟩
      rw [versionAt_concat_of_names hi hmarker hu, if_pos hthis, Option.some.injEq]
    · refine ⟨version, by rw [if_neg (mt hfirst.1 hthis)], fun v' => ?_⟩
      rw [versionAt_concat_of_names hi hmarker hu, if_neg hthis, hversion]
  · rw [hadd]
    refine ⟨version, hentry, fun v => ?_⟩
    rw [hversion, versionAt_concat_of_not_names hi hu]

end Step

/-- **The entries of a group account for its uses.** -/
theorem accounts_groupEntries (markers : List String) (us : List Usage) :
    Accounts markers us (groupEntries markers us) := by
  induction us using List.reverseRecOn with
  | nil => exact fun i u h => nomatch h
  | append_singleton us u ih =>
    rw [groupEntries_concat]
    exact ih.addUse (names_groupEntries markers us)

/-! ## Groups -/

/-- The document lists a group of uses: each with its name and lines, and with a version where it has
one. -/
def ListsGroup (markers : List String) (us : List Usage) (v : Value) : Prop :=
  ∃ entries, v = .list entries ∧ entries.length = us.length ∧ ∀ i u, us[i]? = some u →
    ∃ version : Option Value, (∀ w, version = some w ↔ VersionAt markers us i u w) ∧
      entries[i]? = some (.record ([("name", .str u.head.name), ("line", .nat u.head.line),
        ("end_line", .optNat u.head.endLine)] ++
          (version.map fun w => ("deprecation_version", w)).toList))

theorem toValue_entry (u : Usage) (version : Option Value) : (u.entry version).toValue =
    .record ([("name", .str u.head.name), ("line", .nat u.head.line),
      ("end_line", .optNat u.head.endLine)] ++
        (version.map fun w => ("deprecation_version", w)).toList) := by
  cases version <;> rfl

theorem listsGroup_groupEntries (markers : List String) (us : List Usage) :
    ListsGroup markers us (.list ((groupEntries markers us).map UseEntry.toValue)) := by
  have hlength := congrArg List.length (names_groupEntries markers us)
  rw [List.length_map, List.length_map] at hlength
  refine ⟨_, rfl, by rw [List.length_map, hlength], fun i u hu => ?_⟩
  obtain ⟨version, hentry, hversion⟩ := accounts_groupEntries markers us i u hu
  refine ⟨version, hversion, ?_⟩
  rw [List.getElem?_map, hentry, Option.map_some, toValue_entry]

/-- **Uses are exported group by group**, in order, without the group of hooks and without empty groups;
each entry has the name and the lines of its use, and a version as `VersionAt` says. -/
theorem outcome_uses {ε : Type} (x : Exporter) (groups : List (String × List Usage)) :
    ∃ fields, (x.uses groups : Traced ε Value).outcome = .ok (.record fields) ∧
      List.Forall₂ (fun g f => f.1 = g.1 ∧ ListsGroup x.deprecationFunctions g.2 f.2)
        (groups.filter fun g => g.1 != "hooks" && !g.2.isEmpty) fields := by
  refine ⟨_, rfl, ?_⟩
  rw [List.forall₂_map_right_iff]
  exact List.forall₂_same.2 fun g _ => ⟨rfl, listsGroup_groupEntries x.deprecationFunctions g.2⟩

end DocTree
