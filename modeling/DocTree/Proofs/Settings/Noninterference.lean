import DocTree.Proofs.Settings.Places

/-!
# Overriding variables do not interfere

Every overriding variable has a place of its own, and no place lies above another one
(`apart_overrides`). So what a list of variables does to a document is known from what each of them does
by itself (`Overlay`): below the place of a variable that is set stands its value, and what is apart from
all those places is as it was. That holds of every list of variables with places apart
(`overlay_foldl`), by induction on the list; and since it does not speak of the order of the list, two
orders give the same document but for the order of entries (`Overlay.sameEntries`).

`overrides_act_separately` says what this means for the entries of a document and for the settings that
are read from it.
-/

namespace DocTree

open Schema

/-- The documents have the same below every path of keys, but for the order of entries in mappings. -/
def Value.SameEntries (v w : Value) : Prop :=
  ∀ keys, v.lookup keys = w.lookup keys ∨
    ∃ es fs, v.lookup keys = some (.map es) ∧ w.lookup keys = some (.map fs)

section Overlay

variable {env : Environment} {os ps : List (String × List String)} {es fs gs : Entries}

/-- The variables that are set have put their values into `es`, and that is all that makes `fs`. -/
structure Overlay (env : Environment) (os : List (String × List String)) (es fs : Entries) : Prop where
  own : ∀ o ∈ os, ∀ v, env.get? o.1 = some v → (Value.map fs).at? o.2 = some (.scalar (coerce v))
  others : ∀ keys, (∀ o ∈ os, env.get? o.1 ≠ none → Apart (keysOf o.2) keys) →
    (Value.map fs).lookup keys = (Value.map es).lookup keys

/-- Variables put their values one after another, and none touches what another one put. -/
theorem overlay_foldl (env : Environment) (hne : ∀ o ∈ os, o.2 ≠ [])
    (hapart : os.Pairwise fun o p => Apart o.2 p.2) (es : Entries) :
    Overlay env os es (os.foldl (override env) es) := by
  induction os generalizing es with
  | nil => exact ⟨fun _ ho => absurd ho List.not_mem_nil, fun _ _ => rfl⟩
  | cons o os ih =>
    obtain ⟨hfirst, hrest⟩ := List.forall_mem_cons.1 hne
    obtain ⟨haway, hapart⟩ := List.pairwise_cons.1 hapart
    have hlater := ih hrest hapart (override env es o)
    refine ⟨List.forall_mem_cons.2 ⟨fun v hv => ?_, hlater.own⟩, fun keys hkeys => ?_⟩
    · have hkeep := hlater.others (keysOf o.2) fun p hp _ => apart_keysOf.2 (haway p hp).symm
      rw [lookup_keysOf, lookup_keysOf] at hkeep
      rw [List.foldl_cons, hkeep, override, hv]
      exact at?_putBelow_self _ hfirst es
    · obtain ⟨ho, hos⟩ := List.forall_mem_cons.1 hkeys
      rw [List.foldl_cons, hlater.others keys hos, override]
      cases hv : env.get? o.1 with
      | none => rfl
      | some v => exact lookup_putBelow_of_apart _ (ho (by rw [hv]; exact Option.some_ne_none v)) es

namespace Overlay

/-- Above the value of a variable there are mappings. -/
theorem exists_map (h : Overlay env os es fs) {o : String × List String} (ho : o ∈ os)
    (hset : env.get? o.1 ≠ none) {keys : List Scalar} (hbelow : keys <+: keysOf o.2)
    (hne : keys ≠ keysOf o.2) : ∃ inner, (Value.map fs).lookup keys = some (.map inner) := by
  obtain ⟨v, hv⟩ := Option.ne_none_iff_exists'.1 hset
  obtain ⟨more, hmore⟩ := hbelow
  have hown := h.own o ho v hv
  rw [← lookup_keysOf, ← hmore, lookup_append, Option.bind_eq_some_iff] at hown
  obtain ⟨w, hw, hdeep⟩ := hown
  obtain ⟨key, more, rfl⟩ : ∃ key rest, more = key :: rest := by
    refine List.exists_cons_of_ne_nil ?_
    rintro rfl
    exact hne (by rw [← hmore, List.append_nil])
  cases w with
  | map inner => exact ⟨inner, hw⟩
  | scalar s => cases hdeep
  | list items => cases hdeep

/-- Below the value of a variable the document is that value. -/
theorem lookup_below (h : Overlay env os es fs) {o : String × List String} (ho : o ∈ os) {v : String}
    (hv : env.get? o.1 = some v) (more : List Scalar) :
    (Value.map fs).lookup (keysOf o.2 ++ more) = (Value.scalar (coerce v)).lookup more := by
  rw [lookup_append, lookup_keysOf, h.own o ho v hv, Option.bind_some]

/-- **The order of the variables does not matter.** -/
theorem sameEntries (h : Overlay env os es fs) (h' : Overlay env ps es gs) (hmem : ∀ o, o ∈ os ↔ o ∈ ps) :
    Value.SameEntries (.map fs) (.map gs) := by
  intro keys
  by_cases haway : ∀ o ∈ os, env.get? o.1 ≠ none → Apart (keysOf o.2) keys
  · exact .inl ((h.others keys haway).trans (h'.others keys fun o ho => haway o ((hmem o).2 ho)).symm)
  · push Not at haway
    obtain ⟨o, ho, hset, hnot⟩ := haway
    have ho' := (hmem o).1 ho
    obtain ⟨v, hv⟩ := Option.ne_none_iff_exists'.1 hset
    by_cases hbelow : keysOf o.2 <+: keys
    · obtain ⟨more, rfl⟩ := hbelow
      exact .inl ((h.lookup_below ho hv more).trans (h'.lookup_below ho' hv more).symm)
    · have habove : keys <+: keysOf o.2 := by
        by_contra habove
        exact hnot ⟨hbelow, habove⟩
      have hne : keys ≠ keysOf o.2 := by
        rintro rfl
        exact hbelow List.prefix_rfl
      obtain ⟨inner, hinner⟩ := h.exists_map ho hset habove hne
      obtain ⟨inner', hinner'⟩ := h'.exists_map ho' hset habove hne
      exact .inr ⟨inner, inner', hinner, hinner'⟩

/-- An entry in which no variable puts a value is as it was. -/
theorem find?_eq (h : Overlay env os es fs) (hne : ∀ o ∈ os, o.2 ≠ []) {key : Scalar}
    (hkey : ∀ o ∈ os, env.get? o.1 ≠ none → (keysOf o.2).head? ≠ some key) :
    Entries.find? key fs = Entries.find? key es := by
  rw [← lookup_singleton, ← lookup_singleton]
  refine h.others [key] fun o ho hset => ?_
  have hhead := hkey o ho hset
  obtain ⟨name, more, hpath⟩ := List.exists_cons_of_ne_nil (hne o ho)
  rw [hpath] at hhead ⊢
  have hname : Scalar.str name ≠ key := fun heq => hhead (congrArg some heq)
  exact ⟨fun hp => hname (List.cons_prefix_cons.1 hp).1,
    fun hp => hname (List.cons_prefix_cons.1 hp).1.symm⟩

/-- A section in which a variable puts a value is a mapping. Its other entries are those that it had, and
there are none if it was no mapping. -/
theorem section_eq (h : Overlay env os es fs) {o : String × List String} (ho : o ∈ os)
    (hset : env.get? o.1 ≠ none) {name inside : String} (hpath : o.2 = [name, inside]) :
    ∃ inner, Entries.get? name fs = some (.map inner) ∧
      ∀ key, (∀ p ∈ os, env.get? p.1 ≠ none → Apart (keysOf p.2) [.str name, key]) →
        Entries.find? key inner = Entries.find? key (sectionOf name es) := by
  have habove : [.str name] <+: keysOf o.2 := by
    rw [hpath]
    exact ⟨[.str inside], rfl⟩
  obtain ⟨inner, hinner⟩ := h.exists_map ho hset habove (by rw [hpath]; nofun)
  rw [lookup_singleton] at hinner
  refine ⟨inner, hinner, fun key hkey => ?_⟩
  have hkeep := h.others [.str name, key] hkey
  rw [lookup_cons, hinner, Option.bind_some, lookup_singleton] at hkeep
  rw [hkeep, ← lookup_sectionOf name (List.cons_ne_nil _ _), lookup_singleton]

end Overlay

end Overlay

/-! ## The overriding variables -/

/-- No variable has its place above the place of another one. -/
theorem apart_overrides : overrides.Pairwise fun o p => Apart o.2 p.2 := by decide

theorem overrides_settingPlaces : ∀ o ∈ overrides, o.2 ∈ settingPlaces := by decide

theorem overlay_perm (env : Environment) {os : List (String × List String)} (hos : os.Perm overrides)
    (es : Entries) : Overlay env os es (os.foldl (override env) es) := by
  have hne : ∀ o ∈ overrides, o.2 ≠ [] := by decide
  refine overlay_foldl env (fun o ho => hne o (hos.mem_iff.1 ho)) ?_ es
  exact (hos.pairwise_iff fun h => Apart.symm h).2 apart_overrides

theorem overlay_applyOverrides (env : Environment) (es : Entries) :
    Overlay env overrides es (applyOverrides env es) :=
  overlay_perm env (List.Perm.refl _) es

/-- In a section, a place is apart from those of the variables as soon as it is none of them. -/
theorem apart_in_section {name inside : String} {key : Scalar} {o p : String × List String}
    (ho : o ∈ overrides) (hpath : o.2 = [name, inside]) (hp : p ∈ overrides)
    (hne : keysOf p.2 ≠ [.str name, key]) : Apart (keysOf p.2) [.str name, key] := by
  have hlengths : ∀ p ∈ overrides, p.2.length = 2 ∨ p.2 = ["debug"] := by decide
  have hsections : ∀ o ∈ overrides, o.2.length = 2 → o.2.head? ≠ some "debug" := by decide
  rcases hlengths p hp with hlength | halone
  · have hkeys : (keysOf p.2).length = [Scalar.str name, key].length := by
      rw [keysOf, List.length_map, hlength]
      rfl
    exact ⟨fun h => hne (h.eq_of_length hkeys), fun h => hne (h.eq_of_length hkeys.symm).symm⟩
  · have hname : name ≠ "debug" := by
      rintro rfl
      exact hsections o ho (by rw [hpath]; rfl) (by rw [hpath]; rfl)
    rw [halone]
    constructor
    · intro h
      exact hname (Scalar.str.inj (List.cons_prefix_cons.1 h).1).symm
    · intro h
      exact hname (Scalar.str.inj (List.cons_prefix_cons.1 h).1)

/-- **Overriding variables act on their own settings only.** A variable that is set has its value below
its path. Entries in which no variable is at work are as they were; a section in which one is at work
keeps its other entries, and has no others if it was no mapping. The order of the variables does not
matter. A variable that is set to nothing makes its setting absent, so that the setting is not complained
about and has its default whatever the document says. -/
theorem overrides_act_separately (env : Environment) {es : Entries} (h : (Value.map es).Distinct) :
    (∀ o ∈ overrides, ∀ v, env.get? o.1 = some v →
      (Value.map (applyOverrides env es)).at? o.2 = some (.scalar (coerce v))) ∧
    (∀ key, (∀ o ∈ overrides, env.get? o.1 ≠ none → (keysOf o.2).head? ≠ some key) →
      Entries.find? key (applyOverrides env es) = Entries.find? key es) ∧
    (∀ o ∈ overrides, env.get? o.1 ≠ none → ∀ name inside, o.2 = [name, inside] →
      ∃ inner, Entries.get? name (applyOverrides env es) = some (.map inner) ∧
        ∀ key, (∀ p ∈ overrides, env.get? p.1 ≠ none → keysOf p.2 ≠ [.str name, key]) →
          Entries.find? key inner = Entries.find? key (sectionOf name es)) ∧
    (∀ os : List (String × List String), os.Perm overrides →
      Value.SameEntries (.map (os.foldl (override env) es)) (.map (applyOverrides env es))) ∧
    ∀ o ∈ overrides, env.get? o.1 = some "" →
      (Value.map (dropNullsEntries (applyOverrides env es))).at? o.2 = none ∧
      (Settings.check (.map (dropNullsEntries (applyOverrides env es)))).Spares (o.2.map .name) ∧
      ∀ c, Settings.check (.map (dropNullsEntries (applyOverrides env es))) = .ok c →
        c.toValue.at? o.2 = Settings.standard.toValue.at? o.2 := by
  have hne : ∀ o ∈ overrides, o.2 ≠ [] := by decide
  have hoverlay := overlay_applyOverrides env es
  refine ⟨hoverlay.own, fun key hkey => hoverlay.find?_eq hne hkey, ?inside, ?order, ?absent⟩
  case inside =>
    intro o ho hset name inside hpath
    obtain ⟨inner, hinner, hothers⟩ := hoverlay.section_eq ho hset hpath
    exact ⟨inner, hinner, fun key hkey => hothers key fun p hp hpset =>
      apart_in_section ho hpath hp (hkey p hp hpset)⟩
  case order =>
    intro os hos
    exact (overlay_perm env hos es).sameEntries hoverlay fun o => hos.mem_iff
  case absent =>
    intro o ho hempty
    have hnull : coerce "" = .null := rfl
    have hnone : (Value.map (dropNullsEntries (applyOverrides env es))).at? o.2 = none := by
      rw [at?_dropNulls (distinct_applyOverrides env h) (hne o ho), hoverlay.own o ho "" hempty, hnull]
      rfl
    exact ⟨hnone, Settings.spares_check (overrides_settingPlaces o ho) hnone, fun c hc =>
      (Settings.check_eq_ok_iff_readFrom.1 hc).eq_standard (overrides_settingPlaces o ho) hnone⟩

/-- A document in which one section is a mapping, one is a number and one is left out. -/
def mixedEntries : Entries :=
  fieldEntries [("hash_notation", .record [("max_depth", .int 2), ("note", .str "n")]),
    ("export", .int 7), ("title", .str "t")]

/-- An environment in which one variable is set to nothing. -/
def mixedEnvironment : Environment :=
  [("DOCEXPORT_MAX_DEPTH", ""), ("DOCEXPORT_PARALLEL_FILES", "4"), ("DOCEXPORT_DEBUG", "yes")]

/-- In such a document each variable acts on its own setting. -/
theorem overrides_act_separately_mixed :
    (Value.map mixedEntries).Distinct ∧
    (Value.map (applyOverrides mixedEnvironment mixedEntries)).at? ["export", "parallel_files"] =
      some (.int 4) ∧
    Entries.find? (.str "title") (applyOverrides mixedEnvironment mixedEntries) = some (.str "t") ∧
    (∃ inner, Entries.get? "hash_notation" (applyOverrides mixedEnvironment mixedEntries) =
        some (.map inner) ∧ Entries.find? (.str "note") inner = some (.str "n")) ∧
    (∃ inner, Entries.get? "export" (applyOverrides mixedEnvironment mixedEntries) =
        some (.map inner) ∧ Entries.find? (.str "note") inner = none) ∧
    Value.SameEntries (.map (overrides.reverse.foldl (override mixedEnvironment) mixedEntries))
      (.map (applyOverrides mixedEnvironment mixedEntries)) ∧
    ∃ c, Settings.check (.map (dropNullsEntries (applyOverrides mixedEnvironment
        (fieldEntries [("hash_notation", .str "deep")])))) = .ok c ∧
      c.toValue.at? ["hash_notation", "max_depth"] = some (.nat 3) := by
  have hmixed : (Value.map mixedEntries).Distinct := by
    refine Value.distinct_record (by decide) fun f hf => ?_
    simp only [List.mem_cons, List.not_mem_nil, or_false] at hf
    rcases hf with rfl | rfl | rfl
    · refine Value.distinct_record (by decide) fun f hf => ?_
      simp only [List.mem_cons, List.not_mem_nil, or_false] at hf
      rcases hf with rfl | rfl <;> exact .scalar _
    · exact .scalar _
    · exact .scalar _
  have hdeep : (Value.map (fieldEntries [("hash_notation", .str "deep")])).Distinct :=
    Value.distinct_record (by decide) (List.forall_mem_singleton.2 (.scalar _))
  obtain ⟨hown, hentries, hsections, horder, -⟩ := overrides_act_separately mixedEnvironment hmixed
  obtain ⟨-, -, -, -, habsent⟩ := overrides_act_separately mixedEnvironment hdeep
  refine ⟨hmixed, ?_, ?_, ?_, ?_, horder _ (List.reverse_perm _), ?_⟩
  · exact hown ("DOCEXPORT_PARALLEL_FILES", ["export", "parallel_files"]) (by decide) "4" rfl
  · exact hentries (.str "title") (by decide)
  · obtain ⟨inner, hinner, hothers⟩ := hsections
      ("DOCEXPORT_MAX_DEPTH", ["hash_notation", "max_depth"]) (by decide) (by decide) _ _ rfl
    exact ⟨inner, hinner, hothers _ (by decide)⟩
  · obtain ⟨inner, hinner, hothers⟩ := hsections
      ("DOCEXPORT_PARALLEL_FILES", ["export", "parallel_files"]) (by decide) (by decide) _ _ rfl
    exact ⟨inner, hinner, hothers _ (by decide)⟩
  · obtain ⟨-, -, hdefault⟩ := habsent ("DOCEXPORT_MAX_DEPTH", ["hash_notation", "max_depth"])
      (by decide) rfl
    exact ⟨_, rfl, hdefault _ rfl⟩

end DocTree
