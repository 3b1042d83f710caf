import DocTree.Proofs.Tag.Registry
import DocTree.Settings.Basic

/-!
# What an extended registry answers

A registry is extended by binding further names, and asked about annotations. Names are bound in lower
case and otherwise as they are written, whereas an annotation is looked up without its leading `@`, so a
binding is found only if its name is written without one (`Covers`, `lowerName_eq_lookupName_iff`). With
this proviso the last binding that stands for an annotation decides (`extended_answers`); a name that is
written with `@` is bound and never found (`extended_ignores_sigil`).
-/

namespace DocTree

open Bindings

/-! ## Names -/

/-- The name is written without a leading `@`. -/
def Bare (name : String) : Prop := name.toList.head? ≠ some '@'

instance (name : String) : Decidable (Bare name) := inferInstanceAs (Decidable (_ ≠ _))

theorem bare_bareName (name : String) : Bare (bareName name) := by
  intro h
  rw [bareName, String.toList_ofList] at h
  have hnot := List.head?_dropWhile_not (· == '@') name.toList
  rw [h] at hnot
  exact absurd hnot (by decide)

theorem bareName_eq_self {name : String} (h : Bare name) : bareName name = name := by
  have hdrop : name.toList.dropWhile (· == '@') = name.toList := by
    cases hlist : name.toList with
    | nil => rfl
    | cons c rest =>
      refine List.dropWhile_cons_of_neg fun hc => h ?_
      rw [hlist, eq_of_beq hc]
      rfl
  rw [bareName, hdrop, String.ofList_toList]

theorem bare_lowerName_iff {name : String} : Bare (lowerName name) ↔ Bare name := by
  rw [Bare, Bare, lowerName, String.toList_ofList, Ne, Ne, Text.head?_lower_eq_at_iff]

/-- The name stands for the annotation: the two are the same but for leading `@` and case. -/
def Denotes (name asked : String) : Prop := lookupName name = lookupName asked

instance (name asked : String) : Decidable (Denotes name asked) :=
  inferInstanceAs (Decidable (_ = _))

/-- The name stands for the annotation and is written without `@`. -/
def Covers (name asked : String) : Prop := Bare name ∧ Denotes name asked

instance (name asked : String) : Decidable (Covers name asked) :=
  inferInstanceAs (Decidable (_ ∧ _))

/-- A binding is found by looking an annotation up exactly if its name covers the annotation. -/
theorem lowerName_eq_lookupName_iff {name asked : String} :
    lowerName name = lookupName asked ↔ Covers name asked := by
  constructor
  · intro h
    have hbare : Bare name := by
      rw [← bare_lowerName_iff, h, lookupName, bare_lowerName_iff]
      exact bare_bareName asked
    exact ⟨hbare, by rw [Denotes, ← h, lookupName, bareName_eq_self hbare]⟩
  · rintro ⟨hbare, hdenotes⟩
    rw [← hdenotes, lookupName, bareName_eq_self hbare]

namespace Registry

/-- Of an annotation, `s` says what the last of the bindings that are for it says, and what `r` says if
none is; it is bound in `s` if it is bound in `r` or there is a binding for it. Which names are for an
annotation is said by `For`. -/
structure Overrides (For : String → String → Prop) (r : Registry) (kinds : Bindings Value)
    (s : Registry) (asked : String) : Prop where
  given : ∀ v, LastWhere (For · asked) kinds v → v = .str (s.kindOf asked).name
  kept : (∀ b ∈ kinds, ¬For b.1 asked) → s.kindOf asked = r.kindOf asked
  bound : s.contains asked = true ↔
    r.contains asked = true ∨ ∃ b ∈ kinds, For b.1 asked

variable {r s : Registry} {kinds : Bindings Value} {n asked : String} {kind : TagKind}

/-! ## Bindings of an extended registry -/

/-- What a name is bound to when a registry is extended is a kind. -/
theorem exists_lastWhere_kind_iff (hr : Sound r) (h : r.extend kinds none = .ok s) :
    (∃ kind : TagKind, LastWhere (lowerName · = n) (asGiven r.kinds ++ kinds) (.str kind.name)) ↔
      ∃ b ∈ asGiven r.kinds ++ kinds, lowerName b.1 = n := by
  rw [← exists_lastWhere_iff (P := (lowerName · = n))]
  constructor
  · rintro ⟨kind, hlast⟩
    exact ⟨_, hlast⟩
  · rintro ⟨v, hlast⟩
    obtain ⟨kind, rfl⟩ := ((exists_extend_iff hr).1 ⟨s, h⟩).1 n v hlast
    exact ⟨kind, hlast⟩

/-- An extended registry has bound a name to what it was last bound to, also if it is a marker. -/
theorem get?_extend (hr : Sound r) (h : r.extend kinds none = .ok s) : get? n s.kinds = some kind ↔
    LastWhere (lowerName · = n) (asGiven r.kinds ++ kinds) (.str kind.name) := by
  have hmade : make (merged r kinds) r.markers (.str r.defaultKind.name) = .ok s := h
  have hget : ∀ kind, get? n s.kinds = some kind ↔
      LastWhere (lowerName · = n) (asGiven r.kinds ++ kinds) (.str kind.name) ∨
        kind = .binding ∧ n ∈ s.markers := by
    intro kind
    rw [get?_make hmade, lastWhere_merged hr]
  refine ⟨fun hkind => ?_, fun hlast => (hget kind).2 (.inl hlast)⟩
  rcases (hget kind).1 hkind with hlast | ⟨rfl, hn⟩
  · exact hlast
  -- a marker of `s` is one of `r`, which binds it, so there is a last binding of it
  have hn : n ∈ r.markers := by
    obtain ⟨-, -, -, hmarkers, -⟩ := make_eq_ok_iff.1 hmade
    rw [hmarkers, mem_lowered_markers] at hn
    obtain ⟨m, hm, rfl⟩ := hn
    rwa [hr.markers_lower m hm]
  have hbound := lastWhere_asGiven_kind.2 (hr.tidy.get?_eq_some_iff.1 (hr.markers_bound n hn))
  obtain ⟨b, hb, hname, -⟩ := hbound.exists_mem
  obtain ⟨kind, hlast⟩ :=
    (exists_lastWhere_kind_iff hr h).2 ⟨b, List.mem_append_left kinds hb, hname⟩
  have hsame := hkind.symm.trans ((hget kind).2 (.inl hlast))
  rwa [Option.some.inj hsame]

/-- A name that is no marker can be bound to any kind. -/
theorem exists_extend_of_not_marker {name : String} (kind : TagKind) (hr : Sound r)
    (hname : lowerName name ∉ r.markers) :
    ∃ s, r.extend [(name, .str kind.name)] none = .ok s := by
  refine (exists_extend_iff hr).2 ⟨?_, ?_⟩
  · intro n v hlast
    obtain ⟨b, hb, -, rfl⟩ := hlast.exists_mem
    rcases List.mem_append.1 hb with hb | hb
    · obtain ⟨c, -, rfl⟩ := List.mem_map.1 hb
      exact ⟨c.2, rfl⟩
    · rw [List.mem_singleton.1 hb]
      exact ⟨kind, rfl⟩
  · rintro ⟨m, hm, kind', hlast, hother⟩
    have hm : m ∈ r.markers := hm
    rw [hr.markers_lower m hm] at hlast
    rcases lastWhere_append.1 hlast with hlast | ⟨-, hlast⟩
    · obtain ⟨b, hb, rfl, -⟩ := hlast.exists_mem
      rw [List.mem_singleton.1 hb] at hm
      exact hname hm
    · have hget := hr.tidy.get?_eq_some_iff.2 (lastWhere_asGiven_kind.1 hlast)
      rw [hr.markers_bound m hm] at hget
      exact hother (Option.some.inj hget).symm

/-! ## Answers -/

theorem contains_iff : r.contains asked = true ↔
    ∃ kind, get? (lookupName asked) r.kinds = some kind := by
  rw [contains, Option.isSome_iff_exists]

theorem Sound.contains_iff (hr : Sound r) : r.contains asked = true ↔
    ∃ b ∈ asGiven r.kinds, lowerName b.1 = lookupName asked := by
  simp only [Registry.contains_iff, hr.tidy.get?_eq_some_iff, exists_lastWhere_iff]
  simp [asGiven]

theorem overrides_of_extend (hr : Sound r) (h : r.extend kinds none = .ok s) :
    Overrides Covers r kinds s asked where
  given v hlast := by
    simp only [← lowerName_eq_lookupName_iff] at hlast
    have hall : LastWhere (lowerName · = lookupName asked) (asGiven r.kinds ++ kinds) v :=
      lastWhere_append.2 (.inl hlast)
    obtain ⟨kind, rfl⟩ := ((exists_extend_iff hr).1 ⟨s, h⟩).1 _ v hall
    rw [kindOf, (get?_extend hr h).2 hall]
    rfl
  kept hnone := by
    simp only [← lowerName_eq_lookupName_iff] at hnone
    have hget : get? (lookupName asked) s.kinds = get? (lookupName asked) r.kinds := by
      ext kind
      rw [get?_extend hr h, lastWhere_append, lastWhere_asGiven_kind, hr.tidy.get?_eq_some_iff]
      constructor
      · rintro (hlast | ⟨-, hlast⟩)
        · obtain ⟨b, hb, hname, -⟩ := hlast.exists_mem
          exact absurd hname (hnone b hb)
        · exact hlast
      · exact fun hlast => .inr ⟨hnone, hlast⟩
    rw [kindOf, kindOf, hget, defaultKind_of_extend h]
  bound := by
    rw [Registry.contains_iff, hr.contains_iff]
    simp only [get?_extend hr h, exists_lastWhere_kind_iff hr h, ← lowerName_eq_lookupName_iff,
      List.mem_append, or_and_right, exists_or]

theorem overrides_nil : Overrides Covers r [] r asked where
  given _ hlast := absurd hlast not_lastWhere_nil
  kept _ := rfl
  bound := by simp

/-- **The last binding is what lookup sees**, of those for the annotation that are written without `@`,
both where a registry is extended and where settings extend it. -/
theorem extended_answers {d : Value} (hr : Made d r) :
    (∀ kinds s asked, r.extend kinds none = .ok s → Overrides Covers r kinds s asked) ∧
    ∀ (settings : Settings) s asked, settings.registry r = .ok s →
      Overrides Covers r (settings.extraTags.map fun t => (t.1, .str t.2)) s asked := by
  refine ⟨fun kinds s asked h => overrides_of_extend hr.sound h,
    fun settings s asked h => ?_⟩
  rw [Settings.registry] at h
  split at h
  · next hempty =>
    obtain rfl := Except.ok.inj h
    rw [List.isEmpty_iff.1 hempty]
    exact overrides_nil
  · exact overrides_of_extend hr.sound h

/-- Bound anew in one spelling, an annotation has the new kind in every other. -/
theorem extended_answers_return : Made (.str TagKind.plain.name) standard ∧
    ∃ s, standard.extend [("Return", .str TagKind.reference.name)] none = .ok s ∧
      s.kindOf "@RETURN" = .reference ∧ s.kindOf "see" = standard.kindOf "see" := by
  obtain ⟨s, hs⟩ := exists_extend_of_not_marker .reference made_standard.sound
    (show lowerName "Return" ∉ standard.markers by decide +kernel)
  have hextended := (extended_answers made_standard).1
  refine ⟨made_standard, s, hs, ?_, ?_⟩
  · have hlast : LastWhere (Covers · "@RETURN") [("Return", Value.str TagKind.reference.name)]
        (.str TagKind.reference.name) :=
      lastWhere_cons.2 (.inr ⟨by decide +kernel, rfl, by simp⟩)
    have hname := (hextended _ s "@RETURN" hs).given _ hlast
    exact (TagKind.name_injective (Scalar.str.inj (Value.scalar.inj hname))).symm
  · refine (hextended _ s "see" hs).kept fun b hb hcovers => ?_
    rw [List.mem_singleton.1 hb] at hcovers
    exact absurd hcovers (by decide +kernel)

/-- A name that is written with `@` is bound and never found: the kind given for `@option` is not the
kind of the annotation `option`. -/
theorem extended_ignores_sigil : ∃ s,
    standard.extend [("@option", .str TagKind.binding.name)] none = .ok s ∧
      s.kindOf "option" = .plain ∧
      ¬Overrides Denotes standard [("@option", .str TagKind.binding.name)] s "option" := by
  obtain ⟨s, hs⟩ := exists_extend_of_not_marker .binding made_standard.sound
    (show lowerName "@option" ∉ standard.markers by decide +kernel)
  have hplain : s.kindOf "option" = .plain := by
    refine (overrides_of_extend made_standard.sound hs).kept fun b hb hcovers => ?_
    rw [List.mem_singleton.1 hb] at hcovers
    exact absurd hcovers (by decide +kernel)
  refine ⟨s, hs, hplain, fun hoverrides => ?_⟩
  have hlast : LastWhere (Denotes · "option") [("@option", Value.str TagKind.binding.name)]
      (.str TagKind.binding.name) :=
    lastWhere_cons.2 (.inr ⟨by decide +kernel, rfl, by simp⟩)
  have hname := hoverrides.given _ hlast
  rw [hplain] at hname
  exact absurd hname (by decide)

end Registry

end DocTree
