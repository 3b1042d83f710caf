import DocTree.Proofs.Settings.Noninterference
import DocTree.Proofs.Settings.Variables

/-!
# Documents that agree but for one setting

Two documents may differ in a single setting, because one of them has another value at its place
(`agreeBut_of_apart`) or because an overriding variable is set (`agreeBut_of_variable`). `AgreeBut` says
what they still have in common, as far as checking them as settings is concerned: the other settings, the
sections, and the keys that are no names. Everything that is done to a document on the way to its check
keeps it: replacing references, overriding settings and dropping what is absent. In the end the sections
without the setting are read in both documents alike (`AgreeBut.hashes`, `AgreeBut.exporting`,
`AgreeBut.log`).
-/

namespace DocTree

open Schema

/-- Apart from the place, `fs` gives the settings that `es` gives; and its sections are mappings as far
as those of `es` are. -/
structure AgreeBut (place : List String) (es fs : Entries) : Prop where
  settings : ∀ p ∈ settingPlaces, p ≠ place → (Value.map fs).at? p = (Value.map es).at? p
  sections : ∀ name ∈ sectionNames, Entries.get? name fs = Entries.get? name es ∨
    ∃ inner, Entries.get? name fs = some (.map inner)
  others : ∀ key, (∀ s, key ≠ .str s) → Entries.find? key fs = Entries.find? key es

/-- Settings stand apart from each other, and sections above them. -/
theorem apart_settingPlaces : ∀ p ∈ settingPlaces, ∀ q ∈ settingPlaces, p = q ∨ Apart p q := by decide

theorem sectionNames_settingPlaces : ∀ p ∈ settingPlaces, ∀ name ∈ sectionNames,
    Apart p [name] ∨ [name] <+: p ∧ p ≠ [name] := by decide

variable {place : List String} {es fs : Entries} {env env' : Environment} {name : String}

/-- Above what is there, there are mappings. -/
theorem exists_map_of_at? (es : Entries) {more : List String} (hmore : more ≠ [])
    (h : (Value.map es).at? (name :: more) ≠ none) : ∃ inner, Entries.get? name es = some (.map inner) := by
  obtain ⟨next, more, rfl⟩ := List.exists_cons_of_ne_nil hmore
  rw [at?_cons] at h
  cases hget : Entries.get? name es with
  | none =>
    rw [hget] at h
    exact absurd rfl h
  | some v =>
    rw [hget] at h
    cases v with
    | map inner => exact ⟨inner, rfl⟩
    | scalar s => exact absurd rfl h
    | list items => exact absurd rfl h

/-- Documents that differ below one place only, where the second one has something. -/
theorem agreeBut_of_apart (hplace : place ∈ settingPlaces)
    (h : ∀ keys, Apart (keysOf place) keys → (Value.map fs).lookup keys = (Value.map es).lookup keys)
    (hthere : (Value.map fs).at? place ≠ none) : AgreeBut place es fs where
  settings p hp hne := by
    rw [← lookup_keysOf, ← lookup_keysOf]
    exact h _ (apart_keysOf.2 ((apart_settingPlaces place hplace p hp).resolve_left (Ne.symm hne)))
  sections name hname := by
    rcases sectionNames_settingPlaces place hplace name hname with hapart | ⟨⟨more, rfl⟩, hne⟩
    · have hsame := h [.str name] (apart_keysOf.2 hapart)
      rw [lookup_singleton, lookup_singleton] at hsame
      exact .inl hsame
    · have hmore : more ≠ [] := by
        rintro rfl
        exact hne rfl
      exact .inr (exists_map_of_at? fs hmore hthere)
  others key hkey := by
    rw [← lookup_singleton, ← lookup_singleton]
    refine h [key] ?_
    cases place with
    | nil => exact absurd hplace (by decide)
    | cons name more =>
      exact ⟨fun hp => hkey name (List.cons_prefix_cons.1 hp).1.symm,
        fun hp => hkey name (List.cons_prefix_cons.1 hp).1⟩

/-! ## Replacing references -/

theorem find?_substitute (env : Environment) (key : Scalar) (es : Entries) :
    Entries.find? key (substituteEntries env es) = (Entries.find? key es).map (substitute env) := by
  induction es with
  | nil => rfl
  | cons e rest ih =>
    rw [substituteEntries, Entries.find?, Entries.find?, ih]
    split <;> rfl

theorem at?_substitute (env : Environment) (path : List String) (es : Entries) :
    (Value.map (substituteEntries env es)).at? path = ((Value.map es).at? path).map (substitute env) := by
  induction path generalizing es with
  | nil => rw [Value.at?, Value.at?, Option.map_some, substitute]
  | cons name more ih =>
    have hfind : Entries.get? name (substituteEntries env es) =
        (Entries.get? name es).map (substitute env) := find?_substitute env _ es
    rw [at?_cons, at?_cons, hfind]
    cases Entries.get? name es with
    | none => rfl
    | some v =>
      cases more with
      | nil => rfl
      | cons next more =>
        cases v with
        | map inner => exact ih inner
        | list items => rfl
        | scalar s => cases s <;> rfl

theorem AgreeBut.substitute (h : AgreeBut place es fs) (env : Environment) :
    AgreeBut place (substituteEntries env es) (substituteEntries env fs) where
  settings p hp hne := by rw [at?_substitute, at?_substitute, h.settings p hp hne]
  sections name hname := by
    have hfind : ∀ es : Entries, Entries.get? name (substituteEntries env es) =
        (Entries.get? name es).map (DocTree.substitute env) := find?_substitute env _
    rw [hfind, hfind]
    rcases h.sections name hname with hsame | ⟨inner, hinner⟩
    · exact .inl (by rw [hsame])
    · exact .inr ⟨substituteEntries env inner, by rw [hinner, Option.map_some, DocTree.substitute]⟩
  others key hkey := by rw [find?_substitute, find?_substitute, h.others key hkey]

/-! ## Overriding settings -/

/-- Some variable that overrides a setting in the section is set. -/
def SectionSet (env : Environment) (name : String) : Prop :=
  ∃ o ∈ overrides, env.get? o.1 ≠ none ∧ [name] <+: o.2

/-- A section with a setting that is overridden becomes a mapping. -/
theorem SectionSet.exists_map (h : SectionSet env name) (hname : name ∈ sectionNames) (es : Entries) :
    ∃ inner, Entries.get? name (applyOverrides env es) = some (.map inner) := by
  obtain ⟨o, ho, hset, more, hmore⟩ := h
  obtain ⟨v, hv⟩ := Option.ne_none_iff_exists'.1 hset
  have hown := (overlay_applyOverrides env es).own o ho v hv
  have hne : more ≠ [] := by
    have halone : ∀ name ∈ sectionNames, ∀ o ∈ overrides, [name] ≠ o.2 := by decide
    rintro rfl
    exact halone name hname o ho hmore
  rw [← hmore] at hown
  exact exists_map_of_at? _ hne (by rw [← List.singleton_append, hown]; nofun)

/-- Any other section is as it was. -/
theorem get?_of_not_sectionSet (h : ¬SectionSet env name) (es : Entries) :
    Entries.get? name (applyOverrides env es) = Entries.get? name es := by
  refine (overlay_applyOverrides env es).find?_eq (by decide) fun o ho hset hhead => h ⟨o, ho, hset, ?_⟩
  obtain ⟨first, more, hpath⟩ := List.exists_cons_of_ne_nil
    ((by decide : ∀ o ∈ overrides, o.2 ≠ []) o ho)
  rw [hpath] at hhead ⊢
  obtain rfl : first = name := Scalar.str.inj (Option.some.inj hhead)
  exact ⟨more, rfl⟩

/-- A key that is no name stays as it was. -/
theorem find?_applyOverrides_of_not_str {key : Scalar} (hkey : ∀ s, key ≠ .str s) (env : Environment)
    (es : Entries) : Entries.find? key (applyOverrides env es) = Entries.find? key es := by
  refine (overlay_applyOverrides env es).find?_eq (by decide) fun o _ _ hhead => ?_
  obtain ⟨name, hname⟩ : ∃ name, key = .str name := by
    cases hpath : o.2 with
    | nil =>
      rw [hpath] at hhead
      cases hhead
    | cons name more =>
      rw [hpath] at hhead
      exact ⟨name, (Option.some.inj hhead).symm⟩
  exact hkey name hname

theorem AgreeBut.applyOverrides (h : AgreeBut place es fs) (env : Environment) :
    AgreeBut place (applyOverrides env es) (applyOverrides env fs) where
  settings p hp hne := by
    have hapart : ∀ o ∈ overrides, o.2 = p ∨ Apart o.2 p := fun o ho =>
      apart_settingPlaces o.2 (overrides_settingPlaces o ho) p hp
    have hpath : p ≠ [] := by
      rintro rfl
      exact absurd hp (by decide)
    rcases at?_applyOverrides env hpath hapart with hkeep | ⟨s, hset⟩
    · rw [hkeep, hkeep, h.settings p hp hne]
    · rw [hset, hset]
  sections name hname := by
    by_cases hset : SectionSet env name
    · exact .inr (hset.exists_map hname fs)
    · rw [get?_of_not_sectionSet hset, get?_of_not_sectionSet hset]
      exact h.sections name hname
  others key hkey := by
    rw [find?_applyOverrides_of_not_str hkey, find?_applyOverrides_of_not_str hkey, h.others key hkey]

/-- A setting whose variables are not set is as it was. -/
theorem at?_applyOverrides_of_unset {p : List String} (hp : p ∈ settingPlaces)
    (hunset : ∀ o ∈ overrides, o.2 = p → env.get? o.1 = none) (es : Entries) :
    (Value.map (applyOverrides env es)).at? p = (Value.map es).at? p := by
  rw [← lookup_keysOf, ← lookup_keysOf]
  refine (overlay_applyOverrides env es).others _ fun o ho hset => apart_keysOf.2 ?_
  refine (apart_settingPlaces o.2 (overrides_settingPlaces o ho) p hp).resolve_left fun heq => ?_
  exact hset (hunset o ho heq)

/-- Setting one more variable changes the setting that it overrides. -/
theorem agreeBut_of_variable (h : SameVariables name env env')
    (hplace : ∀ o ∈ overrides, o.1 = name → o.2 = place) (hset : env'.get? name ≠ none) (es : Entries) :
    AgreeBut place (applyOverrides env es) (applyOverrides env' es) where
  settings p hp hne := by
    have hother : ∀ o ∈ overrides, o.2 = p → env'.get? o.1 = env.get? o.1 := by
      rintro o ho rfl
      exact h o.1 fun hname => hne (hplace o ho hname)
    by_cases hown : ∃ o ∈ overrides, o.2 = p ∧ env.get? o.1 ≠ none
    · obtain ⟨o, ho, rfl, hvalue⟩ := hown
      obtain ⟨v, hv⟩ := Option.ne_none_iff_exists'.1 hvalue
      rw [(overlay_applyOverrides env es).own o ho v hv,
        (overlay_applyOverrides env' es).own o ho v ((hother o ho rfl).trans hv)]
    · push Not at hown
      rw [at?_applyOverrides_of_unset hp hown,
        at?_applyOverrides_of_unset hp fun o ho heq => (hother o ho heq).trans (hown o ho heq)]
  sections name' hname' := by
    by_cases hsection : SectionSet env' name'
    · exact .inr (hsection.exists_map hname' es)
    · have hbefore : ¬SectionSet env name' := by
        rintro ⟨o, ho, hvalue, hbelow⟩
        refine hsection ⟨o, ho, ?_, hbelow⟩
        by_cases hname : o.1 = name
        · rwa [hname]
        · rwa [h o.1 hname]
      rw [get?_of_not_sectionSet hsection, get?_of_not_sectionSet hbefore]
      exact .inl rfl
  others key hkey := by
    rw [find?_applyOverrides_of_not_str hkey, find?_applyOverrides_of_not_str hkey]

/-! ## Dropping what is absent -/

theorem AgreeBut.dropNulls (h : AgreeBut place es fs) (hes : (Value.map es).Distinct)
    (hfs : (Value.map fs).Distinct) : AgreeBut place (dropNullsEntries es) (dropNullsEntries fs) where
  settings p hp hne := by
    have hpath : p ≠ [] := by
      rintro rfl
      exact absurd hp (by decide)
    rw [at?_dropNulls hes hpath, at?_dropNulls hfs hpath, h.settings p hp hne]
  sections name hname := by
    have hfind : ∀ {es : Entries}, (Value.map es).Distinct → Entries.get? name (dropNullsEntries es) =
        ((Entries.get? name es).filter fun v => !v.isNull).map DocTree.dropNulls := fun hes =>
      Value.find?_dropNulls hes _
    rw [hfind hes, hfind hfs]
    rcases h.sections name hname with hsame | ⟨inner, hinner⟩
    · exact .inl (by rw [hsame])
    · exact .inr ⟨dropNullsEntries inner, by rw [hinner]; rfl⟩
  others key hkey := by rw [Value.find?_dropNulls hes, Value.find?_dropNulls hfs, h.others key hkey]

theorem AgreeBut.prepare (h : AgreeBut place es fs) (hes : (Value.map es).Distinct)
    (hfs : (Value.map fs).Distinct) (env : Environment) :
    AgreeBut place (prepareSettings env es) (prepareSettings env fs) :=
  ((h.substitute env).applyOverrides env).dropNulls
    (distinct_applyOverrides env (hes.substitute env)) (distinct_applyOverrides env (hfs.substitute env))

/-- What a document has below a path becomes of it if no variable overrides it. -/
theorem at?_prepare (hplace : place ∈ settingPlaces)
    (hunset : ∀ o ∈ overrides, o.2 = place → env.get? o.1 = none) (hes : (Value.map es).Distinct) :
    (Value.map (prepareSettings env es)).at? place =
      ((((Value.map es).at? place).map (substitute env)).filter fun v => !v.isNull).map dropNulls := by
  have hpath : place ≠ [] := by
    rintro rfl
    exact absurd hplace (by decide)
  rw [prepareSettings, at?_dropNulls (distinct_applyOverrides env (hes.substitute env)) hpath,
    at?_applyOverrides_of_unset hplace hunset, at?_substitute]

/-! ## Checking -/

section Checking

variable (h : AgreeBut place es fs)

include h

theorem AgreeBut.isSection (hname : name ∈ sectionNames) (hes : IsSection name es) :
    IsSection name fs := by
  rcases h.sections name hname with hsame | hinner
  · rwa [IsSection, hsame]
  · exact .inr hinner

/-- The section for hashes is read alike if the place lies in another one. -/
theorem AgreeBut.hashes (hplace : place.head? ≠ some "hash_notation") {s : HashSection}
    (hs : s.ReadFrom es) : s.ReadFrom fs where
  isSection := h.isSection (by decide) hs.isSection
  maxDepth := hs.maxDepth.congr (h.settings _ (by decide) fun heq => hplace (heq ▸ rfl))
  sharedIndex := hs.sharedIndex.congr (h.settings _ (by decide) fun heq => hplace (heq ▸ rfl))
  fallbackToRaw := hs.fallbackToRaw.congr (h.settings _ (by decide) fun heq => hplace (heq ▸ rfl))

/-- The section for the run is read alike if the place lies in another one. -/
theorem AgreeBut.exporting (hplace : place.head? ≠ some "export") {s : ExportSection}
    (hs : s.ReadFrom es) : s.ReadFrom fs where
  isSection := h.isSection (by decide) hs.isSection
  parallelFiles := hs.parallelFiles.congr (h.settings _ (by decide) fun heq => hplace (heq ▸ rfl))
  continueOnError := hs.continueOnError.congr (h.settings _ (by decide) fun heq => hplace (heq ▸ rfl))
  deprecationFunctions :=
    hs.deprecationFunctions.congr (h.settings _ (by decide) fun heq => hplace (heq ▸ rfl))

/-- The section for the log is read alike if the place lies in another one. -/
theorem AgreeBut.log (hplace : place.head? ≠ some "logging") {s : LogSection}
    (hs : s.ReadFrom es) : s.ReadFrom fs where
  isSection := h.isSection (by decide) hs.isSection
  level := hs.level.congr (h.settings _ (by decide) fun heq => hplace (heq ▸ rfl))
  file := hs.file.congr (h.settings _ (by decide) fun heq => hplace (heq ▸ rfl))
  format := hs.format.congr (h.settings _ (by decide) fun heq => hplace (heq ▸ rfl))

theorem AgreeBut.extraTags (hplace : place.head? ≠ some "extra_tags") {c : Settings}
    (hc : c.ReadFrom es) :
    Gives fs ["extra_tags"] [] (fun v => (mapOf text v).obeying extraTagsRule) c.extraTags :=
  hc.extraTags.congr (h.settings _ (by decide) fun heq => hplace (heq ▸ rfl))

theorem AgreeBut.debug (hplace : place.head? ≠ some "debug") {c : Settings} (hc : c.ReadFrom es) :
    Gives fs ["debug"] false truth c.debug :=
  hc.debug.congr (h.settings _ (by decide) fun heq => hplace (heq ▸ rfl))

end Checking

end DocTree
