import DocTree.Proofs.Settings.Overrides
import DocTree.Proofs.Settings.Stability

/-!
# Where settings stand

Each setting stands below a path of its own in a document (`settingPlaces`). Checking a document as
settings comes down to one question for each of them, whether the document gives it or leaves it to its
default (`Gives`), and to whether the three sections are mappings where they are there at all
(`Settings.check_eq_ok_iff_readFrom`). What else a document has, and in which order, does not matter:
two documents that agree below the path of a setting give the same setting (`Gives.congr`). A setting
that is absent is not complained about (`Settings.spares_check`) and has its default
(`Settings.ReadFrom.eq_standard`).
-/

namespace DocTree

open Schema Checked

/-- The names of the sections. -/
def sectionNames : List String := ["hash_notation", "export", "logging"]

/-- Where the settings stand. -/
def settingPlaces : List (List String) :=
  [["hash_notation", "max_depth"], ["hash_notation", "shared_index"],
    ["hash_notation", "fallback_to_raw"], ["export", "parallel_files"],
    ["export", "continue_on_error"], ["export", "deprecation_functions"], ["logging", "level"],
    ["logging", "file"], ["logging", "format"], ["extra_tags"], ["debug"]]

section Gives

variable {α : Type} {es fs : Entries} {path : List String} {name inside : String} {default x : α}
  {check : Value → Checked α}

/-- The document gives `x` below the path: it is read there, or nothing is there and `x` is the
default. -/
def Gives (es : Entries) (path : List String) (default : α) (check : Value → Checked α) (x : α) : Prop :=
  (∃ v, (Value.map es).at? path = some v ∧ check v = .ok x) ∨
    (Value.map es).at? path = none ∧ x = default

theorem Gives.congr (h : Gives es path default check x)
    (hsame : (Value.map fs).at? path = (Value.map es).at? path) : Gives fs path default check x := by
  rwa [Gives, hsame]

/-- Where nothing is given, the setting has its default. -/
theorem Gives.eq_default (h : Gives es path default check x) (hnone : (Value.map es).at? path = none) :
    x = default := by
  rcases h with ⟨v, hv, -⟩ | ⟨-, hx⟩
  · rw [hnone] at hv
    cases hv
  · exact hx

/-- What is given is read. -/
theorem Gives.check_eq {v : Value} (h : Gives es path default check x)
    (hv : (Value.map es).at? path = some v) : check v = .ok x := by
  rcases h with ⟨w, hw, hx⟩ | ⟨hnone, -⟩
  · obtain rfl := Option.some.inj (hv.symm.trans hw)
    exact hx
  · rw [hv] at hnone
    cases hnone

theorem field_eq_ok_iff_gives : field es name default check = .ok x ↔ Gives es [name] default check x := by
  rw [field_eq_ok_iff, Gives, at?_singleton]

theorem field_section_eq_ok_iff_gives : field (sectionOf name es) inside default check = .ok x ↔
    Gives es [name, inside] default check x := by
  rw [field_eq_ok_iff, Gives, get?_sectionOf]

/-- What the document gives below a section is read in the section. -/
theorem field_inside_of_gives {inner : Entries} (hinner : Entries.get? name es = some (.map inner))
    (h : Gives es [name, inside] default check x) : field inner inside default check = .ok x := by
  have hread := field_section_eq_ok_iff_gives.2 h
  rwa [sectionOf, hinner] at hread

/-- What is refused below a section is refused in the section. -/
theorem field_inside_of_bad {inner : Entries} {v : Value} {issues : List Issue}
    (hinner : Entries.get? name es = some (.map inner))
    (hat : (Value.map es).at? [name, inside] = some v) (hv : check v = .bad issues) :
    field inner inside default check = Checked.under (.name inside) (.bad issues) := by
  rw [at?_cons, hinner, Option.bind_some, at?_singleton] at hat
  rw [field, hat, ← hv]

/-- A section that may be left out is read like an empty one if it is. -/
theorem field_section_eq_ok_iff (hmap : ∀ v y, check v = .ok y → ∃ inner, v = .map inner)
    (hempty : check (.map []) = .ok default) : field es name default check = .ok x ↔
      IsSection name es ∧ check (.map (sectionOf name es)) = .ok x := by
  rw [field_eq_ok_iff, IsSection, sectionOf]
  constructor
  · rintro (⟨v, hv, hx⟩ | ⟨hnone, rfl⟩)
    · obtain ⟨inner, rfl⟩ := hmap v x hx
      rw [hv]
      exact ⟨.inr ⟨inner, rfl⟩, hx⟩
    · rw [hnone]
      exact ⟨.inl rfl, hempty⟩
  · rintro ⟨hnone | ⟨inner, hinner⟩, hx⟩
    · rw [hnone] at hx ⊢
      exact .inr ⟨rfl, Checked.ok.inj (hx.symm.trans hempty)⟩
    · rw [hinner] at hx ⊢
      exact .inl ⟨_, rfl, hx⟩

end Gives

/-! ## Sections -/

section Sections

variable {es fs : Entries}

/-- The section for hashes is what the document gives. -/
structure HashSection.ReadFrom (s : HashSection) (es : Entries) : Prop where
  isSection : IsSection "hash_notation" es
  maxDepth : Gives es ["hash_notation", "max_depth"] 3 (natBetween 1 10) s.maxDepth
  sharedIndex : Gives es ["hash_notation", "shared_index"] true truth s.sharedIndex
  fallbackToRaw : Gives es ["hash_notation", "fallback_to_raw"] true truth s.fallbackToRaw

/-- The section for the run is what the document gives. -/
structure ExportSection.ReadFrom (s : ExportSection) (es : Entries) : Prop where
  isSection : IsSection "export" es
  parallelFiles : Gives es ["export", "parallel_files"] 1 (natBetween 1 64) s.parallelFiles
  continueOnError : Gives es ["export", "continue_on_error"] true truth s.continueOnError
  deprecationFunctions : Gives es ["export", "deprecation_functions"] defaultDeprecationFunctions
    (fun v => (listOf text v).map cleanNames) s.deprecationFunctions

/-- The section for the log is what the document gives. -/
structure LogSection.ReadFrom (s : LogSection) (es : Entries) : Prop where
  isSection : IsSection "logging" es
  level : Gives es ["logging", "level"] .info levelName s.level
  file : Gives es ["logging", "file"] none (optional text) s.file
  format : Gives es ["logging", "format"] defaultLogFormat text s.format

/-- The settings are what the document gives. -/
structure Settings.ReadFrom (s : Settings) (es : Entries) : Prop where
  hashes : s.hashes.ReadFrom es
  exporting : s.exporting.ReadFrom es
  log : s.log.ReadFrom es
  extraTags : Gives es ["extra_tags"] [] (fun v => (mapOf text v).obeying extraTagsRule) s.extraTags
  debug : Gives es ["debug"] false truth s.debug

theorem HashSection.field_eq_ok_iff {s : HashSection} :
    field es "hash_notation" .standard HashSection.check = .ok s ↔ s.ReadFrom es := by
  have hmap : ∀ v y, HashSection.check v = .ok y → ∃ inner, v = .map inner := fun v y hy =>
    (check_eq_ok_iff.1 hy).imp fun _ h => h.1
  have hempty : HashSection.check (.map []) = .ok .standard := rfl
  rw [field_section_eq_ok_iff hmap hempty, check_eq_ok_iff]
  simp only [Value.map.injEq, exists_eq_left', field_section_eq_ok_iff_gives]
  exact ⟨fun ⟨h, hdepth, hshared, hraw⟩ => ⟨h, hdepth, hshared, hraw⟩,
    fun h => ⟨h.isSection, h.maxDepth, h.sharedIndex, h.fallbackToRaw⟩⟩

theorem ExportSection.field_eq_ok_iff {s : ExportSection} :
    field es "export" .standard ExportSection.check = .ok s ↔ s.ReadFrom es := by
  have hmap : ∀ v y, ExportSection.check v = .ok y → ∃ inner, v = .map inner := fun v y hy =>
    (check_eq_ok_iff.1 hy).imp fun _ h => h.1
  have hempty : ExportSection.check (.map []) = .ok .standard := rfl
  rw [field_section_eq_ok_iff hmap hempty, check_eq_ok_iff]
  simp only [Value.map.injEq, exists_eq_left', field_section_eq_ok_iff_gives]
  exact ⟨fun ⟨h, hfiles, hgoOn, hnames⟩ => ⟨h, hfiles, hgoOn, hnames⟩,
    fun h => ⟨h.isSection, h.parallelFiles, h.continueOnError, h.deprecationFunctions⟩⟩

theorem LogSection.field_eq_ok_iff {s : LogSection} :
    field es "logging" .standard LogSection.check = .ok s ↔ s.ReadFrom es := by
  have hmap : ∀ v y, LogSection.check v = .ok y → ∃ inner, v = .map inner := fun v y hy =>
    (check_eq_ok_iff.1 hy).imp fun _ h => h.1
  have hempty : LogSection.check (.map []) = .ok .standard := rfl
  rw [field_section_eq_ok_iff hmap hempty, check_eq_ok_iff]
  simp only [Value.map.injEq, exists_eq_left', field_section_eq_ok_iff_gives]
  exact ⟨fun ⟨h, hlevel, hfile, hformat⟩ => ⟨h, hlevel, hfile, hformat⟩,
    fun h => ⟨h.isSection, h.level, h.file, h.format⟩⟩

/-- **A document is read as settings exactly if it gives each of them.** -/
theorem Settings.check_eq_ok_iff_readFrom {s : Settings} :
    Settings.check (.map es) = .ok s ↔ s.ReadFrom es := by
  rw [Settings.check_eq_ok_iff]
  constructor
  · rintro ⟨es, hes, hhashes, hexporting, hlog, hextra, hdebug⟩
    obtain rfl := Value.map.inj hes
    exact ⟨HashSection.field_eq_ok_iff.1 hhashes, ExportSection.field_eq_ok_iff.1 hexporting,
      LogSection.field_eq_ok_iff.1 hlog, field_eq_ok_iff_gives.1 hextra, field_eq_ok_iff_gives.1 hdebug⟩
  · intro h
    exact ⟨es, rfl, HashSection.field_eq_ok_iff.2 h.hashes, ExportSection.field_eq_ok_iff.2 h.exporting,
      LogSection.field_eq_ok_iff.2 h.log, field_eq_ok_iff_gives.2 h.extraTags,
      field_eq_ok_iff_gives.2 h.debug⟩

end Sections

/-! ## What is absent -/

section Absent

variable {es : Entries} {v : Value} {path : List String} {name inside : String}

theorem HashSection.spares_check (h : ∀ inner, v = .map inner → Entries.get? inside inner = none) :
    (HashSection.check v).Spares [.name inside] :=
  spares_ofFields (List.cons_ne_nil _ _) fun inner hv =>
    have hfield := h inner hv
    (((spares_field_of_none hfield).fmap _).seq (spares_field_of_none hfield)).seq
      (spares_field_of_none hfield)

theorem ExportSection.spares_check (h : ∀ inner, v = .map inner → Entries.get? inside inner = none) :
    (ExportSection.check v).Spares [.name inside] :=
  spares_ofFields (List.cons_ne_nil _ _) fun inner hv =>
    have hfield := h inner hv
    (((spares_field_of_none hfield).fmap _).seq (spares_field_of_none hfield)).seq
      (spares_field_of_none hfield)

theorem LogSection.spares_check (h : ∀ inner, v = .map inner → Entries.get? inside inner = none) :
    (LogSection.check v).Spares [.name inside] :=
  spares_ofFields (List.cons_ne_nil _ _) fun inner hv =>
    have hfield := h inner hv
    (((spares_field_of_none hfield).fmap _).seq (spares_field_of_none hfield)).seq
      (spares_field_of_none hfield)

/-- The settings are those in sections, and two by themselves. -/
theorem forall_settingPlaces {P : List String → Prop}
    (inside : ∀ name ∈ sectionNames, ∀ inside, P [name, inside]) (alone : ∀ name, P [name]) :
    ∀ path ∈ settingPlaces, P path := by
  have hhashes := inside "hash_notation" (by decide)
  have hexporting := inside "export" (by decide)
  have hlog := inside "logging" (by decide)
  simp only [settingPlaces, List.forall_mem_cons, hhashes, hexporting, hlog, alone, true_and]
  exact List.forall_mem_nil _

/-- **A setting that is absent is not complained about.** -/
theorem Settings.spares_check (hpath : path ∈ settingPlaces) (hnone : (Value.map es).at? path = none) :
    (Settings.check (.map es)).Spares (path.map .name) := by
  revert hnone
  refine forall_settingPlaces (P := fun path => (Value.map es).at? path = none →
    (Settings.check (.map es)).Spares (path.map .name)) ?inside ?alone path hpath
  case inside =>
    intro name hname inside hnone
    have hinner : ∀ v, Entries.get? name es = some v → ∀ inner, v = .map inner →
        Entries.get? inside inner = none := by
      rintro _ hv inner rfl
      rwa [at?_cons, hv, Option.bind_some, at?_singleton] at hnone
    -- a setting that is no section has another name
    have hother : ∀ {other : String} {p : Prop}, other ∉ sectionNames → other = name → p :=
      fun hno heq => absurd (heq ▸ hname) hno
    refine Spares.seq (Spares.seq (Spares.seq (Spares.seq (Spares.fmap ?hashes _) ?exporting) ?log) ?extra)
      ?debug
    case hashes => exact spares_field fun v hv hget => HashSection.spares_check (hinner v (hv ▸ hget))
    case exporting => exact spares_field fun v hv hget => ExportSection.spares_check (hinner v (hv ▸ hget))
    case log => exact spares_field fun v hv hget => LogSection.spares_check (hinner v (hv ▸ hget))
    case extra => exact spares_field fun v heq _ => hother (by decide) heq
    case debug => exact spares_field fun v heq _ => hother (by decide) heq
  case alone =>
    intro name hnone
    rw [at?_singleton] at hnone
    exact (((((spares_field_of_none hnone).fmap _).seq (spares_field_of_none hnone)).seq
      (spares_field_of_none hnone)).seq (spares_field_of_none hnone)).seq (spares_field_of_none hnone)

/-- **A setting that is absent has its default.** -/
theorem Settings.ReadFrom.eq_standard {s : Settings} (h : s.ReadFrom es) (hpath : path ∈ settingPlaces)
    (hnone : (Value.map es).at? path = none) :
    s.toValue.at? path = Settings.standard.toValue.at? path := by
  simp only [settingPlaces, List.mem_cons, List.not_mem_nil, or_false] at hpath
  rcases hpath with rfl | rfl | rfl | rfl | rfl | rfl | rfl | rfl | rfl | rfl | rfl
  · exact congrArg (fun n => some (Value.nat n)) (h.hashes.maxDepth.eq_default hnone)
  · exact congrArg (fun b => some (Value.bool b)) (h.hashes.sharedIndex.eq_default hnone)
  · exact congrArg (fun b => some (Value.bool b)) (h.hashes.fallbackToRaw.eq_default hnone)
  · exact congrArg (fun n => some (Value.nat n)) (h.exporting.parallelFiles.eq_default hnone)
  · exact congrArg (fun b => some (Value.bool b)) (h.exporting.continueOnError.eq_default hnone)
  · exact congrArg (fun ts => some (Value.strs ts)) (h.exporting.deprecationFunctions.eq_default hnone)
  · exact congrArg (fun l => some (Value.str (LogLevel.name l))) (h.log.level.eq_default hnone)
  · exact congrArg (fun f => some (Value.optStr f)) (h.log.file.eq_default hnone)
  · exact congrArg (fun f => some (Value.str f)) (h.log.format.eq_default hnone)
  · exact congrArg (fun ts => some (Value.record (ts.map fun t => (t.1, .str t.2))))
      (h.extraTags.eq_default hnone)
  · exact congrArg (fun b => some (Value.bool b)) (h.debug.eq_default hnone)

end Absent

end DocTree
