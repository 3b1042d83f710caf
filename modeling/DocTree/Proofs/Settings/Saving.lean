import DocTree.Proofs.Files.Folder
import DocTree.Proofs.Settings.Loading
import DocTree.Proofs.Settings.Places
import DocTree.Proofs.Settings.References
import DocTree.Proofs.Yaml.Reading
import DocTree.Proofs.Yaml.Writing
import DocTree.Settings.Load

/-!
# Saved settings

Settings that were loaded and saved are loaded again as they were, in the same environment
(`Loader.load_saved`), provided that their texts do not refer to the environment and that the document
that is saved is read back from its text.

## Shape of the proof

A saved document has no references and no absent values, so of all that is done to a document that is
loaded only the overriding variables act on it. They act setting by setting
(`at?_applyOverrides`): a setting that they override has the same value in both documents, and a setting
that they leave alone is read back from what was saved for it, because reading is stable
(`field_again`). A section may be absent from the first document; it is then read like an empty one
(`field_section_eq_ok_iff`).
-/

namespace DocTree

open Schema Checked

/-- The texts among settings. -/
def Settings.texts (s : Settings) : List String :=
  s.log.level.name :: s.log.format :: s.log.file.toList ++ s.exporting.deprecationFunctions ++
    s.extraTags.map (·.2)

/-- The entries that settings are saved as. -/
def Settings.savedEntries (s : Settings) : Entries :=
  fieldEntries [("hash_notation", s.hashes.toValue), ("export", s.exporting.toValue),
    ("logging", s.log.toSavedValue),
    ("extra_tags", .record (s.extraTags.map fun t => (t.1, .str t.2))), ("debug", .bool s.debug)]

/-- The file that a loader saves to, given another one or none. -/
def Loader.savePath (l : Loader) (given : Option String) : Option String :=
  ((given.filter (· != "")).map Path.normal).or l.path

/-! ## What is saved -/

section Saved

variable {fields : List (String × Value)} {ts : List String}

theorem literal_record (h : ∀ f ∈ fields, f.2.Literal) : (Value.record fields).Literal :=
  .map (List.forall_mem_map.2 h)

theorem literal_bool (b : Bool) : (Value.bool b).Literal := .scalar nofun

theorem literal_nat (n : Nat) : (Value.nat n).Literal := .scalar nofun

theorem literal_strs (h : ∀ t ∈ ts, ¬Refers t) : (Value.strs ts).Literal :=
  .list (List.forall_mem_map.2 fun t ht => .text (h t ht))

theorem elementary_record (h : ∀ f ∈ fields, f.2.Elementary) : (Value.record fields).Elementary :=
  .map (List.forall_mem_map.2 fun _ _ => rfl) (List.forall_mem_map.2 h)

theorem elementary_strs (ts : List String) : (Value.strs ts).Elementary :=
  .list (List.forall_mem_map.2 fun _ _ => .scalar rfl)

/-- A section for the log is saved with the file only if there is one. -/
theorem LogSection.forall_toSavedValue {P : Value → Prop} (s : LogSection)
    (hrecord : ∀ fields : List (String × Value), (∀ f ∈ fields, P f.2) → P (.record fields))
    (hlevel : P (.str s.level.name)) (hfile : ∀ f, s.file = some f → P (.str f))
    (hformat : P (.str s.format)) : P s.toSavedValue := by
  refine hrecord _ fun f hf => ?_
  simp only [List.mem_append, List.mem_singleton] at hf
  rcases hf with (rfl | hf) | rfl
  · exact hlevel
  · cases hs : s.file with
    | none =>
      rw [hs] at hf
      exact absurd hf List.not_mem_nil
    | some g =>
      rw [hs, List.mem_singleton] at hf
      rw [hf]
      exact hfile g hs
  · exact hformat

/-- Saved settings are a document without references if their texts have none. -/
theorem Settings.literal_savedEntries {c : Settings} (h : ∀ s ∈ c.texts, ¬Refers s) :
    (Value.map c.savedEntries).Literal := by
  simp only [Settings.texts, List.mem_append, List.mem_cons] at h
  refine literal_record fun f hf => ?_
  simp only [List.mem_cons, List.not_mem_nil, or_false] at hf
  rcases hf with rfl | rfl | rfl | rfl | rfl
  · refine literal_record fun f hf => ?_
    simp only [List.mem_cons, List.not_mem_nil, or_false] at hf
    rcases hf with rfl | rfl | rfl
    · exact literal_nat _
    · exact literal_bool _
    · exact literal_bool _
  · refine literal_record fun f hf => ?_
    simp only [List.mem_cons, List.not_mem_nil, or_false] at hf
    rcases hf with rfl | rfl | rfl
    · exact literal_nat _
    · exact literal_bool _
    · exact literal_strs fun t ht => h t (.inl (.inr ht))
  · refine c.log.forall_toSavedValue (fun _ => literal_record) (.text (h _ (.inl (.inl (.inl rfl)))))
      (fun f hf => .text (h f (.inl (.inl (.inr (.inr ?_))))))
      (.text (h _ (.inl (.inl (.inr (.inl rfl))))))
    rw [hf]
    exact List.mem_singleton_self f
  · exact literal_record (List.forall_mem_map.2 fun t ht =>
      .text (h t.2 (.inr (List.mem_map_of_mem ht))))
  · exact literal_bool _

/-- Saved settings are a document of texts, numbers and truth values. -/
theorem Settings.elementary_savedEntries (c : Settings) : (Value.map c.savedEntries).Elementary := by
  refine elementary_record fun f hf => ?_
  simp only [List.mem_cons, List.not_mem_nil, or_false] at hf
  rcases hf with rfl | rfl | rfl | rfl | rfl
  · refine elementary_record fun f hf => ?_
    simp only [List.mem_cons, List.not_mem_nil, or_false] at hf
    rcases hf with rfl | rfl | rfl <;> exact .scalar rfl
  · refine elementary_record fun f hf => ?_
    simp only [List.mem_cons, List.not_mem_nil, or_false] at hf
    rcases hf with rfl | rfl | rfl
    · exact .scalar rfl
    · exact .scalar rfl
    · exact elementary_strs _
  · exact c.log.forall_toSavedValue (fun _ => elementary_record) (.scalar rfl)
      (fun _ _ => .scalar rfl) (.scalar rfl)
  · exact elementary_record (List.forall_mem_map.2 fun _ _ => .scalar rfl)
  · exact .scalar rfl

/-! ## Saved values have nothing that is absent -/

theorem dropNulls_strs (ts : List String) : dropNulls (.strs ts) = .strs ts := by
  rw [Value.strs, dropNulls]
  refine congrArg Value.list ?_
  induction ts with
  | nil => rfl
  | cons t ts ih =>
    rw [List.map_cons, dropNullsItems, ih]
    rfl

theorem dropNulls_record_str (bs : List (String × String)) :
    dropNulls (.record (bs.map fun b => (b.1, .str b.2))) = .record (bs.map fun b => (b.1, .str b.2)) := by
  rw [Value.record, dropNulls]
  refine congrArg Value.map ?_
  induction bs with
  | nil => rfl
  | cons b bs ih =>
    rw [List.map_cons, List.map_cons, dropNullsEntries, if_neg (by exact Bool.false_ne_true), ih]
    rfl

end Saved

/-! ## One setting -/

section Setting

variable {α : Type} {check : Value → Checked α} {write : α → Value} {default x : α}
  {name : String} {env : Environment} {es saved read again : Entries} {path : List String}

/-- What is saved below a path, without what is absent. -/
def savedAt (path : List String) (saved : Entries) : Option Value :=
  (((Value.map saved).at? path).filter fun v => !v.isNull).map dropNulls

/-- **A setting that was read is read again** from where it was saved, in the same environment: either
the environment decides about it, in both documents, or it does not, and then what was saved is read. -/
theorem field_again (hstable : Stable check write) (hdefault : check (write default) = .ok default)
    (hpath : path ≠ []) (hoverrides : ∀ o ∈ overrides, o.2 = path ∨ Apart o.2 path)
    (hes : (Value.map es).Distinct) (hsaved : (Value.map saved).Distinct)
    (hfirst : read.get? name = (Value.map (dropNullsEntries (applyOverrides env es))).at? path)
    (hagain : again.get? name = (Value.map (dropNullsEntries (applyOverrides env saved))).at? path)
    (hwritten : savedAt path saved = some (write x) ∨ savedAt path saved = none ∧ x = default)
    (h : field read name default check = .ok x) : field again name default check = .ok x := by
  rw [at?_dropNulls (distinct_applyOverrides env hes) hpath] at hfirst
  rw [at?_dropNulls (distinct_applyOverrides env hsaved) hpath] at hagain
  rcases at?_applyOverrides env hpath hoverrides with hkeep | ⟨s, hset⟩
  · rw [hkeep] at hagain
    rcases hwritten with hwritten | ⟨habsent, hx⟩
    · exact hstable.field hdefault h (hagain.trans hwritten)
    · exact field_eq_ok_iff.2 (.inr ⟨hagain.trans habsent, hx⟩)
  · rw [hset] at hfirst hagain
    rw [field, hagain, ← hfirst]
    rwa [field] at h

/-- The same for a setting in a section. -/
theorem field_inside_again {inside : String} (hstable : Stable check write)
    (hdefault : check (write default) = .ok default)
    (hoverrides : ∀ o ∈ overrides, o.2 = [name, inside] ∨ Apart o.2 [name, inside])
    (hes : (Value.map es).Distinct) (hsaved : (Value.map saved).Distinct)
    (hwritten : savedAt [name, inside] saved = some (write x) ∨
      savedAt [name, inside] saved = none ∧ x = default)
    (h : field (sectionOf name (dropNullsEntries (applyOverrides env es))) inside default check = .ok x) :
    field (sectionOf name (dropNullsEntries (applyOverrides env saved))) inside default check = .ok x :=
  field_again hstable hdefault (List.cons_ne_nil _ _) hoverrides hes hsaved (get?_sectionOf ..)
    (get?_sectionOf ..) hwritten h

end Setting

/-! ## All settings -/

section Names

variable {es : Entries} {name : String} {value : Value}

theorem namesOnly_iff : namesOnly es = true ↔ ∀ e ∈ es, ∃ s, e.1 = .str s := by
  rw [namesOnly, List.all_eq_true]
  refine forall_congr' fun e => forall_congr' fun _ => ?_
  cases e.1 <;> simp

theorem namesOnly_put (h : namesOnly es = true) (name : String) (value : Value) :
    namesOnly (es.put name value) = true := by
  rw [namesOnly_iff] at h ⊢
  intro e he
  rcases Entries.mem_insert he with rfl | he
  · exact ⟨name, rfl⟩
  · exact h e he

theorem namesOnly_putBelow (h : namesOnly es = true) (path : List String) (value : Value) :
    namesOnly (putBelow value path es) = true := by
  cases path with
  | nil => exact h
  | cons name more =>
    cases more with
    | nil => exact namesOnly_put h _ _
    | cons next more =>
      rw [putBelow_cons]
      exact namesOnly_put h _ _

theorem namesOnly_dropNulls (h : namesOnly es = true) : namesOnly (dropNullsEntries es) = true := by
  rw [namesOnly_iff] at h ⊢
  induction es with
  | nil => exact fun e he => absurd he List.not_mem_nil
  | cons e rest ih =>
    obtain ⟨hfirst, hrest⟩ := List.forall_mem_cons.1 h
    rw [dropNullsEntries]
    split
    · exact ih hrest
    · exact List.forall_mem_cons.2 ⟨hfirst, ih hrest⟩

end Names

section Sections

variable {env : Environment} {es : Entries} {c : Settings}

/-- A document with the settings that an environment overrides, and without what is absent. -/
def overridden (env : Environment) (es : Entries) : Entries := dropNullsEntries (applyOverrides env es)

theorem HashSection.check_saved (hes : (Value.map es).Distinct)
    (hsaved : (Value.map c.savedEntries).Distinct)
    (h : HashSection.check (.map (sectionOf "hash_notation" (overridden env es))) = .ok c.hashes) :
    HashSection.check (.map (sectionOf "hash_notation" (overridden env c.savedEntries))) =
      .ok c.hashes := by
  obtain ⟨inner, hinner, hdepth, hshared, hraw⟩ := HashSection.check_eq_ok_iff.1 h
  obtain rfl := Value.map.inj hinner
  refine HashSection.check_eq_ok_iff.2 ⟨_, rfl, ?_, ?_, ?_⟩
  · exact field_inside_again (stable_natBetween 1 10) rfl (by decide) hes hsaved (.inl rfl) hdepth
  · exact field_inside_again stable_truth rfl (by decide) hes hsaved (.inl rfl) hshared
  · exact field_inside_again stable_truth rfl (by decide) hes hsaved (.inl rfl) hraw

theorem ExportSection.check_saved (hes : (Value.map es).Distinct)
    (hsaved : (Value.map c.savedEntries).Distinct)
    (h : ExportSection.check (.map (sectionOf "export" (overridden env es))) = .ok c.exporting) :
    ExportSection.check (.map (sectionOf "export" (overridden env c.savedEntries))) =
      .ok c.exporting := by
  obtain ⟨inner, hinner, hfiles, hgoOn, hnames⟩ := ExportSection.check_eq_ok_iff.1 h
  obtain rfl := Value.map.inj hinner
  have hdefault : (listOf text (.strs defaultDeprecationFunctions)).map cleanNames =
      .ok defaultDeprecationFunctions := by
    rw [listOf_text_strs, Checked.map, cleanNames_default]
  have hsavedNames : savedAt ["export", "deprecation_functions"] c.savedEntries =
      some (.strs c.exporting.deprecationFunctions) := congrArg some (dropNulls_strs _)
  refine ExportSection.check_eq_ok_iff.2 ⟨_, rfl, ?_, ?_, ?_⟩
  · exact field_inside_again (stable_natBetween 1 64) rfl (by decide) hes hsaved (.inl rfl) hfiles
  · exact field_inside_again stable_truth rfl (by decide) hes hsaved (.inl rfl) hgoOn
  · exact field_inside_again stable_cleanNames hdefault (by decide) hes hsaved (.inl hsavedNames) hnames

/-- The file of the log is saved if there is one. -/
theorem savedAt_file (c : Settings) :
    savedAt ["logging", "file"] c.savedEntries = some (.optStr c.log.file) ∨
      savedAt ["logging", "file"] c.savedEntries = none ∧ c.log.file = none := by
  have hlookup : savedAt ["logging", "file"] c.savedEntries =
      savedAt ["file"] (sectionOf "logging" c.savedEntries) := rfl
  rw [hlookup, savedAt, at?_singleton]
  cases hfile : c.log.file with
  | none =>
    refine .inr ⟨?_, rfl⟩
    simp only [Settings.savedEntries, LogSection.toSavedValue, hfile]
    rfl
  | some f =>
    refine .inl ?_
    simp only [Settings.savedEntries, LogSection.toSavedValue, hfile]
    rfl

theorem savedAt_format (c : Settings) :
    savedAt ["logging", "format"] c.savedEntries = some (.str c.log.format) := by
  cases hfile : c.log.file with
  | none =>
    simp only [Settings.savedEntries, LogSection.toSavedValue, hfile]
    rfl
  | some f =>
    simp only [Settings.savedEntries, LogSection.toSavedValue, hfile]
    rfl

theorem LogSection.check_saved (hes : (Value.map es).Distinct)
    (hsaved : (Value.map c.savedEntries).Distinct)
    (h : LogSection.check (.map (sectionOf "logging" (overridden env es))) = .ok c.log) :
    LogSection.check (.map (sectionOf "logging" (overridden env c.savedEntries))) = .ok c.log := by
  obtain ⟨inner, hinner, hlevel, hfile, hformat⟩ := LogSection.check_eq_ok_iff.1 h
  obtain rfl := Value.map.inj hinner
  refine LogSection.check_eq_ok_iff.2 ⟨_, rfl, ?_, ?_, ?_⟩
  · exact field_inside_again stable_levelName rfl (by decide) hes hsaved (.inl rfl) hlevel
  · exact field_inside_again stable_optional_text rfl (by decide) hes hsaved (savedAt_file c) hfile
  · exact field_inside_again stable_text rfl (by decide) hes hsaved (.inl (savedAt_format c)) hformat

/-- A saved document has a mapping for each section, and no variable takes the place of a section. -/
theorem isSection_saved (env : Environment) (hsaved : (Value.map c.savedEntries).Distinct) :
    ∀ name ∈ ["hash_notation", "export", "logging"], IsSection name (overridden env c.savedEntries) := by
  intro name hname
  have hfree : ∀ name ∈ ["hash_notation", "export", "logging"], ∀ o ∈ overrides, o.2 ≠ [name] := by
    decide
  have hstart : IsSection name c.savedEntries := by
    simp only [List.mem_cons, List.not_mem_nil, or_false] at hname
    rcases hname with rfl | rfl | rfl <;> exact .inr ⟨_, rfl⟩
  exact (hstart.applyOverrides env (hfree name hname)).dropNulls (distinct_applyOverrides env hsaved)

end Sections

/-- **Settings are read again from the document that they are saved as**, in the same environment. -/
theorem check_saved {env : Environment} {es : Entries} {c : Settings}
    (hes : (Value.map es).Distinct) (hsaved : (Value.map c.savedEntries).Distinct)
    (h : Settings.check (.map (overridden env es)) = .ok c) :
    Settings.check (.map (overridden env c.savedEntries)) = .ok c := by
  obtain ⟨first, hfirst, hhashes, hexporting, hlog, hextra, hdebug⟩ := Settings.check_eq_ok_iff.1 h
  obtain rfl := Value.map.inj hfirst
  have hsection := isSection_saved env hsaved
  have hhashesMap : ∀ v y, HashSection.check v = .ok y → ∃ inner, v = .map inner := fun v y hy =>
    (HashSection.check_eq_ok_iff.1 hy).imp fun _ h => h.1
  have hexportingMap : ∀ v y, ExportSection.check v = .ok y → ∃ inner, v = .map inner := fun v y hy =>
    (ExportSection.check_eq_ok_iff.1 hy).imp fun _ h => h.1
  have hlogMap : ∀ v y, LogSection.check v = .ok y → ∃ inner, v = .map inner := fun v y hy =>
    (LogSection.check_eq_ok_iff.1 hy).imp fun _ h => h.1
  have hhashesEmpty : HashSection.check (.map []) = .ok .standard := rfl
  have hexportingEmpty : ExportSection.check (.map []) = .ok .standard := rfl
  have hlogEmpty : LogSection.check (.map []) = .ok .standard := rfl
  refine Settings.check_eq_ok_iff.2 ⟨_, rfl, ?hashes, ?exporting, ?log, ?extra, ?debug⟩
  case hashes =>
    rw [field_section_eq_ok_iff hhashesMap hhashesEmpty] at hhashes ⊢
    exact ⟨hsection _ (by decide), HashSection.check_saved hes hsaved hhashes.2⟩
  case exporting =>
    rw [field_section_eq_ok_iff hexportingMap hexportingEmpty] at hexporting ⊢
    exact ⟨hsection _ (by decide), ExportSection.check_saved hes hsaved hexporting.2⟩
  case log =>
    rw [field_section_eq_ok_iff hlogMap hlogEmpty] at hlog ⊢
    exact ⟨hsection _ (by decide), LogSection.check_saved hes hsaved hlog.2⟩
  case extra =>
    have hsavedTags : savedAt ["extra_tags"] c.savedEntries =
        some (.record (c.extraTags.map fun t => (t.1, .str t.2))) :=
      congrArg some (dropNulls_record_str _)
    exact field_again (stable_text.mapOf.obeying extraTagsRule) rfl (List.cons_ne_nil _ _) (by decide)
      hes hsaved (at?_singleton _ _).symm (at?_singleton _ _).symm (.inl hsavedTags) hextra
  case debug =>
    exact field_again stable_truth rfl (List.cons_ne_nil _ _) (by decide) hes hsaved
      (at?_singleton _ _).symm (at?_singleton _ _).symm (.inl rfl) hdebug

/-! ## Loading what was saved -/

section Loading

variable {l l' m : Loader} {w w' w₂ : Workspace} {c : Settings} {given path again : Option String}
  {d : Folder}

theorem Loader.save_eq_ok_iff {d' : Folder} : l.save path d = .ok d' ↔
    ∃ c p, l.settings = some c ∧ l.savePath path = some p ∧
      d.write p (Yaml.write c.savedEntries) = .ok d' := by
  constructor
  · intro h
    rw [save] at h
    split at h
    · cases h
    · next c hc =>
      split at h
      · cases h
      · next p hp =>
        split at h
        · next d₁ hwrite =>
          obtain rfl := Except.ok.inj h
          exact ⟨c, p, hc, hp, hwrite⟩
        · cases h
  · rintro ⟨c, p, hc, hp, hwrite⟩
    have hpath : ((path.filter (· != "")).map Path.normal).or l.path = some p := hp
    have htext : d.write p (save.savedText c) = .ok d' := hwrite
    rw [save, hc]
    dsimp only
    rw [hpath]
    dsimp only
    rw [htext]

/-- A settings document has each of its keys once. -/
theorem distinct_settingsDocument {p : String} {es : Entries} (h : settingsDocument d p = .ok es) :
    (Value.map es).Distinct := by
  rw [settingsDocument] at h
  split at h
  · cases h
  · split at h
    · cases h
    · split at h
      · cases h
      · cases h
      · next hread =>
        cases h
        exact Yaml.distinct_of_read hread
      · split at h
        · cases h
        · cases h
          exact Value.distinct_nil

/-- The document that settings come from: that of the file, or an empty one. -/
def settingsSource (d : Folder) : Option String → Except SettingsError Entries
  | some p => settingsDocument d p
  | none => .ok []

theorem settingsFrom_eq_ok_iff {env : Environment} : settingsFrom d env path = .ok c ↔
    ∃ es, settingsSource d path = .ok es ∧ checkSettings path (prepareSettings env es) = .ok c := by
  rw [← bind_eq_ok_iff]
  cases path <;> rfl

theorem distinct_settingsSource {es : Entries} (h : settingsSource d path = .ok es) :
    (Value.map es).Distinct := by
  cases path with
  | none =>
    cases h
    exact Value.distinct_nil
  | some p => exact distinct_settingsDocument h

/-- The document of a settings file that was saved is what was saved. -/
theorem settingsDocument_of_write {p : String} {d' : Folder} {es : Entries}
    (hes : (Value.map es).Elementary) (hyaml : Yaml.read (Yaml.write es).toList = .ok (.map es))
    (h : d.write p (Yaml.write es) = .ok d') : settingsDocument d' p = .ok es := by
  rw [settingsDocument, Folder.has_of_write h, Folder.read_of_write h]
  dsimp only
  rw [Yaml.unifyBreaks_write hes, hyaml]
  rfl

/-- **Saved settings are loaded again as they were.** If a loader has loaded settings whose texts do not
refer to the environment, and has saved them to a file, then a loader that loads this file in the same
environment loads the same settings; provided that the saved document is read back from its text. -/
theorem Loader.load_saved (hload : l.load given w = (.ok c, l', w'))
    (hliteral : ∀ s ∈ c.texts, ¬Refers s)
    (hyaml : Yaml.read (Yaml.write c.savedEntries).toList = .ok (.map c.savedEntries))
    (hsave : l'.save path w'.folder = .ok d) (hpath : m.loadPath again = l'.savePath path)
    (hfolder : w₂.folder = d) (henv : (w₂.readEnvFile m.envFile).2.env = w'.env) :
    (m.load again w₂).1 = .ok c := by
  obtain ⟨hsettings, hw'⟩ := Loader.load_eq_ok hload
  obtain ⟨c', p, hc', hp, hwrite⟩ := Loader.save_eq_ok_iff.1 hsave
  obtain rfl : c = c' := Option.some.inj (hsettings.symm.trans hc')
  have hfirst : settingsFrom w.folder w'.env (l.loadPath given) = .ok c := by
    rw [hw', ← Loader.load_fst, hload]
  obtain ⟨es, hes, hcheck⟩ := settingsFrom_eq_ok_iff.1 hfirst
  have hdistinct := distinct_settingsSource hes
  rw [Loader.load_fst, henv, hpath, hp, hfolder, settingsFrom_eq_ok_iff]
  refine ⟨_, settingsDocument_of_write c.elementary_savedEntries hyaml hwrite, ?_⟩
  have hsubstitute : substituteEntries w'.env c.savedEntries = c.savedEntries :=
    Value.map.inj (substitute_eq_self (c.literal_savedEntries hliteral))
  have hnames : namesOnly (dropNullsEntries (applyOverrides w'.env c.savedEntries)) = true :=
    namesOnly_dropNulls (applyOverrides_induction w'.env (fun es => namesOnly es = true) rfl
      fun o _ s _ h => namesOnly_putBelow h o.2 _)
  rw [checkSettings, prepareSettings] at hcheck
  split at hcheck
  · cases hcheck
  · split at hcheck
    · next s hs =>
      cases hcheck
      have hsaved : Settings.check
          (.map (dropNullsEntries (applyOverrides w'.env c.savedEntries))) = .ok c :=
        check_saved (hdistinct.substitute w'.env) (Yaml.distinct_of_read hyaml) hs
      rw [checkSettings, prepareSettings, hsubstitute, hnames, hsaved]
      rfl
    · cases hcheck

/-- A settings file that leaves most settings out. -/
def sampleFolder : Folder :=
  ⟨["home".toList], [(["home".toList, "s.yaml".toList],
    "debug: yes\nexport: \x7b deprecation_functions: [] \x7d\nlogging: \x7b format: '%(message)s' \x7d\n")],
    []⟩

/-- A workspace whose environment overrides a setting, and in which no environment file is read. -/
def sampleWorkspace : Workspace := ⟨sampleFolder, [("DOCEXPORT_MAX_DEPTH", "5")], true, none⟩

/-- The settings in that file and that environment. -/
def sampleLoaded : Settings :=
  ⟨⟨5, true, true⟩, ⟨1, true, []⟩, ⟨.info, none, "%(message)s"⟩, [], true⟩

/-- The depth is read from the environment, saved, and loaded again under a new name. -/
theorem load_saved_sample :
    ∃ l' w' d, (Loader.make (some "s.yaml") ".env").load none sampleWorkspace =
        (.ok sampleLoaded, l', w') ∧
      l'.save (some "t.yaml") w'.folder = .ok d ∧
      ((Loader.make (some "t.yaml") ".env").load none { w' with folder := d }).1 = .ok sampleLoaded := by
  have hnames : Path.normal "s.yaml" = "s.yaml" ∧ Path.normal "t.yaml" = "t.yaml" := by decide +kernel
  have hfirst : (Loader.make (some "s.yaml") ".env").loadPath none = some "s.yaml" :=
    congrArg some hnames.1
  have hfrom : settingsFrom sampleFolder sampleWorkspace.env (some "s.yaml") = .ok sampleLoaded := by
    decide +kernel
  have hload : (Loader.make (some "s.yaml") ".env").load none sampleWorkspace =
      (.ok sampleLoaded, ⟨some "s.yaml", ".env", some sampleLoaded⟩, sampleWorkspace) := by
    have hstep := @Loader.load_of_settingsFrom (.make (some "s.yaml") ".env") sampleWorkspace
      sampleLoaded none (by rw [hfirst]; exact hfrom)
    rw [hfirst] at hstep
    exact hstep
  have hplace : sampleFolder.locate "t.yaml" = .ok ["home".toList, "t.yaml".toList] := by
    decide +kernel
  have hfolders : sampleFolder.hasFolder ["home".toList, "t.yaml".toList] = false ∧
      sampleFolder.hasFolder ["home".toList] = true := by
    decide +kernel
  have hsavePath : (⟨some "s.yaml", ".env", some sampleLoaded⟩ : Loader).savePath (some "t.yaml") =
      some "t.yaml" := congrArg some hnames.2
  have hloadPath : (Loader.make (some "t.yaml") ".env").loadPath none = some "t.yaml" :=
    congrArg some hnames.2
  have hsave : (⟨some "s.yaml", ".env", some sampleLoaded⟩ : Loader).save (some "t.yaml") sampleFolder =
      .ok (sampleFolder.setAt ["home".toList, "t.yaml".toList]
        (Yaml.write sampleLoaded.savedEntries)) :=
    Loader.save_eq_ok_iff.2 ⟨sampleLoaded, "t.yaml", rfl, hsavePath,
      Folder.write_eq_ok_iff.2 ⟨_, hplace, hfolders.1, hfolders.2, rfl⟩⟩
  have hliteral : ∀ s ∈ sampleLoaded.texts, ¬Refers s := by
    have htexts : ∀ s ∈ sampleLoaded.texts, '$' ∉ s.toList := by decide +kernel
    exact fun s hs => not_refers_of_not_mem (htexts s hs)
  have hyaml : Yaml.read (Yaml.write sampleLoaded.savedEntries).toList =
      .ok (.map sampleLoaded.savedEntries) := by
    decide +kernel
  let d := sampleFolder.setAt ["home".toList, "t.yaml".toList] (Yaml.write sampleLoaded.savedEntries)
  have hagain : ((Loader.make (some "t.yaml") ".env").load none { sampleWorkspace with folder := d }).1 =
      .ok sampleLoaded :=
    Loader.load_saved hload hliteral hyaml hsave (hloadPath.trans hsavePath.symm) rfl
      (congrArg (fun r => r.2.env) (Workspace.readEnvFile_of_read rfl))
  exact ⟨_, _, d, hload, hsave, hagain⟩

end Loading

end DocTree
