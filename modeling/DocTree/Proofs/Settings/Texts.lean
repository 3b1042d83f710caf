import DocTree.Proofs.Settings.Agreement
import DocTree.Proofs.Settings.Saving

/-!
# Settings that are texts

What a variable of the environment brings into the settings is worth what it looks like (`coerce`): a
text that looks like a number or a truth value does not stay a text. So a setting that is a text takes
the texts that look like nothing else, and any other one is complained about, by a single finding where
the setting stands: the file and the format of the log (`checkSettings_text`), and each of the functions
that mark a deprecation (`checkSettings_functions`).

A document with the text is compared with one that is read as settings and agrees with it but for the
setting (`AgreeBut`). So the sections without the setting are read alike, and what is left is to check one
section.
-/

namespace DocTree

open Schema Checked

/-! ## What a text looks like -/

theorem coerce_ne_null {t : String} (ht : t ≠ "") : coerce t ≠ .null := by
  rw [coerce]
  dsimp only
  rw [if_neg (by simpa using ht)]
  split
  · nofun
  · split
    · cases writtenDecimal? t.toList <;> nofun
    · cases writtenInteger? t.toList <;> nofun

/-- What stays a text stays itself. -/
theorem eq_of_coerce_eq_str {t u : String} (h : coerce t = .str u) : u = t := by
  rw [coerce] at h
  dsimp only at h
  split at h
  · cases h
  · split at h
    · cases h
    · split at h
      · cases hread : writtenDecimal? t.toList with
        | none =>
          rw [hread] at h
          exact (Scalar.str.inj h).symm
        | some x =>
          rw [hread] at h
          cases h
      · cases hread : writtenInteger? t.toList with
        | none =>
          rw [hread] at h
          exact (Scalar.str.inj h).symm
        | some n =>
          rw [hread] at h
          cases h

/-! ## Single settings -/

/-- The settings that are a text. -/
inductive TextSetting where
  | file
  | format

/-- Where the setting stands. -/
def TextSetting.place : TextSetting → List String
  | .file => ["logging", "file"]
  | .format => ["logging", "format"]

/-- Settings with another text. -/
def TextSetting.set (t : String) (c : Settings) : TextSetting → Settings
  | .file => { c with log := { c.log with file := some t } }
  | .format => { c with log := { c.log with format := t } }

/-- The report that says of one place only that there has to be a text. -/
def notTextAt (path : Option String) (place : List Step) : SettingsError :=
  .reported ⟨"Configuration validation failed: 1 errors", path,
    [Issue.toFinding ⟨place, .notString⟩]⟩

/-- Where the functions stand that mark a deprecation. -/
def functionsPlace : List String := ["export", "deprecation_functions"]

/-- Settings with other functions that mark a deprecation. -/
def Settings.withFunctions (ts : List String) (c : Settings) : Settings :=
  { c with exporting := { c.exporting with deprecationFunctions := ts } }

section Checking

variable {place : List String} {es fs : Entries} {c : Settings} {path : Option String} {t : String}
  {issues : List Issue}

theorem checkSettings_eq_ok_iff :
    checkSettings path es = .ok c ↔ namesOnly es = true ∧ c.ReadFrom es := by
  rw [checkSettings, ← Settings.check_eq_ok_iff_readFrom]
  cases namesOnly es with
  | false => exact iff_of_false (fun h => by cases h) fun h => Bool.false_ne_true h.1
  | true =>
    cases Settings.check (.map es) with
    | ok s => exact ⟨fun h => ⟨rfl, congrArg Checked.ok (Except.ok.inj h)⟩,
        fun h => congrArg Except.ok (Checked.ok.inj h.2)⟩
    | bad issues => exact iff_of_false (fun h => by cases h) fun h => by cases h.2

/-- A document is checked field by field, and so are its sections. -/
theorem Settings.check_map (es : Entries) : Settings.check (.map es) =
    Settings.mk <$> field es "hash_notation" .standard HashSection.check <*>
      field es "export" .standard ExportSection.check <*>
      field es "logging" .standard LogSection.check <*>
      field es "extra_tags" [] (fun v => (mapOf text v).obeying extraTagsRule) <*>
      field es "debug" false truth := rfl

theorem ExportSection.check_map (es : Entries) : ExportSection.check (.map es) =
    ExportSection.mk <$> field es "parallel_files" 1 (natBetween 1 64) <*>
      field es "continue_on_error" true truth <*>
      field es "deprecation_functions" defaultDeprecationFunctions
        (fun v => (listOf text v).map cleanNames) := rfl

theorem LogSection.check_map (es : Entries) : LogSection.check (.map es) =
    LogSection.mk <$> field es "level" .info levelName <*> field es "file" none (Schema.optional text) <*>
      field es "format" defaultLogFormat text := rfl

theorem checkSettings_eq_notTextAt {place : List Step} (hnames : namesOnly es = true)
    (h : Settings.check (.map es) = .bad [⟨place, .notString⟩]) :
    checkSettings path es = .error (notTextAt path place) := by
  have hmessage : "Configuration validation failed: " ++ toString 1 ++ " errors" =
      "Configuration validation failed: 1 errors" := by decide +kernel
  rw [checkSettings, hnames, h, notTextAt, ← hmessage]
  rfl

theorem AgreeBut.namesOnly (h : AgreeBut place es fs) (hes : namesOnly es = true) :
    DocTree.namesOnly fs = true := by
  rw [namesOnly_iff] at hes ⊢
  intro e he
  by_contra hno
  push Not at hno
  obtain ⟨v, hv⟩ := Entries.exists_find?_of_mem he
  rw [h.others e.1 hno] at hv
  obtain ⟨s, hs⟩ := hes _ (Entries.mem_of_find? hv)
  exact hno s hs

/-- What is wrong in the section for the log is all that is wrong, if the other sections are read. -/
theorem Settings.check_of_log (h : AgreeBut place es fs) (hplace : place.head? = some "logging")
    (hc : c.ReadFrom es) (hlog : field fs "logging" .standard LogSection.check = .bad issues) :
    Settings.check (.map fs) = .bad issues := by
  have hother : ∀ name : String, name ≠ "logging" → place.head? ≠ some name := fun name hname heq =>
    hname (Option.some.inj (heq.symm.trans hplace))
  rw [Settings.check_map, HashSection.field_eq_ok_iff.2 (h.hashes (hother _ (by decide)) hc.hashes),
    ExportSection.field_eq_ok_iff.2 (h.exporting (hother _ (by decide)) hc.exporting), hlog,
    field_eq_ok_iff_gives.2 (h.extraTags (hother _ (by decide)) hc),
    field_eq_ok_iff_gives.2 (h.debug (hother _ (by decide)) hc)]
  rfl

/-- What is wrong in the section for the run is all that is wrong, if the other sections are read. -/
theorem Settings.check_of_exporting (h : AgreeBut place es fs) (hplace : place.head? = some "export")
    (hc : c.ReadFrom es) (hexporting : field fs "export" .standard ExportSection.check = .bad issues) :
    Settings.check (.map fs) = .bad issues := by
  have hother : ∀ name : String, name ≠ "export" → place.head? ≠ some name := fun name hname heq =>
    hname (Option.some.inj (heq.symm.trans hplace))
  rw [Settings.check_map, HashSection.field_eq_ok_iff.2 (h.hashes (hother _ (by decide)) hc.hashes),
    hexporting, LogSection.field_eq_ok_iff.2 (h.log (hother _ (by decide)) hc.log),
    field_eq_ok_iff_gives.2 (h.extraTags (hother _ (by decide)) hc),
    field_eq_ok_iff_gives.2 (h.debug (hother _ (by decide)) hc)]
  rfl

theorem Settings.ReadFrom.set (f : TextSetting) (hc : c.ReadFrom es) (h : AgreeBut f.place es fs)
    (hat : (Value.map fs).at? f.place = some (.str t)) : (f.set t c).ReadFrom fs := by
  have hextra := h.extraTags (by cases f <;> decide) hc
  have hdebug := h.debug (by cases f <;> decide) hc
  have hlevel := hc.log.level.congr (h.settings _ (by decide) (by cases f <;> decide))
  have hsection := h.isSection (by decide) hc.log.isSection
  cases f with
  | file =>
    have hformat := hc.log.format.congr (h.settings _ (by decide) (by decide))
    exact ⟨h.hashes (by decide) hc.hashes, h.exporting (by decide) hc.exporting,
      ⟨hsection, hlevel, .inl ⟨_, hat, rfl⟩, hformat⟩, hextra, hdebug⟩
  | format =>
    have hfile := hc.log.file.congr (h.settings _ (by decide) (by decide))
    exact ⟨h.hashes (by decide) hc.hashes, h.exporting (by decide) hc.exporting,
      ⟨hsection, hlevel, hfile, .inl ⟨_, hat, rfl⟩⟩, hextra, hdebug⟩

theorem text_of_not_str {x : Scalar} (hnot : ∀ u, x ≠ .str u) :
    text (.scalar x) = .bad [⟨[], .notString⟩] := by
  cases x with
  | str u => exact absurd rfl (hnot u)
  | null | bool | int | float | time => rfl

/-- What is no text is complained about where it stands. -/
theorem Settings.check_of_not_text (f : TextSetting) (hc : c.ReadFrom es) (h : AgreeBut f.place es fs)
    {x : Scalar} (hat : (Value.map fs).at? f.place = some (.scalar x)) (hnull : x ≠ .null)
    (hnot : ∀ u, x ≠ .str u) :
    Settings.check (.map fs) = .bad [⟨f.place.map .name, .notString⟩] := by
  have htext := text_of_not_str hnot
  have hoptional : Schema.optional text (.scalar x) = (text (.scalar x)).map some := by
    cases x with
    | null => exact absurd rfl hnull
    | str | bool | int | float | time => rfl
  have hlevel := hc.log.level.congr (h.settings _ (by decide) (by cases f <;> decide))
  refine Settings.check_of_log h (by cases f <;> rfl) hc ?_
  cases f with
  | file =>
    have hformat := hc.log.format.congr (h.settings _ (by decide) (by decide))
    obtain ⟨inner, hinner⟩ := exists_map_of_at? fs (List.cons_ne_nil "file" [])
      (hat ▸ Option.some_ne_none _)
    rw [htext] at hoptional
    rw [field, hinner]
    dsimp only
    rw [LogSection.check_map, field_inside_of_gives hinner hlevel,
      field_inside_of_bad hinner hat hoptional, field_inside_of_gives hinner hformat]
    rfl
  | format =>
    have hfile := hc.log.file.congr (h.settings _ (by decide) (by decide))
    obtain ⟨inner, hinner⟩ := exists_map_of_at? fs (List.cons_ne_nil "format" [])
      (hat ▸ Option.some_ne_none _)
    rw [field, hinner]
    dsimp only
    rw [LogSection.check_map, field_inside_of_gives hinner hlevel,
      field_inside_of_gives hinner hfile, field_inside_of_bad hinner hat htext]
    rfl

/-- **A setting that is a text takes what looks like a text.** -/
theorem checkSettings_text (f : TextSetting) (hc : checkSettings path es = .ok c)
    (h : AgreeBut f.place es fs) (ht : t ≠ "")
    (hat : (Value.map fs).at? f.place = some (.scalar (coerce t))) :
    checkSettings path fs = if coerce t = .str t then .ok (f.set t c)
      else .error (notTextAt path (f.place.map .name)) := by
  obtain ⟨hnames, hread⟩ := checkSettings_eq_ok_iff.1 hc
  split
  · next htext =>
    rw [htext] at hat
    exact checkSettings_eq_ok_iff.2 ⟨h.namesOnly hnames, hread.set f h hat⟩
  · next hno =>
    refine checkSettings_eq_notTextAt (h.namesOnly hnames)
      (Settings.check_of_not_text f hread h hat (coerce_ne_null ht) fun u hu => ?_)
    obtain rfl := eq_of_coerce_eq_str hu
    exact hno hu

/-! ## Items of a list -/

theorem listOf_text_eq_ok_iff {items : List Value} {ts : List String} :
    listOf text (.list items) = .ok ts ↔ items = ts.map .str := by
  constructor
  · intro h
    obtain ⟨vs, hvs, hread⟩ := listOf_eq_ok_iff.1 h
    obtain rfl := Value.list.inj hvs
    clear h hvs
    induction hread with
    | nil => rfl
    | @cons v t vs ts hv _ ih =>
      unfold text at hv
      split at hv
      · obtain rfl := Checked.ok.inj hv
        rw [ih, List.map_cons]
      · exact absurd hv fail_ne_ok
  · rintro rfl
    exact listOf_text_strs ts

/-- An item that is no text is complained about at its position, and the others are not. -/
theorem itemsFrom_text_of_not_text {v : Value} (hv : text v = .bad [⟨[], .notString⟩]) (i : Nat)
    (xs ys : List String) : itemsFrom text i (xs.map .str ++ v :: ys.map .str) =
      .bad [⟨[.index (i + xs.length : Nat)], .notString⟩] := by
  induction xs generalizing i with
  | nil =>
    have hys : itemsFrom text (i + 1) (ys.map .str) = .ok ys :=
      itemsFrom_eq_ok_iff.2 (itemsFrom_eq_ok_iff.1 (listOf_text_strs ys))
    rw [List.map_nil, List.nil_append, itemsFrom, hv, hys]
    rfl
  | cons x xs ih =>
    rw [List.map_cons, List.cons_append, itemsFrom, ih, List.length_cons, Nat.add_right_comm,
      Nat.add_assoc]
    rfl

theorem mem_cleanNames {names : List String} (ht : t ∈ names)
    (hblank : ∃ ch ∈ t.toList, Text.isBlank ch = false) :
    String.ofList (Text.trim t.toList) ∈ cleanNames names := by
  refine List.mem_eraseDups.2 (List.mem_filter.2 ⟨List.mem_map_of_mem ht, bne_iff_ne.2 fun hempty => ?_⟩)
  have hnil : Text.trim t.toList = [] := String.ofList_injective hempty
  obtain ⟨a, b, hs, ha, hb⟩ := Text.exists_trim t.toList
  obtain ⟨ch, hch, hno⟩ := hblank
  rw [hs, hnil, List.append_nil, List.mem_append] at hch
  rcases hch with hch | hch
  · rw [List.all_eq_true.1 ha ch hch] at hno
    cases hno
  · rw [List.all_eq_true.1 hb ch hch] at hno
    cases hno

theorem Settings.ReadFrom.withFunctions (hc : c.ReadFrom es) (h : AgreeBut functionsPlace es fs)
    {v : Value} {ts : List String} (hat : (Value.map fs).at? functionsPlace = some v)
    (hv : (listOf text v).map cleanNames = .ok ts) : (c.withFunctions ts).ReadFrom fs := by
  have hfiles := hc.exporting.parallelFiles.congr (h.settings _ (by decide) (by decide))
  have hgoOn := hc.exporting.continueOnError.congr (h.settings _ (by decide) (by decide))
  have hextra := h.extraTags (by decide) hc
  have hdebug := h.debug (by decide) hc
  exact ⟨h.hashes (by decide) hc.hashes,
    ⟨h.isSection (by decide) hc.exporting.isSection, hfiles, hgoOn, .inl ⟨v, hat, hv⟩⟩,
    h.log (by decide) hc.log, hextra, hdebug⟩

/-- A function that is no text is complained about where it stands. -/
theorem Settings.check_of_not_text_item (hc : c.ReadFrom es) (h : AgreeBut functionsPlace es fs)
    {v : Value} {xs ys : List String} (hv : text v = .bad [⟨[], .notString⟩])
    (hat : (Value.map fs).at? functionsPlace = some (.list (xs.map .str ++ v :: ys.map .str))) :
    Settings.check (.map fs) =
      .bad [⟨functionsPlace.map .name ++ [.index xs.length], .notString⟩] := by
  have hfiles := hc.exporting.parallelFiles.congr (h.settings _ (by decide) (by decide))
  have hgoOn := hc.exporting.continueOnError.congr (h.settings _ (by decide) (by decide))
  have hlist : (listOf text (.list (xs.map .str ++ v :: ys.map .str))).map cleanNames =
      .bad [⟨[.index xs.length], .notString⟩] := by
    have hitems := itemsFrom_text_of_not_text hv 0 xs ys
    rw [Nat.zero_add] at hitems
    show (itemsFrom text 0 _).map cleanNames = _
    rw [hitems]
    rfl
  obtain ⟨inner, hinner⟩ := exists_map_of_at? fs (List.cons_ne_nil "deprecation_functions" [])
    (hat ▸ Option.some_ne_none _)
  refine Settings.check_of_exporting h rfl hc ?_
  rw [field, hinner]
  dsimp only
  rw [ExportSection.check_map, field_inside_of_gives hinner hfiles, field_inside_of_gives hinner hgoOn,
    field_inside_of_bad hinner hat hlist]
  rfl

/-- **An item of the functions takes what looks like a text.** -/
theorem checkSettings_functions {before after : List Value} (hc : checkSettings path es = .ok c)
    (h : AgreeBut functionsPlace es fs)
    (hes : (Value.map es).at? functionsPlace = some (.list (before ++ after)))
    (hfs : (Value.map fs).at? functionsPlace = some (.list (before ++ .scalar (coerce t) :: after))) :
    ∃ xs ys, before = xs.map .str ∧ after = ys.map .str ∧
      c.exporting.deprecationFunctions = cleanNames (xs ++ ys) ∧
      checkSettings path fs =
        if coerce t = .str t then .ok (c.withFunctions (cleanNames (xs ++ t :: ys)))
        else .error (notTextAt path (functionsPlace.map .name ++ [.index xs.length])) := by
  obtain ⟨hnames, hread⟩ := checkSettings_eq_ok_iff.1 hc
  obtain ⟨ts, hts, hclean⟩ := Checked.map_eq_ok_iff.1
    (hread.exporting.deprecationFunctions.check_eq hes)
  obtain ⟨xs, ys, rfl, rfl, rfl⟩ := List.append_eq_map_iff.1 (listOf_text_eq_ok_iff.1 hts)
  refine ⟨xs, ys, rfl, rfl, hclean.symm, ?_⟩
  split
  · next htext =>
    rw [htext] at hfs
    have hlist : listOf text (.list (xs.map .str ++ .str t :: ys.map .str)) = .ok (xs ++ t :: ys) :=
      listOf_text_eq_ok_iff.2 (by rw [List.map_append, List.map_cons])
    refine checkSettings_eq_ok_iff.2 ⟨h.namesOnly hnames, hread.withFunctions h hfs ?_⟩
    rw [hlist]
    rfl
  · next hno =>
    refine checkSettings_eq_notTextAt (h.namesOnly hnames)
      (Settings.check_of_not_text_item hread h (text_of_not_str fun u hu => ?_) hfs)
    exact hno (eq_of_coerce_eq_str hu ▸ hu)

end Checking

end DocTree
