import DocTree.Proofs.Source.Stability
import DocTree.Proofs.Text.Words
import DocTree.Settings.Basic

/-!
# Settings read again

Settings that were read can be written out in full, and what is written is read as the same settings
(`stable_settings`). Three fields are not read as they are written in a document: the functions that
mark a deprecation are trimmed, and the blank ones and those that come again dropped (`cleanNames`);
the name of a level may be in any case; and a section that is left out is the section of the defaults.
So cleaning clean names changes nothing (`cleanNames_cleanNames`), the name of a level is written in
capitals, and the defaults are read back from what is written for them.

With the source files this says that reading is stable throughout the library
(`read_written_again`).
-/

namespace DocTree

open Schema Checked

/-! ## The section for hashes -/

theorem HashSection.check_eq_ok_iff {v : Value} {s : HashSection} :
    HashSection.check v = .ok s ↔ ∃ es, v = .map es ∧
      field es "max_depth" 3 (natBetween 1 10) = .ok s.maxDepth ∧
      field es "shared_index" true truth = .ok s.sharedIndex ∧
      field es "fallback_to_raw" true truth = .ok s.fallbackToRaw := by
  rw [HashSection.check, ofFields_eq_ok_iff]
  refine exists_congr fun es => and_congr_right fun _ => ?_
  rw [seq_eq_ok_iff]
  simp only [exists_seq_eq_ok_iff, exists_fmap_eq_ok_iff]
  constructor
  · rintro ⟨depth, hdepth, shared, hshared, raw, hraw, rfl⟩
    exact ⟨hdepth, hshared, hraw⟩
  · rintro ⟨hdepth, hshared, hraw⟩
    exact ⟨_, hdepth, _, hshared, _, hraw, rfl⟩

theorem stable_hashSection : Stable HashSection.check HashSection.toValue := by
  intro v s h
  obtain ⟨es, -, hdepth, hshared, hraw⟩ := HashSection.check_eq_ok_iff.1 h
  refine HashSection.check_eq_ok_iff.2 ⟨_, rfl, ?_, ?_, ?_⟩
  · exact (stable_natBetween 1 10).field rfl hdepth rfl
  · exact stable_truth.field rfl hshared rfl
  · exact stable_truth.field rfl hraw rfl

/-! ## The section for the run -/

/-- A clean name is trimmed, and there is something left of it. -/
theorem of_mem_cleanNames {names : List String} {n : String} (h : n ∈ cleanNames names) :
    String.ofList (Text.trim n.toList) = n ∧ n ≠ "" := by
  have hmem := List.mem_filter.1 (List.mem_eraseDups.1 h)
  obtain ⟨m, -, rfl⟩ := List.mem_map.1 hmem.1
  refine ⟨?_, bne_iff_ne.1 hmem.2⟩
  rw [String.toList_ofList, Text.trim_trim]

/-- **Clean names are clean.** -/
theorem cleanNames_cleanNames (names : List String) :
    cleanNames (cleanNames names) = cleanNames names := by
  have htrim : (cleanNames names).map (fun n => String.ofList (Text.trim n.toList)) =
      cleanNames names := by
    rw [List.map_congr_left fun n hn => (of_mem_cleanNames hn).1, List.map_id']
  have hkept : (cleanNames names).filter (· != "") = cleanNames names :=
    List.filter_eq_self.2 fun n hn => bne_iff_ne.2 (of_mem_cleanNames hn).2
  have hdistinct : (cleanNames names).eraseDups = cleanNames names := eraseDups_eraseDups _
  rw [cleanNames, htrim, hkept, hdistinct]

theorem stable_cleanNames : Stable (fun v => (listOf text v).map cleanNames) .strs :=
  stable_texts_map cleanNames_cleanNames

/-- The standard functions are clean names. -/
theorem cleanNames_default : cleanNames defaultDeprecationFunctions = defaultDeprecationFunctions := by
  decide +kernel

theorem ExportSection.check_eq_ok_iff {v : Value} {s : ExportSection} :
    ExportSection.check v = .ok s ↔ ∃ es, v = .map es ∧
      field es "parallel_files" 1 (natBetween 1 64) = .ok s.parallelFiles ∧
      field es "continue_on_error" true truth = .ok s.continueOnError ∧
      field es "deprecation_functions" defaultDeprecationFunctions
        (fun v => (listOf text v).map cleanNames) = .ok s.deprecationFunctions := by
  rw [ExportSection.check, ofFields_eq_ok_iff]
  refine exists_congr fun es => and_congr_right fun _ => ?_
  rw [seq_eq_ok_iff]
  simp only [exists_seq_eq_ok_iff, exists_fmap_eq_ok_iff]
  constructor
  · rintro ⟨files, hfiles, goOn, hgoOn, names, hnames, rfl⟩
    exact ⟨hfiles, hgoOn, hnames⟩
  · rintro ⟨hfiles, hgoOn, hnames⟩
    exact ⟨_, hfiles, _, hgoOn, _, hnames, rfl⟩

theorem stable_exportSection : Stable ExportSection.check ExportSection.toValue := by
  intro v s h
  obtain ⟨es, -, hfiles, hgoOn, hnames⟩ := ExportSection.check_eq_ok_iff.1 h
  refine ExportSection.check_eq_ok_iff.2 ⟨_, rfl, ?_, ?_, ?_⟩
  · exact (stable_natBetween 1 64).field rfl hfiles rfl
  · exact stable_truth.field rfl hgoOn rfl
  · refine stable_cleanNames.field ?_ hnames rfl
    show (listOf text (.strs defaultDeprecationFunctions)).map cleanNames = _
    rw [listOf_text_strs, Checked.map, cleanNames_default]

/-! ## The section for the log -/

/-- Only a level that can be set is read. -/
theorem mem_levelChoices_of_levelName {v : Value} {l : LogLevel} (h : levelName v = .ok l) :
    l ∈ levelChoices.map Prod.snd := by
  obtain ⟨w, hw⟩ : ∃ w, choice levelChoices w = .ok l := by
    unfold levelName at h
    split at h
    · exact ⟨_, h⟩
    · exact ⟨_, h⟩
  unfold choice at hw
  split at hw
  · split at hw
    · next c hfound =>
      obtain rfl := Checked.ok.inj hw
      exact List.mem_map_of_mem (List.mem_of_find?_eq_some hfound)
    · exact absurd hw fail_ne_ok
  · exact absurd hw fail_ne_ok

/-- The names that are written are in capitals, so they are read whatever the case they came in. -/
theorem stable_levelName : Stable levelName fun l => .str l.name := by
  intro v l h
  have hwritten : ∀ l ∈ levelChoices.map Prod.snd, levelName (.str l.name) = .ok l := by
    intro l hl
    cases l with
    | critical => exact absurd hl (by decide)
    | debug => rfl
    | info => rfl
    | warning => rfl
    | error => rfl
  exact hwritten l (mem_levelChoices_of_levelName h)

theorem LogSection.check_eq_ok_iff {v : Value} {s : LogSection} :
    LogSection.check v = .ok s ↔ ∃ es, v = .map es ∧
      field es "level" .info levelName = .ok s.level ∧
      field es "file" none (optional text) = .ok s.file ∧
      field es "format" defaultLogFormat text = .ok s.format := by
  rw [LogSection.check, ofFields_eq_ok_iff]
  refine exists_congr fun es => and_congr_right fun _ => ?_
  rw [seq_eq_ok_iff]
  simp only [exists_seq_eq_ok_iff, exists_fmap_eq_ok_iff]
  constructor
  · rintro ⟨level, hlevel, file, hfile, format, hformat, rfl⟩
    exact ⟨hlevel, hfile, hformat⟩
  · rintro ⟨hlevel, hfile, hformat⟩
    exact ⟨_, hlevel, _, hfile, _, hformat, rfl⟩

theorem stable_logSection : Stable LogSection.check LogSection.toValue := by
  intro v s h
  obtain ⟨es, -, hlevel, hfile, hformat⟩ := LogSection.check_eq_ok_iff.1 h
  refine LogSection.check_eq_ok_iff.2 ⟨_, rfl, ?_, ?_, ?_⟩
  · exact stable_levelName.field rfl hlevel rfl
  · exact stable_optional_text.field rfl hfile rfl
  · exact stable_text.field rfl hformat rfl

/-! ## All settings -/

theorem Settings.check_eq_ok_iff {v : Value} {s : Settings} :
    Settings.check v = .ok s ↔ ∃ es, v = .map es ∧
      field es "hash_notation" .standard HashSection.check = .ok s.hashes ∧
      field es "export" .standard ExportSection.check = .ok s.exporting ∧
      field es "logging" .standard LogSection.check = .ok s.log ∧
      field es "extra_tags" [] (fun v => (mapOf text v).obeying extraTagsRule) = .ok s.extraTags ∧
      field es "debug" false truth = .ok s.debug := by
  rw [Settings.check, ofFields_eq_ok_iff]
  refine exists_congr fun es => and_congr_right fun _ => ?_
  rw [seq_eq_ok_iff]
  simp only [exists_seq_eq_ok_iff, exists_fmap_eq_ok_iff]
  constructor
  · rintro ⟨hashes, hhashes, exporting, hexporting, log, hlog, extra, hextra, debug, hdebug, rfl⟩
    exact ⟨hhashes, hexporting, hlog, hextra, hdebug⟩
  · rintro ⟨hhashes, hexporting, hlog, hextra, hdebug⟩
    exact ⟨_, hhashes, _, hexporting, _, hlog, _, hextra, _, hdebug, rfl⟩

/-- The defaults of each section are what an empty section gives, so they are read back. -/
theorem stable_settings : Stable Settings.check Settings.toValue := by
  intro v s h
  obtain ⟨es, -, hhashes, hexporting, hlog, hextra, hdebug⟩ := Settings.check_eq_ok_iff.1 h
  have hhashesDefault := stable_hashSection (.map []) .standard rfl
  have hexportingDefault := stable_exportSection (.map []) .standard rfl
  have hlogDefault := stable_logSection (.map []) .standard rfl
  refine Settings.check_eq_ok_iff.2 ⟨_, rfl, ?_, ?_, ?_, ?_, ?_⟩
  · exact stable_hashSection.field hhashesDefault hhashes rfl
  · exact stable_exportSection.field hexportingDefault hexporting rfl
  · exact stable_logSection.field hlogDefault hlog rfl
  · exact (stable_text.mapOf.obeying extraTagsRule).field rfl hextra rfl
  · exact stable_truth.field rfl hdebug rfl

/-! ## Everything that is read -/

/-- **Reading is stable.** A document that is read as a source file or as settings may say the same
thing in many ways; the file and the settings, written out in full, are read as themselves, and so is
everything that they are made of. -/
theorem read_written_again :
    (Stable SourceFile.check SourceFile.toValue ∧ Stable Settings.check Settings.toValue) ∧
      (Stable Docblock.check Docblock.toValue ∧ Stable Tag.check Tag.toValue) ∧
      (Stable Inclusion.check Inclusion.toValue ∧ Stable ConstantDecl.check ConstantDecl.toValue ∧
        Stable usesCheck usesToValue ∧ Stable Usage.check Usage.toValue ∧
        Stable Hook.check Hook.toValue) ∧
      (Stable FunctionDecl.check FunctionDecl.toValue ∧ Stable Argument.check Argument.toValue) ∧
      (Stable ClassDecl.check ClassDecl.toValue ∧ Stable MethodDecl.check MethodDecl.toValue ∧
        Stable PropertyDecl.check PropertyDecl.toValue) ∧
      (Stable HashSection.check HashSection.toValue ∧
        Stable ExportSection.check ExportSection.toValue ∧
        Stable LogSection.check LogSection.toValue) :=
  ⟨⟨stable_sourceFile, stable_settings⟩, ⟨stable_docblock, stable_tag⟩,
    ⟨stable_inclusion, stable_constant, stable_uses, stable_usage, stable_hook⟩,
    ⟨stable_function, stable_argument⟩, ⟨stable_class, stable_method, stable_property⟩,
    ⟨stable_hashSection, stable_exportSection, stable_logSection⟩⟩

/-- A dump that gives numbers and truth values by texts, and names an interface twice. -/
def sampleSource : Value :=
  .record [("path", .str "a.php"),
    ("docblock", .record [("tags", .list [.record [("kind", .str "variable"), ("name", .str "var"),
      ("types", .strs ["int", "int"])]])]),
    ("classes", .list [.record [("name", .str "C"), ("line", .str " 3 "), ("end_line", .int 3),
      ("final", .str "Yes"), ("interfaces", .strs ["I", "J", "I"]),
      ("methods", .list [.record [("name", .str "m"), ("line", .bool true),
        ("visibility", .str "private")]])]])]

/-- Settings that give a number by a text, a level in small letters and a function between blanks. -/
def sampleSettings : Value :=
  .record [("export", .record [("parallel_files", .str "4"),
      ("deprecation_functions", .strs [" old ", "old", ""])]),
    ("logging", .record [("level", .str "debug")]),
    ("extra_tags", .record [("option", .str "variable")])]

/-- What is read from documents in another form is read again from what is written for it. -/
theorem read_written_again_samples :
    (∃ f, SourceFile.check sampleSource = .ok f ∧
      f.classes.map ClassDecl.interfaces = [["I", "J"]] ∧ SourceFile.check f.toValue = .ok f) ∧
    (∃ s, Settings.check sampleSettings = .ok s ∧ s.exporting = ⟨4, true, ["old"]⟩ ∧
      s.log.level = .debug ∧ Settings.check s.toValue = .ok s) :=
  ⟨⟨_, rfl, rfl, read_written_again.1.1 sampleSource _ rfl⟩,
    ⟨_, rfl, rfl, rfl, read_written_again.1.2 sampleSettings _ rfl⟩⟩

end DocTree
