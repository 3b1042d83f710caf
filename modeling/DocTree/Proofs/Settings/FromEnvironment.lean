import DocTree.Proofs.Settings.Texts

/-!
# Texts from the environment

A setting that is a text can be given by a variable of the environment, either because the variable
overrides it (`Loader.load_setVariable`) or because the document refers to the variable where the setting
stands (`Loader.load_reference`, `Loader.load_reference_item`). The setting then is the text of the
variable if this text looks like nothing else, and is complained about otherwise
(`texts_from_environment`).

The document that is loaded is compared with one that is known to be loaded. The two agree but for one
setting, and still do when both are prepared (`AgreeBut.prepare`); what stands there after that is what
the text looks like.
-/

namespace DocTree

open Schema

/-! ## Preparing -/

/-- A text that is one reference without a value to fall back on is worth what its variable is. -/
theorem substituteText_bare {env : Environment} {name ref t : String}
    (href : (⟨name, none⟩ : Reference).WrittenAs ref.toList) (ht : env.get? name = some t) :
    substituteText env ref = coerce t := by
  have hread := href.read? []
  rw [List.append_nil] at hread
  have hvalue : (⟨name, none⟩ : Reference).value? env = some t := by rw [Reference.value?, ht]
  rw [substituteText, hread]
  dsimp only
  rw [hvalue]

theorem dropNullsItems_eq (items : List Value) : dropNullsItems items = items.map dropNulls := by
  induction items with
  | nil => rfl
  | cons v rest ih => rw [dropNullsItems, ih, List.map_cons]

theorem eq_str_of_dropNulls {v : Value} {t : String} (h : dropNulls v = .str t) : v = .str t := by
  cases v with
  | scalar s => exact h
  | list items => cases h
  | map es => cases h

theorem map_dropNulls_eq_map_str {items : List Value} {ts : List String}
    (h : items.map dropNulls = ts.map .str) : items = ts.map .str := by
  induction items generalizing ts with
  | nil => rwa [List.map_nil] at h
  | cons v items ih =>
    cases ts with
    | nil => cases h
    | cons t ts =>
      obtain ⟨hv, hitems⟩ := List.cons.inj h
      rw [List.map_cons, ih hitems, eq_str_of_dropNulls hv]

/-- A scalar is kept as it is, unless it is absent. -/
theorem kept_scalar {x : Scalar} (hx : x ≠ .null) :
    ((some (Value.scalar x)).filter fun v => !v.isNull).map dropNulls = some (.scalar x) := by
  cases x with
  | null => exact absurd rfl hx
  | bool | int | float | str | time => rfl

/-- The items of a list are kept, also those that are absent. -/
theorem kept_list (items : List Value) :
    ((some (Value.list items)).filter fun v => !v.isNull).map dropNulls =
      some (.list (items.map dropNulls)) := by
  rw [← dropNullsItems_eq]
  rfl

/-! ## Loading -/

section Loading

variable {l : Loader} {w : Workspace} {given : Option String} {es : Entries}

theorem Loader.load_of_source (hes : settingsSource w.folder (l.loadPath given) = .ok es) :
    (l.load given w).1 =
      checkSettings (l.loadPath given) (prepareSettings (l.surroundings w).env es) := by
  have hfrom : ∀ path : Option String, settingsSource w.folder path = .ok es →
      settingsFrom w.folder (l.surroundings w).env path =
        checkSettings path (prepareSettings (l.surroundings w).env es) := by
    intro path hpath
    cases path with
    | none =>
      cases hpath
      rfl
    | some p =>
      have hdocument : settingsDocument w.folder p = .ok es := hpath
      rw [settingsFrom]
      dsimp only
      rw [hdocument]
      rfl
  rw [Loader.load_fst]
  exact hfrom _ hes

/-- The variable that overrides the file of the log. -/
def logFileVariable : String := "DOCEXPORT_LOG_FILE"

/-- But for what stands at the place, the document is loaded as `c`: so is `rest`, which has the same
apart from the place. -/
structure Loader.LoadsBut (l : Loader) (given : Option String) (w : Workspace) (place : List String)
    (es rest : Entries) (c : Settings) : Prop where
  distinct : (Value.map rest).Distinct
  same : ∀ keys, Apart (keysOf place) keys → (Value.map es).lookup keys = (Value.map rest).lookup keys
  loaded : checkSettings (l.loadPath given) (prepareSettings (l.surroundings w).env rest) = .ok c

/-- A variable of the process that overrides the file of the log. -/
theorem Loader.load_setVariable (hes : settingsSource w.folder (l.loadPath given) = .ok es)
    {c : Settings} (hload : (l.load given w).1 = .ok c)
    (hdocument : (Value.map es).IndependentOf logFileVariable)
    (hfile : l.EnvFileIndependentOf w logFileVariable) {s : String} (hs : s ≠ "") :
    (l.load given (w.setVariable logFileVariable s)).1 =
      if coerce s = .str s then .ok (TextSetting.file.set s c)
      else .error (notTextAt (l.loadPath given) (TextSetting.file.place.map .name)) := by
  obtain ⟨hsame, hset⟩ := Loader.surroundings_setVariable hfile s
  have hes' : settingsSource (w.setVariable logFileVariable s).folder (l.loadPath given) = .ok es := hes
  have hdistinct := distinct_settingsSource hes
  have hsubstitute := Value.map.inj (substitute_congr hsame hdocument)
  have hprepared := distinct_applyOverrides (l.surroundings (w.setVariable logFileVariable s)).env
    (hdistinct.substitute (l.surroundings w).env)
  rw [load_of_source hes] at hload
  rw [load_of_source hes']
  refine checkSettings_text .file hload ?_ hs ?_
  · rw [prepareSettings, prepareSettings, hsubstitute]
    exact (agreeBut_of_variable hsame (by decide) (hset ▸ Option.some_ne_none s) _).dropNulls
      (distinct_applyOverrides _ (hdistinct.substitute _)) hprepared
  · have hown := (overlay_applyOverrides (l.surroundings (w.setVariable logFileVariable s)).env
      (substituteEntries (l.surroundings w).env es)).own
        (logFileVariable, TextSetting.file.place) (by decide) s hset
    have hplace : TextSetting.file.place ≠ [] := List.cons_ne_nil _ _
    rw [prepareSettings, hsubstitute, at?_dropNulls hprepared hplace, hown]
    exact kept_scalar (coerce_ne_null hs)

/-- A document whose setting is a reference. -/
theorem Loader.load_reference (hes : settingsSource w.folder (l.loadPath given) = .ok es)
    {f : TextSetting} {name ref t : String} {rest : Entries} {c : Settings}
    (href : (⟨name, none⟩ : Reference).WrittenAs ref.toList)
    (hat : (Value.map es).at? f.place = some (.str ref))
    (ht : (l.surroundings w).env.get? name = some t) (hne : t ≠ "")
    (hunset : ∀ o ∈ overrides, o.2 = f.place → (l.surroundings w).env.get? o.1 = none)
    (hrest : l.LoadsBut given w f.place es rest c) :
    (l.load given w).1 = if coerce t = .str t then .ok (f.set t c)
      else .error (notTextAt (l.loadPath given) (f.place.map .name)) := by
  have hplace : f.place ∈ settingPlaces := by cases f <;> decide
  have hdistinct := distinct_settingsSource hes
  have hagree := agreeBut_of_apart hplace hrest.same (by rw [hat]; nofun)
  rw [load_of_source hes]
  refine checkSettings_text f hrest.loaded (hagree.prepare hrest.distinct hdistinct _) hne ?_
  rw [at?_prepare hplace hunset hdistinct, hat, Option.map_some, substitute, substituteText_bare href ht]
  exact kept_scalar (coerce_ne_null hne)

/-- A document that has a reference among the functions. -/
theorem Loader.load_reference_item (hes : settingsSource w.folder (l.loadPath given) = .ok es)
    {name ref t : String} {before after : List Value} {rest : Entries} {c : Settings}
    (href : (⟨name, none⟩ : Reference).WrittenAs ref.toList)
    (hat : (Value.map es).at? functionsPlace = some (.list (before ++ .str ref :: after)))
    (ht : (l.surroundings w).env.get? name = some t)
    (hbefore : (Value.map rest).at? functionsPlace = some (.list (before ++ after)))
    (hrest : l.LoadsBut given w functionsPlace es rest c) :
    ∃ xs ys, before.map (substitute (l.surroundings w).env) = xs.map .str ∧
      after.map (substitute (l.surroundings w).env) = ys.map .str ∧
      c.exporting.deprecationFunctions = cleanNames (xs ++ ys) ∧
      (l.load given w).1 =
        if coerce t = .str t then .ok (c.withFunctions (cleanNames (xs ++ t :: ys)))
        else .error (notTextAt (l.loadPath given) (functionsPlace.map .name ++ [.index xs.length])) := by
  have hplace : functionsPlace ∈ settingPlaces := by decide
  have hunset : ∀ o ∈ overrides, o.2 = functionsPlace → (l.surroundings w).env.get? o.1 = none :=
    fun o ho heq => absurd heq ((by decide : ∀ o ∈ overrides, o.2 ≠ functionsPlace) o ho)
  have hdistinct := distinct_settingsSource hes
  have hagree := agreeBut_of_apart hplace hrest.same (by rw [hat]; nofun)
  have hold := at?_prepare hplace hunset hrest.distinct
  rw [hbefore, Option.map_some, substitute, kept_list, substituteItems_eq, List.map_append,
    List.map_append] at hold
  have hnew := at?_prepare hplace hunset hdistinct
  rw [hat, Option.map_some, substitute, kept_list, substituteItems_eq, List.map_append, List.map_cons,
    List.map_append, List.map_cons, substitute, substituteText_bare href ht, dropNulls] at hnew
  obtain ⟨xs, ys, hxs, hys, hclean, hresult⟩ := checkSettings_functions hrest.loaded
    (hagree.prepare hrest.distinct hdistinct _) hold hnew
  exact ⟨xs, ys, map_dropNulls_eq_map_str hxs, map_dropNulls_eq_map_str hys, hclean,
    (load_of_source hes).trans hresult⟩

/-- **A setting that is a text takes from the environment what looks like a text.** Setting the variable
for the file of the log changes that file and nothing else, whatever the document says about it, if
neither the document nor the environment file refers to the variable. A reference in the place of a text
is loaded as the text of its variable if no other variable overrides the setting, and one among the
functions as an item there, trimmed. A text that looks like a number or a truth value is complained about
instead, where the setting stands. -/
theorem texts_from_environment (l : Loader) (given : Option String) (w : Workspace) {es : Entries}
    (hes : settingsSource w.folder (l.loadPath given) = .ok es) :
    (∀ c, (l.load given w).1 = .ok c → (Value.map es).IndependentOf logFileVariable →
      l.EnvFileIndependentOf w logFileVariable → ∀ s, s ≠ "" →
        (l.load given (w.setVariable logFileVariable s)).1 =
          if coerce s = .str s then .ok (TextSetting.file.set s c)
          else .error (notTextAt (l.loadPath given) (TextSetting.file.place.map .name))) ∧
    (∀ (f : TextSetting) (name ref t : String) (rest : Entries) (c : Settings),
      (⟨name, none⟩ : Reference).WrittenAs ref.toList →
      (Value.map es).at? f.place = some (.str ref) →
      (l.surroundings w).env.get? name = some t → t ≠ "" →
      (∀ o ∈ overrides, o.2 = f.place → (l.surroundings w).env.get? o.1 = none) →
      l.LoadsBut given w f.place es rest c →
        (l.load given w).1 = if coerce t = .str t then .ok (f.set t c)
          else .error (notTextAt (l.loadPath given) (f.place.map .name))) ∧
    ∀ (name ref t : String) (before after : List Value) (rest : Entries) (c : Settings),
      (⟨name, none⟩ : Reference).WrittenAs ref.toList →
      (Value.map es).at? functionsPlace = some (.list (before ++ .str ref :: after)) →
      (l.surroundings w).env.get? name = some t →
      (Value.map rest).at? functionsPlace = some (.list (before ++ after)) →
      l.LoadsBut given w functionsPlace es rest c →
        ∃ xs ys, before.map (substitute (l.surroundings w).env) = xs.map .str ∧
          after.map (substitute (l.surroundings w).env) = ys.map .str ∧
          c.exporting.deprecationFunctions = cleanNames (xs ++ ys) ∧
          ((∃ ch ∈ t.toList, Text.isBlank ch = false) →
            String.ofList (Text.trim t.toList) ∈ cleanNames (xs ++ t :: ys)) ∧
          (l.load given w).1 =
            if coerce t = .str t then .ok (c.withFunctions (cleanNames (xs ++ t :: ys)))
            else .error (notTextAt (l.loadPath given)
              (functionsPlace.map .name ++ [.index xs.length])) := by
  refine ⟨?overriding, ?reference, ?item⟩
  case overriding =>
    intro c hload hdocument hfile s hs
    exact Loader.load_setVariable hes hload hdocument hfile hs
  case reference =>
    intro f name ref t rest c href hat ht hne hunset hrest
    exact Loader.load_reference hes href hat ht hne hunset hrest
  case item =>
    intro name ref t before after rest c href hat ht hbefore hrest
    obtain ⟨xs, ys, hxs, hys, hclean, hresult⟩ :=
      Loader.load_reference_item hes href hat ht hbefore hrest
    have hmem : t ∈ xs ++ t :: ys := List.mem_append_right _ List.mem_cons_self
    exact ⟨xs, ys, hxs, hys, hclean, mem_cleanNames hmem, hresult⟩

/-! ## A document with references -/

/-- A workspace with these files at its top and these variables. -/
def topWorkspace (files : List (String × String)) (env : Environment) (envFileRead : Bool) : Workspace :=
  ⟨⟨["home".toList], files.map fun f => (["home".toList, f.1.toList], f.2), []⟩, env, envFileRead, none⟩

/-- A loader for the file `c.yaml`. -/
def topLoader : Loader := ⟨some "c.yaml", ".env", none⟩

/-- A workspace whose settings file refers to two variables. -/
def referringWorkspace : Workspace :=
  topWorkspace
    [("c.yaml",
      "export:\n  deprecation_functions: [a, '$\x7bOLD\x7d']\nlogging:\n  file: $\x7bLOG\x7d\n")]
    [("LOG", "a.log"), ("OLD", " old ")] true

/-- A document with these functions, and with the same section for the log as that file. -/
def referringEntries (functions : List String) : Entries :=
  fieldEntries [("export", .record [("deprecation_functions", .strs functions)]),
    ("logging", .record [("file", .str "$\x7bLOG\x7d")])]

/-- A document with the functions of that file, and without a section for the log. -/
def functionsEntries : Entries :=
  fieldEntries [("export", .record [("deprecation_functions", .strs ["a", "$\x7bOLD\x7d"])])]

/-- The file of the log and one of the functions are given by the environment; another file of the log
takes their place, and one that looks like a number is complained about. -/
theorem texts_from_environment_referring :
    ∃ c, (topLoader.load none referringWorkspace).1 = .ok c ∧ c.log.file = some "a.log" ∧
      "old" ∈ c.exporting.deprecationFunctions ∧
      (topLoader.load none (referringWorkspace.setVariable logFileVariable "out.log")).1 =
        .ok (TextSetting.file.set "out.log" c) ∧
      (topLoader.load none (referringWorkspace.setVariable logFileVariable "5")).1 =
        .error (notTextAt (some "c.yaml") [.name "logging", .name "file"]) := by
  have hes : settingsSource referringWorkspace.folder (topLoader.loadPath none) =
      .ok (referringEntries ["a", "$\x7bOLD\x7d"]) := by
    decide +kernel
  have hlog : Reference.read? "$\x7bLOG\x7d".toList = some (⟨"LOG", none⟩, []) := by decide +kernel
  have hold : Reference.read? "$\x7bOLD\x7d".toList = some (⟨"OLD", none⟩, []) := by decide +kernel
  have hfunctions : ∀ ts : List String,
      (Value.record [("deprecation_functions", .strs ts)]).Distinct := fun ts =>
    Value.distinct_record (List.nodup_singleton _) (List.forall_mem_singleton.2 (Value.distinct_strs ts))
  have hnames : ["export", "logging"].Nodup := by decide
  have hentries : ∀ ts : List String, (Value.map (referringEntries ts)).Distinct := fun ts => by
    refine Value.distinct_record hnames (List.forall_mem_cons.2 ⟨hfunctions ts, ?_⟩)
    exact List.forall_mem_singleton.2
      (Value.distinct_record (by decide) (List.forall_mem_singleton.2 (.scalar _)))
  obtain ⟨hoverriding, hreference, hitem⟩ :=
    texts_from_environment topLoader none referringWorkspace hes
  -- without the file of the log
  have hload := hreference .file "LOG" "$\x7bLOG\x7d" "a.log" functionsEntries
    { Settings.standard with exporting := ⟨1, true, ["a", "old"]⟩ } (Reference.writtenAs_of_read? hlog)
    rfl rfl (by decide) (by decide)
    ⟨Value.distinct_record (by decide) (List.forall_mem_singleton.2 (hfunctions _)),
      fun keys hkeys => lookup_putBelow_of_apart (.str "$\x7bLOG\x7d") hkeys functionsEntries,
      by decide +kernel⟩
  rw [if_pos (by decide +kernel)] at hload
  -- without one of the functions
  obtain ⟨xs, ys, -, -, -, hmem, hload'⟩ := hitem "OLD" "$\x7bOLD\x7d" " old " [.str "a"] []
    (referringEntries ["a"])
    { Settings.standard with exporting := ⟨1, true, ["a"]⟩, log := ⟨.info, some "a.log", defaultLogFormat⟩ }
    (Reference.writtenAs_of_read? hold) rfl rfl rfl
    ⟨hentries _, fun keys hkeys =>
      lookup_putBelow_of_apart (.strs ["a", "$\x7bOLD\x7d"]) hkeys (referringEntries ["a"]),
      by decide +kernel⟩
  rw [if_pos (by decide +kernel), hload] at hload'
  have hindependent : (Value.map (referringEntries ["a", "$\x7bOLD\x7d"])).IndependentOf
      logFileVariable := by
    have ha : ¬Refers "a" := not_refers_of_not_mem (by decide)
    refine .map (List.forall_mem_cons.2 ⟨.map (List.forall_mem_singleton.2 (.list ?_)),
      List.forall_mem_singleton.2 (.map (List.forall_mem_singleton.2 ?_))⟩)
    · exact List.forall_mem_cons.2 ⟨independentOf_of_not_refers ha,
        List.forall_mem_singleton.2 (independentOf_of_read? hold (by decide))⟩
    · exact independentOf_of_read? hlog (by decide)
  have hout := hoverriding _ hload hindependent (fun h => by cases h) "out.log" (by decide)
  have hfive := hoverriding _ hload hindependent (fun h => by cases h) "5" (by decide)
  rw [if_pos (by decide +kernel)] at hout
  rw [if_neg (by decide +kernel)] at hfive
  have htrim : String.ofList (Text.trim " old ".toList) = "old" := by decide +kernel
  have holdMem := hmem ⟨'o', by decide, by decide⟩
  have hclean := congrArg (fun c => c.exporting.deprecationFunctions) (Except.ok.inj hload')
  rw [htrim] at holdMem
  exact ⟨_, hload, rfl, hclean ▸ holdMem, hout, hfive⟩

/-- A settings file that refers to the variable for the file of the log where a number stands. -/
def numberByVariable : String := "hash_notation:\n  max_depth: $\x7bDOCEXPORT_LOG_FILE:-5\x7d\n"

/-- An environment file that refers to that variable for the same number. -/
def numberByEnvFile : String := "DOCEXPORT_MAX_DEPTH=$\x7bDOCEXPORT_LOG_FILE:-5\x7d\n"

/-- A settings file whose setting in the section for the log is a reference. -/
def logReference (name : String) : String := "logging:\n  " ++ name ++ ": $\x7bNAME\x7d\n"

/-- The default settings with another depth of hashes. -/
def standardOfDepth (n : Nat) : Settings :=
  { Settings.standard with hashes := { HashSection.standard with maxDepth := n } }

/-- **None of the conditions can be left out.** A text that looks like a number or a truth value is
refused, where the variable overrides the file of the log, and where a reference stands in the place of
the file, of the format or of a function. A settings file, or an environment file, that refers to the
variable changes with it. And a reference is not looked at where the variable overrides. -/
theorem texts_from_environment_conditions :
    ((topLoader.load none (topWorkspace [("c.yaml", "")] [] true)).1 = .ok Settings.standard ∧
      (topLoader.load none ((topWorkspace [("c.yaml", "")] [] true).setVariable logFileVariable "5")).1 =
        .error (notTextAt (some "c.yaml") [.name "logging", .name "file"])) ∧
    ((topLoader.load none (topWorkspace [("c.yaml", logReference "file")] [("NAME", "1.5")] true)).1 =
        .error (notTextAt (some "c.yaml") [.name "logging", .name "file"]) ∧
      (topLoader.load none (topWorkspace [("c.yaml", logReference "format")] [("NAME", "yes")] true)).1 =
        .error (notTextAt (some "c.yaml") [.name "logging", .name "format"]) ∧
      (topLoader.load none (topWorkspace
          [("c.yaml", "export:\n  deprecation_functions: ['$\x7bNAME\x7d']\n")] [("NAME", "5")] true)).1 =
        .error (notTextAt (some "c.yaml") (functionsPlace.map .name ++ [.index 0]))) ∧
    ((topLoader.load none (topWorkspace [("c.yaml", numberByVariable)] [] true)).1 =
        .ok (standardOfDepth 5) ∧
      (topLoader.load none ((topWorkspace [("c.yaml", numberByVariable)] [] true).setVariable
        logFileVariable "out.log")).1 ≠ .ok (TextSetting.file.set "out.log" (standardOfDepth 5))) ∧
    ((topLoader.load none (topWorkspace [("c.yaml", ""), (".env", numberByEnvFile)] [] false)).1 =
        .ok (standardOfDepth 5) ∧
      (topLoader.load none ((topWorkspace [("c.yaml", ""), (".env", numberByEnvFile)] [] false).setVariable
        logFileVariable "out.log")).1 ≠ .ok (TextSetting.file.set "out.log" (standardOfDepth 5))) ∧
    (topLoader.load none (topWorkspace [("c.yaml", logReference "file")]
      [("NAME", "a.log"), (logFileVariable, "b.log")] true)).1 =
        .ok (TextSetting.file.set "b.log" Settings.standard) := by
  refine ⟨⟨?_, ?_⟩, ⟨?_, ?_, ?_⟩, ⟨?_, ?_⟩, ⟨?_, ?_⟩, ?_⟩ <;> decide +kernel

end Loading

end DocTree
