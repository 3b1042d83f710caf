import DocTree.Proofs.Settings.Saving

/-!
# What a loader remembers

A loader remembers the settings that it loaded last and the file that it loads. A call to load either
finds no file, and then the loader is as it was, or it takes a file as its own and reads it
(`Loader.perform_eq`). It takes the file before it knows whether the file gives settings. So a call
that fails leaves the settings as they were but not always the file: the loader is as it was exactly if
the file that failed was its own already (`Loader.failed_load_keeps_iff`). Otherwise the last good
settings and the file that they are saved to do not belong together (`Loader.failed_load_moves`).
-/

namespace DocTree.Loader

/-- A call that loads settings. -/
inductive Call where
  /-- Load another file if one is given, else the file of the loader. -/
  | load (given : Option String)
  /-- Load the file that the environment names, or a usual one. -/
  | loadNamed

/-- What a call returns, and what it leaves behind. -/
def perform (l : Loader) : Call → Workspace → Except SettingsError Settings × Loader × Workspace
  | .load given, w => l.load given w
  | .loadNamed, w => l.loadNamed w

/-- The file that a call reads, if any, or why it comes to none. -/
def target (l : Loader) (w : Workspace) : Call → Except SettingsError (Option String)
  | .load given => .ok (l.loadPath given)
  | .loadNamed => (settingsFile (l.surroundings w).folder (l.surroundings w).env).map l.loadPath

/-- A loader after calls, each made in a workspace of its own. -/
def performAll (l : Loader) (calls : List (Call × Workspace)) : Loader :=
  calls.foldl (fun l q => (l.perform q.1 q.2).2.1) l

/-- Calls that fail one after another. -/
inductive Fails : Loader → List (Call × Workspace) → Prop
  | nil (l : Loader) : Fails l []
  | cons {l l' : Loader} {call : Call} {w w' : Workspace} {e : SettingsError}
    {calls : List (Call × Workspace)} (hfirst : l.perform call w = (.error e, l', w'))
    (hrest : Fails l' calls) : Fails l ((call, w) :: calls)

variable {l l' : Loader} {w w' : Workspace} {call : Call} {c : Settings} {e : SettingsError}
  {calls : List (Call × Workspace)} {p : Option String}

/-! ## One call -/

/-- **A call finds its file, takes it as that of the loader, and reads it.** -/
theorem perform_eq (l : Loader) (call : Call) (w : Workspace) :
    l.perform call w =
      match l.target w call with
      | .error e => (.error e, l, l.surroundings w)
      | .ok p =>
        match settingsFrom (l.surroundings w).folder (l.surroundings w).env p with
        | .error e => (.error e, { l with path := p }, l.surroundings w)
        | .ok s => (.ok s, { l with path := p, settings := some s }, l.surroundings w) := by
  cases call with
  | load given =>
    rw [perform, load_eq, target, surroundings]
    dsimp only
    cases settingsFrom (w.readEnvFile l.envFile).2.folder (w.readEnvFile l.envFile).2.env
      (l.loadPath given) <;> rfl
  | loadNamed =>
    have hread : (l.surroundings w).readEnvFile l.envFile = (true, l.surroundings w) :=
      Workspace.readEnvFile_of_read (Workspace.envFileRead_readEnvFile l.envFile w)
    rw [surroundings] at hread
    rw [perform, loadNamed, target, surroundings]
    cases settingsFile (w.readEnvFile l.envFile).2.folder (w.readEnvFile l.envFile).2.env with
    | error e => rfl
    | ok given =>
      dsimp only [Except.map]
      rw [load_eq, hread]
      cases settingsFrom (w.readEnvFile l.envFile).2.folder (w.readEnvFile l.envFile).2.env
        (l.loadPath given) <;> rfl

/-- A call that returns has read its file, and the loader remembers both. -/
theorem perform_eq_ok (h : l.perform call w = (.ok c, l', w')) :
    ∃ p, l.target w call = .ok p ∧ settingsFrom w'.folder w'.env p = .ok c ∧
      l' = { l with path := p, settings := some c } ∧ w' = l.surroundings w := by
  rw [perform_eq] at h
  split at h
  · cases (Prod.mk.inj h).1
  · next p htarget =>
    split at h
    · cases (Prod.mk.inj h).1
    · next s hs =>
      obtain ⟨hc, hrest⟩ := Prod.mk.inj h
      obtain ⟨rfl, rfl⟩ := Prod.mk.inj hrest
      obtain rfl := Except.ok.inj hc
      exact ⟨p, htarget, hs, rfl, rfl⟩

/-- A call that fails changes at most the file of the loader. -/
theorem perform_eq_error (h : l.perform call w = (.error e, l', w')) :
    (l.target w call = .error e ∧ l' = l) ∨
      ∃ p, l.target w call = .ok p ∧ l' = { l with path := p } := by
  rw [perform_eq] at h
  split at h
  · next e' htarget =>
    obtain ⟨he, hrest⟩ := Prod.mk.inj h
    obtain ⟨rfl, rfl⟩ := Prod.mk.inj hrest
    obtain rfl := Except.error.inj he
    exact .inl ⟨htarget, rfl⟩
  · next p htarget =>
    split at h
    · obtain ⟨-, hrest⟩ := Prod.mk.inj h
      obtain ⟨rfl, rfl⟩ := Prod.mk.inj hrest
      exact .inr ⟨p, htarget, rfl⟩
    · cases (Prod.mk.inj h).1

/-- A file that gives no settings is that of the loader all the same. -/
theorem perform_load_of_error {given : Option String}
    (h : settingsFrom (l.surroundings w).folder (l.surroundings w).env (l.loadPath given) = .error e) :
    l.perform (.load given) w = (.error e, { l with path := l.loadPath given }, l.surroundings w) := by
  rw [perform_eq]
  dsimp only [target]
  rw [h]

theorem with_path_eq_iff : { l with path := p } = l ↔ p = l.path := by
  obtain ⟨path, envFile, settings⟩ := l
  simp only [mk.injEq, and_true]

/-- A call that fails leaves the settings. -/
theorem settings_of_perform_eq_error (h : l.perform call w = (.error e, l', w')) :
    l'.settings = l.settings := by
  rcases perform_eq_error h with ⟨-, rfl⟩ | ⟨p, -, rfl⟩
  · rfl
  · rfl

/-- A call that fails leaves the loader exactly if it did not try a file that is not the loader's. -/
theorem eq_of_perform_eq_error_iff (h : l.perform call w = (.error e, l', w')) :
    l' = l ↔ ∀ p, l.target w call = .ok p → p = l.path := by
  rcases perform_eq_error h with ⟨htarget, rfl⟩ | ⟨p, htarget, rfl⟩
  · rw [htarget]
    exact iff_of_true rfl nofun
  · rw [htarget, with_path_eq_iff]
    exact ⟨fun hp q hq => Except.ok.inj hq ▸ hp, fun hall => hall p rfl⟩

/-! ## Calls that fail one after another -/

theorem Fails.settings_performAll (h : l.Fails calls) :
    (l.performAll calls).settings = l.settings := by
  induction h with
  | nil l => rfl
  | @cons l l' call w w' e calls hfirst _ ih =>
    rw [performAll, List.foldl_cons, hfirst]
    exact ih.trans (settings_of_perform_eq_error hfirst)

/-- Each call finds the loader as the one before it found it. -/
theorem Fails.performAll_eq (h : l.Fails calls)
    (hown : ∀ q ∈ calls, ∀ p, l.target q.2 q.1 = .ok p → p = l.path) : l.performAll calls = l := by
  induction h with
  | nil l => rfl
  | @cons l l' call w w' e calls hfirst _ ih =>
    obtain ⟨hcall, hcalls⟩ := List.forall_mem_cons.1 hown
    obtain rfl := (eq_of_perform_eq_error_iff hfirst).2 hcall
    rw [performAll, List.foldl_cons, hfirst]
    exact ih hcalls

/-! ## Saving -/

/-- After a call that failed over a file, the last good settings are saved to that file. -/
theorem save_of_perform_eq_error (h : l.perform call w = (.error e, l', w'))
    (htarget : l.target w call = .ok p) {d d' : Folder} : l'.save none d = .ok d' ↔
      ∃ c q, l.settings = some c ∧ p = some q ∧ d.write q (Yaml.write c.savedEntries) = .ok d' := by
  have hl' : l' = { l with path := p } := by
    rcases perform_eq_error h with ⟨hnone, -⟩ | ⟨q, hq, hl'⟩
    · rw [htarget] at hnone
      cases hnone
    · obtain rfl := Except.ok.inj (htarget.symm.trans hq)
      exact hl'
  rw [save_eq_ok_iff, hl']
  rfl

/-- **What a call to load does to the loader.** If it returns, the loader has the settings that were
returned and the file they were read from. If it fails, the loader has the settings it had, and it is
as it was exactly if the call did not come to a file other than that of the loader; the settings are
then saved to the file that failed. Calls that fail one after another leave the settings, and they leave
the loader if each of them would. -/
theorem failed_load_keeps_iff (l : Loader) :
    (∀ call w c l' w', l.perform call w = (.ok c, l', w') →
      ∃ p, l.target w call = .ok p ∧ settingsFrom w'.folder w'.env p = .ok c ∧
        l' = { l with path := p, settings := some c }) ∧
    (∀ call w e l' w', l.perform call w = (.error e, l', w') →
      l'.settings = l.settings ∧ (l' = l ↔ ∀ p, l.target w call = .ok p → p = l.path) ∧
      ∀ p, l.target w call = .ok p → ∀ d d', l'.save none d = .ok d' ↔
        ∃ c q, l.settings = some c ∧ p = some q ∧ d.write q (Yaml.write c.savedEntries) = .ok d') ∧
    ∀ calls, l.Fails calls → (l.performAll calls).settings = l.settings ∧
      ((∀ q ∈ calls, ∀ p, l.target q.2 q.1 = .ok p → p = l.path) → l.performAll calls = l) := by
  refine ⟨fun call w c l' w' h => ?_, fun call w e l' w' h => ?_, fun calls h => ?_⟩
  · obtain ⟨p, htarget, hfrom, hl', -⟩ := perform_eq_ok h
    exact ⟨p, htarget, hfrom, hl'⟩
  · exact ⟨settings_of_perform_eq_error h, eq_of_perform_eq_error_iff h,
      fun p htarget d d' => save_of_perform_eq_error h htarget⟩
  · exact ⟨h.settings_performAll, h.performAll_eq⟩

/-- A loader that has loaded a settings file. -/
def sampleLoader : Loader := ⟨some "s.yaml", ".env", some sampleLoaded⟩

/-- A workspace without files. -/
def bareWorkspace : Workspace := ⟨.empty ["home".toList], [], true, none⟩

/-- A load that fails because the file of the loader has gone leaves the loader as it was. -/
theorem failed_load_keeps_gone :
    ∃ l' w', sampleLoader.perform (.load none) bareWorkspace = (.error (.missing "s.yaml"), l', w') ∧
      l' = sampleLoader := by
  have hfrom : settingsFrom bareWorkspace.folder bareWorkspace.env (sampleLoader.loadPath none) =
      .error (.missing "s.yaml") := by
    decide +kernel
  have hcall := perform_load_of_error (l := sampleLoader) (w := bareWorkspace) hfrom
  refine ⟨_, _, hcall, ((failed_load_keeps_iff sampleLoader).2.1 _ _ _ _ _ hcall).2.1.2 ?_⟩
  exact fun p hp => (Except.ok.inj hp).symm

/-- A load of a file that is not there makes it the file of the loader, and the settings that were read
from another file are saved to it. -/
theorem failed_load_moves :
    ∃ l' w' d, sampleLoader.perform (.load (some "t.yaml")) sampleWorkspace =
        (.error (.missing "t.yaml"), l', w') ∧
      sampleLoader.path = some "s.yaml" ∧ l'.path = some "t.yaml" ∧ l'.settings = sampleLoader.settings ∧
      l'.save none w'.folder = .ok d ∧ d.has "t.yaml" = true := by
  have hpath : sampleLoader.loadPath (some "t.yaml") = some "t.yaml" := by decide +kernel
  have hfrom : settingsFrom sampleWorkspace.folder sampleWorkspace.env
      (sampleLoader.loadPath (some "t.yaml")) = .error (.missing "t.yaml") := by
    decide +kernel
  have hcall := perform_load_of_error (l := sampleLoader) (w := sampleWorkspace) hfrom
  rw [hpath] at hcall
  have hplace : sampleFolder.locate "t.yaml" = .ok ["home".toList, "t.yaml".toList] := by
    decide +kernel
  have hfolders : sampleFolder.hasFolder ["home".toList, "t.yaml".toList] = false ∧
      sampleFolder.hasFolder ["home".toList] = true := by
    decide +kernel
  have hwrite : sampleFolder.write "t.yaml" (Yaml.write sampleLoaded.savedEntries) =
      .ok (sampleFolder.setAt ["home".toList, "t.yaml".toList]
        (Yaml.write sampleLoaded.savedEntries)) :=
    Folder.write_eq_ok_iff.2 ⟨_, hplace, hfolders.1, hfolders.2, rfl⟩
  exact ⟨_, _, _, hcall, rfl, rfl, rfl, save_eq_ok_iff.2 ⟨_, _, rfl, rfl, hwrite⟩,
    Folder.has_of_write hwrite⟩

end DocTree.Loader
