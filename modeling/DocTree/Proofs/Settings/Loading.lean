import DocTree.Settings.Load

/-!
# What loading settings does

A loader reads the environment file first, unless that was done before, and then the settings file
(`Loader.load_eq`). So what it loads depends on the files, the environment and the path of the settings
file alone (`Loader.load_fst`), and loading settings changes no file (`Workspace.folder_loadSettings`).
-/

namespace DocTree

variable {l l' : Loader} {w w' : Workspace} {c : Settings} {given : Option String}

/-- The file that a loader loads, given another one or none. -/
def Loader.loadPath (l : Loader) (given : Option String) : Option String :=
  (given.map Path.normal).or l.path

/-- The workspace in which a loader loads: its environment file has been read. -/
def Loader.surroundings (l : Loader) (w : Workspace) : Workspace := (w.readEnvFile l.envFile).2

/-- Reading the environment file changes no file. -/
theorem Workspace.readEnvFile_folder (file : String) (w : Workspace) :
    (w.readEnvFile file).2.folder = w.folder := by
  rw [readEnvFile]
  split
  · rfl
  · dsimp only
    split
    · split <;> rfl
    · rfl

theorem Workspace.envFileRead_readEnvFile (file : String) (w : Workspace) :
    (w.readEnvFile file).2.envFileRead = true := by
  rw [readEnvFile]
  split
  · next h => exact h
  · dsimp only
    split
    · split <;> rfl
    · rfl

/-- An environment file is read once. -/
theorem Workspace.readEnvFile_of_read {file : String} (h : w.envFileRead = true) :
    w.readEnvFile file = (true, w) := by
  rw [readEnvFile, if_pos h]

/-- What loading does: the environment file is read first, and then the settings file. -/
theorem Loader.load_eq (l : Loader) (given : Option String) (w : Workspace) :
    l.load given w =
      match settingsFrom (w.readEnvFile l.envFile).2.folder (w.readEnvFile l.envFile).2.env
          (l.loadPath given) with
      | .ok s => (.ok s, { l with path := l.loadPath given, settings := some s },
          (w.readEnvFile l.envFile).2)
      | .error e => (.error e, { l with path := l.loadPath given }, (w.readEnvFile l.envFile).2) := by
  cases given <;> rfl

/-- What a loader loads depends on the files, the environment and the file that it loads. -/
theorem Loader.load_fst (l : Loader) (given : Option String) (w : Workspace) :
    (l.load given w).1 =
      settingsFrom w.folder (w.readEnvFile l.envFile).2.env (l.loadPath given) := by
  rw [load_eq, Workspace.readEnvFile_folder]
  cases settingsFrom w.folder (w.readEnvFile l.envFile).2.env (l.loadPath given) <;> rfl

/-- A load succeeds where the settings file gives settings. -/
theorem Loader.load_of_settingsFrom
    (h : settingsFrom w.folder (w.readEnvFile l.envFile).2.env (l.loadPath given) = .ok c) :
    l.load given w = (.ok c, { l with path := l.loadPath given, settings := some c },
      (w.readEnvFile l.envFile).2) := by
  rw [Loader.load_eq, Workspace.readEnvFile_folder, h]

/-- What a load that succeeds leaves behind. -/
theorem Loader.load_eq_ok (h : l.load given w = (.ok c, l', w')) :
    l'.settings = some c ∧ w' = (w.readEnvFile l.envFile).2 := by
  rw [load_eq] at h
  split at h
  · obtain ⟨hc, h⟩ := Prod.mk.inj h
    obtain ⟨rfl, rfl⟩ := Prod.mk.inj h
    exact ⟨congrArg some (Except.ok.inj hc), rfl⟩
  · cases (Prod.mk.inj h).1

/-! ## Files -/

end DocTree
