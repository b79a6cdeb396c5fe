import FacetedSearch.Command.Run
import FacetedSearch.Proofs.Command.Switches

/-!
# What the command line writes

Only `init` writes, and it writes one file: a new settings file in the home directory, when it is
asked for or is the working directory, and otherwise in the working directory. A file that is there
is overwritten only with `--force`, and a run that fails leaves every file as it was.
-/

namespace FacetedSearch

/-- A file is written where there is none or another file, in a directory. -/
theorem FileTree.write_eq_ok_iff {t t' : FileTree} {p : Path} {content : ByteArray} :
    t.write p content = .ok t' ↔
      t.isDirectory p = false ∧ t.isDirectory p.dropLast = true ∧
        t' = t.put p (.file content) := by
  unfold write
  cases hdirectory : t.isDirectory p with
  | true => simp
  | false =>
      cases hparent : t.isDirectory p.dropLast with
      | true => simp [eq_comm]
      | false => cases t.contains p.dropLast <;> simp

namespace Command

open Config (bind_eq_ok)

variable {s : Surroundings} {arguments : List String} {path : Path}

/-- The file tree that a run leaves behind. -/
def treeAfter (s : Surroundings) (arguments : List String) : FileTree :=
  match runArguments s arguments with
  | .ok r => r.treeAfter s.tree
  | .error _ => s.tree

/-- The exit code of a run. -/
def exitCode (s : Surroundings) (arguments : List String) : Nat :=
  match runArguments s arguments with
  | .ok r => r.exitCode
  | .error refusal => refusal.exitCode

/-- The new settings file is that of the home directory. -/
def IsForHome (s : Surroundings) (arguments : List String) : Prop :=
  "--global" ∈ arguments ∨ s.home = some s.directory

instance (s : Surroundings) (arguments : List String) : Decidable (IsForHome s arguments) :=
  inferInstanceAs (Decidable (_ ∨ _))

/-- The path of the new settings file, when there is one. -/
def newPath? (s : Surroundings) (arguments : List String) : Option Path :=
  if IsForHome s arguments then s.home.map Config.settingsPath
  else some (Config.settingsPath s.directory)

/-- The text of the new settings file. -/
def newText (s : Surroundings) (arguments : List String) : String :=
  if IsForHome s arguments then Config.globalTemplate else Config.localTemplate

/-- A run writes a new settings file at a path: it is asked to, no file is there or it is allowed to
overwrite the file, and a file can be there. -/
structure Initializes (s : Surroundings) (arguments : List String) (path : Path) : Prop where
  asked : ∃ inHome force, ofArguments arguments = .ok (.init inHome force)
  place : newPath? s arguments = some path
  allowed : s.tree.contains path = true → "--force" ∈ arguments
  free : s.tree.isDirectory path = false
  inDirectory : s.tree.isDirectory path.dropLast = true

theorem mapError_eq_ok_iff {ε ε' α : Type} {x : Except ε α} {f : ε → ε'} {a : α} :
    x.mapError f = .ok a ↔ x = .ok a := by
  cases x <;> simp [Except.mapError]

/-! ## Commands that do not write -/

theorem written_of {e : Except Failure Report} (h : ∀ r, e = .ok r → r.written = []) :
    (Report.of e).written = [] := by
  cases e with
  | ok r => exact h r rfl
  | error failure => rfl

theorem written_runCompile {document : String} {category : Option String} {raw getOnly json : Bool}
    {r : Report} (h : runCompile s document category raw getOnly json = .ok r) :
    r.written = [] := by
  obtain ⟨d, -, h⟩ := bind_eq_ok.mp h
  obtain ⟨scope, -, h⟩ := bind_eq_ok.mp h
  obtain ⟨state, -, h⟩ := bind_eq_ok.mp h
  cases json <;> exact (Except.ok.inj h) ▸ rfl

theorem written_runFacets {names : Option String} {json : Bool} {r : Report}
    (h : runFacets s names json = .ok r) : r.written = [] := by
  obtain ⟨d, -, h⟩ := bind_eq_ok.mp h
  dsimp only at h
  split at h
  · cases h
  · cases json <;> exact (Except.ok.inj h) ▸ rfl

theorem written_runFilters {document : String} {r : Report}
    (h : runFilters s document = .ok r) : r.written = [] := by
  obtain ⟨d, -, h⟩ := bind_eq_ok.mp h
  obtain ⟨state, -, h⟩ := bind_eq_ok.mp h
  split at h <;> exact (Except.ok.inj h) ▸ rfl

theorem written_runConfig {r : Report} (h : runConfig s = .ok r) : r.written = [] := by
  obtain ⟨d, -, h⟩ := bind_eq_ok.mp h
  exact (Except.ok.inj h) ▸ rfl

/-- Only `init` writes. -/
theorem written_run {command : Command} (h : ∀ inHome force, command ≠ .init inHome force) :
    (run s command).written = [] := by
  cases command with
  | compile => exact written_of fun _ => written_runCompile
  | facets => exact written_of fun _ => written_runFacets
  | filters => exact written_of fun _ => written_runFilters
  | config => exact written_of fun _ => written_runConfig
  | init inHome force => exact absurd rfl (h inHome force)

/-! ## New settings files -/

theorem newSettingsPath_eq_ok_iff {inHome : Bool} :
    newSettingsPath s inHome = .ok path ↔
      (if settlesHome s inHome then s.home.map Config.settingsPath
        else some (Config.settingsPath s.directory)) = some path := by
  unfold newSettingsPath
  split
  · cases s.home <;> simp
  · simp

/-- A new settings file is written when it has a place, nothing stands in the way, and a file that
is there may be overwritten. -/
theorem runInit_eq_ok_iff {inHome force : Bool} {r : Report} :
    runInit s inHome force = .ok r ↔
      ∃ path, newSettingsPath s inHome = .ok path ∧
        (s.tree.contains path = true → force = true) ∧
        s.tree.isDirectory path = false ∧ s.tree.isDirectory path.dropLast = true ∧
        r = { succeeded := true
              output := creationNotice path (newSettingsLines s inHome)
              written := [(path, (Config.linesText (newSettingsLines s inHome)).toUTF8)] } := by
  unfold runInit
  rw [bind_eq_ok]
  apply exists_congr
  intro path
  apply and_congr_right
  intro hpath
  have hmay : (s.tree.contains path && !force) = true ↔
      ¬ (s.tree.contains path = true → force = true) := by
    simp
  by_cases hblocked : (s.tree.contains path && !force) = true
  · rw [if_pos hblocked]
    exact iff_of_false (fun h => by cases h) fun h => hmay.mp hblocked h.1
  · rw [if_neg hblocked, and_iff_right (not_not.mp (mt hmay.mpr hblocked))]
    refine bind_eq_ok.trans ?_
    simp only [mapError_eq_ok_iff, FileTree.write_eq_ok_iff]
    constructor
    · rintro ⟨t, ⟨hfree, hparent, -⟩, h⟩
      exact ⟨hfree, hparent, (Except.ok.inj h).symm⟩
    · rintro ⟨hfree, hparent, rfl⟩
      exact ⟨_, ⟨hfree, hparent, rfl⟩, rfl⟩

section Init

variable {inHome force : Bool} (h : ofArguments arguments = .ok (.init inHome force))

include h

theorem settlesHome_iff : settlesHome s inHome = true ↔ IsForHome s arguments := by
  rw [settlesHome, Bool.or_eq_true, beq_iff_eq, (init_of_read h).1]
  rfl

theorem newSettingsPath_iff :
    newSettingsPath s inHome = .ok path ↔ newPath? s arguments = some path := by
  rw [newSettingsPath_eq_ok_iff, newPath?]
  simp only [settlesHome_iff h]

theorem linesText_newSettingsLines :
    Config.linesText (newSettingsLines s inHome) = newText s arguments := by
  rw [newSettingsLines, newText]
  simp only [settlesHome_iff h]
  split <;> rfl

/-- A run of `init` succeeds when it has a settings file to write, and then it has written it. -/
theorem runInit_iff_initializes {r : Report} :
    runInit s inHome force = .ok r ↔
      ∃ path, Initializes s arguments path ∧
        r = { succeeded := true
              output := creationNotice path (newSettingsLines s inHome)
              written := [(path, (newText s arguments).toUTF8)] } := by
  rw [runInit_eq_ok_iff]
  apply exists_congr
  intro path
  rw [newSettingsPath_iff h, linesText_newSettingsLines h, (init_of_read h).2]
  constructor
  · rintro ⟨place, allowed, free, inDirectory, hr⟩
    exact ⟨⟨⟨inHome, force, h⟩, place, allowed, free, inDirectory⟩, hr⟩
  · rintro ⟨hpath, hr⟩
    exact ⟨hpath.place, hpath.allowed, hpath.free, hpath.inDirectory, hr⟩

end Init

/-! ## Any run -/

theorem treeAfter_of_ok {command : Command} (h : ofArguments arguments = .ok command) :
    treeAfter s arguments = (run s command).treeAfter s.tree := by
  rw [treeAfter, runArguments, h]
  rfl

theorem exitCode_of_ok {command : Command} (h : ofArguments arguments = .ok command) :
    exitCode s arguments = (run s command).exitCode := by
  rw [exitCode, runArguments, h]
  rfl

theorem treeAfter_of_written {command : Command} (h : ofArguments arguments = .ok command)
    (written : (run s command).written = []) : treeAfter s arguments = s.tree := by
  rw [treeAfter_of_ok h, Report.treeAfter, written]
  rfl

/-- A run that initializes succeeds and has written the new settings file, and any other run leaves
every file as it was. -/
theorem initializes_or_unchanged (s : Surroundings) (arguments : List String) :
    (∃ path, Initializes s arguments path ∧ exitCode s arguments = 0 ∧
        treeAfter s arguments = s.tree.put path (.file (newText s arguments).toUTF8)) ∨
      (∀ path, ¬ Initializes s arguments path) ∧ treeAfter s arguments = s.tree := by
  cases h : ofArguments arguments with
  | error refusal =>
      refine Or.inr ⟨?_, ?_⟩
      · rintro path ⟨⟨inHome, force, hinit⟩, -⟩
        rw [h] at hinit
        cases hinit
      · rw [treeAfter, runArguments, h]
        rfl
  | ok command =>
      by_cases hinit : ∃ inHome force, command = .init inHome force
      · obtain ⟨inHome, force, rfl⟩ := hinit
        cases hrun : runInit s inHome force with
        | ok r =>
            obtain ⟨path, hpath, rfl⟩ := (runInit_iff_initializes h).mp hrun
            refine Or.inl ⟨path, hpath, ?_, ?_⟩
            · rw [exitCode_of_ok h, run, hrun]
              rfl
            · rw [treeAfter_of_ok h, run, hrun]
              rfl
        | error failure =>
            refine Or.inr ⟨?_, ?_⟩
            · intro path hpath
              have hok := (runInit_iff_initializes h).mpr ⟨path, hpath, rfl⟩
              rw [hrun] at hok
              cases hok
            · apply treeAfter_of_written h
              rw [run, hrun]
              rfl
      · refine Or.inr ⟨?_, ?_⟩
        · rintro path ⟨⟨inHome, force, hcommand⟩, -⟩
          exact hinit ⟨inHome, force, Except.ok.inj (h.symm.trans hcommand)⟩
        · exact treeAfter_of_written h (written_run fun inHome force hcommand =>
            hinit ⟨inHome, force, hcommand⟩)

/-- What is at a path changes only when the run writes a new settings file there, so at most one
path changes. A run that fails leaves every file as it was, and a run that writes a settings file
succeeds and changes nothing else. -/
theorem only_init_writes (s : Surroundings) (arguments : List String) :
    (∀ path, (treeAfter s arguments).node? path ≠ s.tree.node? path →
        Initializes s arguments path) ∧
      (∀ path other, (treeAfter s arguments).node? path ≠ s.tree.node? path →
        (treeAfter s arguments).node? other ≠ s.tree.node? other → path = other) ∧
      (exitCode s arguments ≠ 0 → treeAfter s arguments = s.tree) ∧
      ∀ path, Initializes s arguments path →
        exitCode s arguments = 0 ∧
          treeAfter s arguments = s.tree.put path (.file (newText s arguments).toUTF8) := by
  have hplace {path other : Path} (hpath : Initializes s arguments path)
      (hother : Initializes s arguments other) : path = other :=
    Option.some.inj (hpath.place.symm.trans hother.place)
  have hchanged (path : Path) (h : (treeAfter s arguments).node? path ≠ s.tree.node? path) :
      Initializes s arguments path := by
    rcases initializes_or_unchanged s arguments with ⟨written, hwritten, -, htree⟩ | ⟨-, htree⟩
    · rw [htree] at h
      have hsame : path = written := by
        by_contra hne
        exact h (FileTree.node?_put_of_ne _ _ hne)
      exact hsame ▸ hwritten
    · exact absurd (congrArg (FileTree.node? · path) htree) h
  refine ⟨hchanged, fun path other h h' => hplace (hchanged path h) (hchanged other h'), ?_, ?_⟩
  · intro hfailed
    rcases initializes_or_unchanged s arguments with ⟨-, -, hexit, -⟩ | ⟨-, htree⟩
    · exact absurd hexit hfailed
    · exact htree
  · intro path hpath
    rcases initializes_or_unchanged s arguments with ⟨written, hwritten, hexit, htree⟩ | ⟨hnone, -⟩
    · rw [hplace hpath hwritten]
      exact ⟨hexit, htree⟩
    · exact absurd hpath (hnone path)

/-- A directory that has a settings file. -/
def settledDirectory : Surroundings where
  tree := FileTree.empty.addFile ["data", ".sift.toml"] "root = true\n".toUTF8
  directory := ["data"]
  home := some ["home"]
  input := .empty
  year := 2024

theorem only_init_writes_settledDirectory :
    Initializes settledDirectory ["init", "--force"] ["data", ".sift.toml"] ∧
      exitCode settledDirectory ["init", "--force"] = 0 ∧
      exitCode settledDirectory ["init"] = 1 ∧
      treeAfter settledDirectory ["init"] = settledDirectory.tree := by
  have hforced : Initializes settledDirectory ["init", "--force"] ["data", ".sift.toml"] :=
    { asked := ⟨false, true, by decide⟩
      place := by decide
      allowed := fun _ => by decide
      free := by decide
      inDirectory := by decide }
  have hrefused : exitCode settledDirectory ["init"] = 1 := by
    decide +kernel
  refine ⟨hforced, ?_, hrefused, ?_⟩
  · exact ((only_init_writes settledDirectory ["init", "--force"]).2.2.2 _ hforced).1
  · exact (only_init_writes settledDirectory ["init"]).2.2.1 (by rw [hrefused]; decide)

end Command

end FacetedSearch
