import FacetedSearch.Config.Discovery
import Mathlib.Data.List.Infix
import Mathlib.Data.List.Nodup

/-!
# Which settings files apply

The settings files of a directory and of the directories above it apply, closest first, up to the
first root; the file of the home directory comes last, and only when there is no root. So the trees
above a root cannot be told apart: whatever stands outside of it and in the home directory, broken
or not, the configuration or the error is the same.
-/

namespace FacetedSearch

namespace Path

/-- The paths above a path are its initial parts, the longest first. -/
theorem ancestors_eq (p : Path) : p.ancestors = p.inits.reverse := by
  have hprefixes : prefixes p = p.inits := by
    induction p with
    | nil => rfl
    | cons name rest ih => rw [prefixes, ih, List.inits_cons]
  rw [ancestors, hprefixes]

theorem nodup_inits (p : Path) : p.inits.Nodup := by
  induction p with
  | nil => decide
  | cons name rest ih =>
      rw [List.inits_cons, List.nodup_cons]
      exact ⟨by simp, ih.map (List.cons_injective)⟩

end Path

namespace Config

/-- The settings files in some directories, in the order of the directories. Anything else of the
same name is none. -/
def settingsFiles (t : FileTree) (directories : List Path) : List Path :=
  (directories.map settingsPath).filter fun path => (t.file? path).isSome

/-- A root: the file can be read, it is a settings file, and it calls itself the root. -/
def IsRoot (t : FileTree) (path : Path) : Prop :=
  ∃ text file, t.readText path = .ok text ∧ File.parse text = .ok file ∧ file.root = some true

/-- The settings files that apply to a directory, closest first. -/
inductive FilesFor (t : FileTree) (directory : Path) (home : Option Path) : List Path → Prop where
  /-- The closest root is the last of them. -/
  | upToRoot {front outer : List Path} {root : Path}
    (files : settingsFiles t directory.inits.reverse = front ++ root :: outer)
    (before : ∀ path ∈ front, ¬ IsRoot t path) (isRoot : IsRoot t root) :
    FilesFor t directory home (front ++ [root])
  /-- Without a root, all of them apply, and then that of the home directory unless it is one of
  them. -/
  | withHome (noRoot : ∀ path ∈ settingsFiles t directory.inits.reverse, ¬ IsRoot t path) :
    FilesFor t directory home
      (settingsFiles t directory.inits.reverse ++
        (settingsFiles t home.toList).filter (· ∉ settingsFiles t directory.inits.reverse))

variable {t u : FileTree}

/-! ## Roots -/

theorem file?_eq_some_iff {path : Path} {content : ByteArray} :
    t.file? path = some content ↔ t.node? path = some (.file content) := by
  unfold FileTree.file?
  split
  · rename_i h
    simp [h]
  · rename_i h
    simpa using h content

theorem readText_of_file? {path : Path} {content : ByteArray} (h : t.file? path = some content) :
    t.readText path = decodeText content := by
  rw [FileTree.readText, FileTree.read, file?_eq_some_iff.mp h]
  rfl

/-- The search recognises the roots among the settings files. -/
theorem isRootContent_iff {path : Path} {content : ByteArray} (h : t.file? path = some content) :
    isRootContent content = true ↔ IsRoot t path := by
  unfold IsRoot isRootContent isRootText
  rw [readText_of_file? h]
  cases decodeText content with
  | error e => simp
  | ok text =>
      cases hparse : File.parse text with
      | error e => simp [hparse]
      | ok file => simp [hparse]

theorem exists_file?_of_isRoot {path : Path} (h : IsRoot t path) :
    ∃ content, t.file? path = some content := by
  obtain ⟨text, file, hread, -⟩ := h
  unfold FileTree.readText FileTree.read at hread
  split at hread
  · rename_i content hnode
    exact ⟨content, file?_eq_some_iff.mpr hnode⟩
  · cases hread
  · cases hread

/-! ## The search -/

section Step

variable {directory : Path} {content : ByteArray} (rest : List Path)

theorem settingsFiles_of_none (h : t.file? (settingsPath directory) = none) :
    settingsFiles t (directory :: rest) = settingsFiles t rest := by
  rw [settingsFiles, List.map_cons, List.filter_cons_of_neg (by simp [h])]
  rfl

theorem settingsFiles_of_some (h : t.file? (settingsPath directory) = some content) :
    settingsFiles t (directory :: rest) = settingsPath directory :: settingsFiles t rest := by
  rw [settingsFiles, List.map_cons, List.filter_cons_of_pos (by simp [h])]
  rfl

theorem searchDirectories_of_none (h : t.file? (settingsPath directory) = none) :
    searchDirectories t (directory :: rest) = searchDirectories t rest := by
  rw [searchDirectories]
  simp only [h]

theorem searchDirectories_of_isRoot (h : t.file? (settingsPath directory) = some content)
    (isRoot : IsRoot t (settingsPath directory)) :
    searchDirectories t (directory :: rest) =
      { paths := [settingsPath directory], endsAtRoot := true } := by
  rw [searchDirectories]
  simp only [h, (isRootContent_iff h).mpr isRoot, if_true]

theorem searchDirectories_of_not_isRoot (h : t.file? (settingsPath directory) = some content)
    (notRoot : ¬ IsRoot t (settingsPath directory)) :
    searchDirectories t (directory :: rest) =
      { searchDirectories t rest with
        paths := settingsPath directory :: (searchDirectories t rest).paths } := by
  rw [searchDirectories]
  simp only [h, if_neg (mt (isRootContent_iff h).mp notRoot)]

end Step

theorem settingsFiles_append (directories more : List Path) :
    settingsFiles t (directories ++ more) =
      settingsFiles t directories ++ settingsFiles t more := by
  rw [settingsFiles, List.map_append, List.filter_append]
  rfl

theorem isSome_of_mem_settingsFiles {directories : List Path} {path : Path}
    (h : path ∈ settingsFiles t directories) : (t.file? path).isSome = true :=
  (List.mem_filter.mp h).2

/-- Up to the first root, the search finds every settings file. -/
theorem searchDirectories_of_root {directories front outer : List Path} {root : Path}
    (files : settingsFiles t directories = front ++ root :: outer)
    (before : ∀ path ∈ front, ¬ IsRoot t path) (isRoot : IsRoot t root) :
    searchDirectories t directories = { paths := front ++ [root], endsAtRoot := true } := by
  induction directories generalizing front with
  | nil => simp [settingsFiles] at files
  | cons directory rest ih =>
      cases hfile : t.file? (settingsPath directory) with
      | none =>
          rw [settingsFiles_of_none rest hfile] at files
          rw [searchDirectories_of_none rest hfile, ih files before]
      | some content =>
          rw [settingsFiles_of_some rest hfile] at files
          cases front with
          | nil =>
              obtain ⟨rfl, -⟩ := List.cons.inj files
              exact searchDirectories_of_isRoot rest hfile isRoot
          | cons path front =>
              obtain ⟨rfl, htail⟩ := List.cons.inj files
              have hrest := ih htail fun path hpath => before path (List.mem_cons_of_mem _ hpath)
              rw [searchDirectories_of_not_isRoot rest hfile (before _ List.mem_cons_self), hrest]
              rfl

/-- Without a root, the search finds every settings file. -/
theorem searchDirectories_of_no_root {directories : List Path}
    (noRoot : ∀ path ∈ settingsFiles t directories, ¬ IsRoot t path) :
    searchDirectories t directories =
      { paths := settingsFiles t directories, endsAtRoot := false } := by
  induction directories with
  | nil => rfl
  | cons directory rest ih =>
      cases hfile : t.file? (settingsPath directory) with
      | none =>
          rw [settingsFiles_of_none rest hfile] at noRoot ⊢
          rw [searchDirectories_of_none rest hfile, ih noRoot]
      | some content =>
          rw [settingsFiles_of_some rest hfile] at noRoot ⊢
          have hrest := ih fun path hpath => noRoot path (List.mem_cons_of_mem _ hpath)
          rw [searchDirectories_of_not_isRoot rest hfile (noRoot _ List.mem_cons_self), hrest]

theorem homePaths_eq (home : Option Path) (listed : List Path) :
    homePaths t home listed = (settingsFiles t home.toList).filter (· ∉ listed) := by
  cases home with
  | none => rfl
  | some home =>
      rw [homePaths, Option.toList_some]
      cases hfile : t.file? (settingsPath home) with
      | none =>
          rw [settingsFiles_of_none [] hfile]
          simp [settingsFiles]
      | some content =>
          rw [settingsFiles_of_some [] hfile]
          by_cases hlisted : settingsPath home ∈ listed <;> simp [hlisted, settingsFiles]

/-- Of some paths, none is a root, or there is a first one. -/
theorem exists_first_root (t : FileTree) (paths : List Path) :
    (∀ path ∈ paths, ¬ IsRoot t path) ∨
      ∃ front root outer, paths = front ++ root :: outer ∧
        (∀ path ∈ front, ¬ IsRoot t path) ∧ IsRoot t root := by
  classical
  cases hfound : paths.find? fun path => decide (IsRoot t path) with
  | none => exact Or.inl (by simpa using hfound)
  | some root =>
      obtain ⟨hroot, front, outer, hsplit, hfront⟩ := List.find?_eq_some_iff_append.mp hfound
      refine Or.inr ⟨front, root, outer, hsplit, ?_, of_decide_eq_true hroot⟩
      intro path hpath
      simpa using hfront path hpath

theorem discover_eq_of_filesFor {directory : Path} {home : Option Path} {paths : List Path}
    (h : FilesFor t directory home paths) : paths = discover t directory home := by
  rw [discover, Path.ancestors_eq]
  cases h with
  | upToRoot files before isRoot => rw [searchDirectories_of_root files before isRoot]; rfl
  | withHome noRoot => rw [searchDirectories_of_no_root noRoot, ← homePaths_eq]; rfl

theorem filesFor_discover (t : FileTree) (directory : Path) (home : Option Path) :
    FilesFor t directory home (discover t directory home) := by
  rcases exists_first_root t (settingsFiles t directory.inits.reverse) with
    noRoot | ⟨front, root, outer, files, before, isRoot⟩
  · have hfor : FilesFor t directory home _ := FilesFor.withHome noRoot
    rwa [discover_eq_of_filesFor hfor] at hfor
  · have hfor : FilesFor t directory home _ := FilesFor.upToRoot files before isRoot
    rwa [discover_eq_of_filesFor hfor] at hfor

theorem nodup_settingsFiles {directories : List Path} (h : directories.Nodup) :
    (settingsFiles t directories).Nodup :=
  (h.map (List.append_left_injective [fileName])).filter _

theorem nodup_of_filesFor {directory : Path} {home : Option Path} {paths : List Path}
    (h : FilesFor t directory home paths) : paths.Nodup := by
  have hfiles : (settingsFiles t directory.inits.reverse).Nodup :=
    nodup_settingsFiles (List.nodup_reverse.mpr (Path.nodup_inits directory))
  cases h with
  | upToRoot files before isRoot =>
      rw [files, List.append_cons] at hfiles
      exact hfiles.of_append_left
  | withHome noRoot =>
      have hhome : (settingsFiles t home.toList).Nodup := by
        cases home with
        | none => exact List.nodup_nil
        | some home => exact nodup_settingsFiles (List.nodup_singleton home)
      refine hfiles.append (hhome.filter _) ?_
      intro path hpath hlisted
      exact of_decide_eq_true (List.mem_filter.mp hlisted).2 hpath

/-! ## Trees that agree up to a root -/

section Agreement

variable {path : Path} (h : u.file? path = t.file? path) (present : (t.file? path).isSome = true)

include h present

theorem readText_congr : u.readText path = t.readText path := by
  obtain ⟨content, hcontent⟩ := Option.isSome_iff_exists.mp present
  rw [readText_of_file? hcontent, readText_of_file? (h.trans hcontent)]

theorem isRoot_congr : IsRoot u path ↔ IsRoot t path := by
  unfold IsRoot
  rw [readText_congr h present]

theorem readFile_congr : readFile u path = readFile t path := by
  rw [readFile, readFile, readText_congr h present]

end Agreement

theorem settingsFiles_congr {directories : List Path}
    (agree : ∀ d ∈ directories, u.file? (settingsPath d) = t.file? (settingsPath d)) :
    settingsFiles u directories = settingsFiles t directories := by
  apply List.filter_congr
  intro path hpath
  obtain ⟨d, hd, rfl⟩ := List.mem_map.mp hpath
  rw [agree d hd]

theorem mapM_congr {α β ε : Type} {read read' : α → Except ε β} {items : List α}
    (h : ∀ item ∈ items, read item = read' item) : items.mapM read = items.mapM read' := by
  induction items with
  | nil => rfl
  | cons item items ih =>
      rw [List.mapM_cons, List.mapM_cons, h item List.mem_cons_self,
        ih fun other hother => h other (List.mem_cons_of_mem _ hother)]

/-- Trees that agree on the settings files up to a root have the same configuration, or the same
error, whatever the home directories. -/
theorem load_congr {directory root : Path} {inner outer : List Path}
    (split : directory.inits.reverse = inner ++ root :: outer)
    (isRoot : IsRoot t (settingsPath root))
    (agree : ∀ d ∈ inner ++ [root], u.file? (settingsPath d) = t.file? (settingsPath d))
    (home otherHome : Option Path) : load u directory otherHome = load t directory home := by
  have hagree : ∀ path ∈ settingsFiles t (inner ++ [root]), u.file? path = t.file? path := by
    intro path hpath
    obtain ⟨d, hd, rfl⟩ := List.mem_map.mp (List.mem_of_mem_filter hpath)
    exact agree d hd
  have hmem : settingsPath root ∈ settingsFiles t (inner ++ [root]) := by
    obtain ⟨content, hcontent⟩ := exists_file?_of_isRoot isRoot
    rw [settingsFiles, List.mem_filter, hcontent]
    exact ⟨List.mem_map_of_mem (by simp), rfl⟩
  have hfiles (v : FileTree) : settingsFiles v directory.inits.reverse =
      settingsFiles v (inner ++ [root]) ++ settingsFiles v outer := by
    rw [split, List.append_cons, settingsFiles_append]
  -- The closest root may be closer than the one that is given.
  obtain hnone | ⟨front, closest, between, hclosest, before, isClosest⟩ :=
    exists_first_root t (settingsFiles t (inner ++ [root]))
  · exact absurd isRoot (hnone _ hmem)
  · have hsub : ∀ path ∈ front ++ [closest], path ∈ settingsFiles t (inner ++ [root]) := by
      intro path hpath
      rw [hclosest, List.append_cons]
      exact List.mem_append_left _ hpath
    have hroots : ∀ path ∈ front ++ [closest], (IsRoot u path ↔ IsRoot t path) := by
      intro path hpath
      exact isRoot_congr (hagree path (hsub path hpath))
        (isSome_of_mem_settingsFiles (hsub path hpath))
    have hfilesT : FilesFor t directory home (front ++ [closest]) := by
      have hsplit : settingsFiles t directory.inits.reverse =
          front ++ closest :: (between ++ settingsFiles t outer) := by
        rw [hfiles t, hclosest, List.append_assoc, List.cons_append]
      exact FilesFor.upToRoot hsplit before isClosest
    have hfilesU : FilesFor u directory otherHome (front ++ [closest]) := by
      have hsplit : settingsFiles u directory.inits.reverse =
          front ++ closest :: (between ++ settingsFiles u outer) := by
        rw [hfiles u, settingsFiles_congr agree, hclosest, List.append_assoc, List.cons_append]
      refine FilesFor.upToRoot hsplit ?_ ((hroots closest (by simp)).mpr isClosest)
      intro path hpath
      rw [hroots path (List.mem_append_left _ hpath)]
      exact before path hpath
    rw [load, load, ← discover_eq_of_filesFor hfilesT, ← discover_eq_of_filesFor hfilesU,
      mapM_congr fun path hpath => readFile_congr (hagree path (hsub path hpath))
        (isSome_of_mem_settingsFiles (hsub path hpath))]

/-- The settings files that are found are those that apply, in their order, and each is found once.
Trees that agree on the settings files up to a root have the same configuration, or the same error,
whatever the home directories and whatever stands farther out. -/
theorem discover_up_to_root (t : FileTree) (directory : Path) (home : Option Path) :
    (∀ paths, FilesFor t directory home paths ↔ paths = discover t directory home) ∧
      (discover t directory home).Nodup ∧
      ∀ (inner outer : List Path) (root : Path),
        directory.inits.reverse = inner ++ root :: outer → IsRoot t (settingsPath root) →
          ∀ (u : FileTree) (otherHome : Option Path),
            (∀ d ∈ inner ++ [root], u.file? (settingsPath d) = t.file? (settingsPath d)) →
              load u directory otherHome = load t directory home := by
  refine ⟨fun paths => ⟨discover_eq_of_filesFor, ?_⟩, ?_, ?_⟩
  · rintro rfl
    exact filesFor_discover t directory home
  · exact nodup_of_filesFor (filesFor_discover t directory home)
  · intro inner outer root split isRoot u otherHome agree
    exact load_congr split isRoot agree home otherHome

/-- A catalog whose settings file is a root. -/
def catalogTree : FileTree :=
  FileTree.empty.addFile ["data", ".sift.toml"] "root = true\n".toUTF8

/-- The same catalog among settings files that cannot be read. -/
def brokenTree : FileTree :=
  (catalogTree.addFile [".sift.toml"] "[compiler".toUTF8).addFile ["home", ".sift.toml"]
    "root = maybe".toUTF8

theorem discover_up_to_root_brokenTree :
    IsRoot catalogTree (settingsPath ["data"]) ∧
      (∀ d ∈ [["data", "maps"], ["data"]],
        brokenTree.file? (settingsPath d) = catalogTree.file? (settingsPath d)) ∧
      brokenTree.file? (settingsPath []) ≠ catalogTree.file? (settingsPath []) ∧
      load brokenTree ["data", "maps"] (some ["home"]) =
        load catalogTree ["data", "maps"] none := by
  have hroot : IsRoot catalogTree (settingsPath ["data"]) :=
    ⟨"root = true\n", { root := some true }, by decide +kernel, by decide +kernel, rfl⟩
  have hagree : ∀ d ∈ [["data", "maps"], ["data"]],
      brokenTree.file? (settingsPath d) = catalogTree.file? (settingsPath d) := by
    decide +kernel
  refine ⟨hroot, hagree, by decide +kernel, ?_⟩
  exact (discover_up_to_root catalogTree ["data", "maps"] none).2.2 [["data", "maps"]] [[]] ["data"]
    (by decide) hroot brokenTree (some ["home"]) hagree

end Config

end FacetedSearch
