import FacetedSearch.Config.Merge

/-!
# Finding settings files

The settings of a directory come from the settings files in it and in the directories above it,
closest first. The search ends at a file that calls itself the root; when there is none, the file
of the home directory comes last. While searching, a file that cannot be read is not a root; loading
the files reads each of them again, and there such a file is an error.
-/

namespace FacetedSearch.Config

/-- The name of settings files. -/
def fileName : String := ".sift.toml"

/-- The path of the settings file in a directory. -/
def settingsPath (directory : Path) : Path :=
  directory ++ [fileName]

/-- The content is that of a settings file at which the search ends. -/
def isRootContent (content : ByteArray) : Bool :=
  match decodeText content with
  | .ok text => isRootText text
  | .error _ => false

/-- Settings files in the order of the search. -/
structure Found where
  paths : List Path
  /-- The last of them is a root. -/
  endsAtRoot : Bool
  deriving DecidableEq, Repr

/-- Search directories one after another, up to the first root. -/
def searchDirectories (t : FileTree) : List Path → Found
  | [] => { paths := [], endsAtRoot := false }
  | directory :: rest =>
    let path := settingsPath directory
    match t.file? path with
    | none => searchDirectories t rest
    | some content =>
      if isRootContent content then { paths := [path], endsAtRoot := true }
      else
        let found := searchDirectories t rest
        { found with paths := path :: found.paths }

/-- The settings file of the home directory, as long as it is not in a list. -/
def homePaths (t : FileTree) (home : Option Path) (listed : List Path) : List Path :=
  match home with
  | some home =>
    let path := settingsPath home
    if (t.file? path).isSome && !listed.contains path then [path] else []
  | none => []

/-- The settings files of a directory, closest first. -/
def discover (t : FileTree) (directory : Path) (home : Option Path) : List Path :=
  let found := searchDirectories t directory.ancestors
  if found.endsAtRoot then found.paths else found.paths ++ homePaths t home found.paths

/-- Read the settings file at a path. -/
def readFile (t : FileTree) (path : Path) : Except ConfigError Source :=
  match t.readText path with
  | .ok text => readSource path.text text
  | .error reason => .error (.unreadable path.text reason)

/-- The configuration of a directory. -/
def load (t : FileTree) (directory : Path) (home : Option Path) :
    Except ConfigError Deployment := do
  let sources ← (discover t directory home).mapM (readFile t)
  merge sources

end FacetedSearch.Config
