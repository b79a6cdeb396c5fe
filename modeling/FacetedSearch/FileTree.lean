/-!
# File trees

Files and directories by their paths. A path is the list of names on the way from the root; a text
names a path relative to a directory and is followed name by name, where `.` stays in a directory
and `..` goes up. Whatever a name is looked up in has to be a directory, so a slash at the end of a
text asks for a directory. There are no links and no permissions, and a write that finds its place
never fails halfway.
-/

namespace FacetedSearch

/-- The names on the way from the root of a file tree. -/
abbrev Path := List String

namespace Path

/-- A path as a text. -/
def text (p : Path) : String :=
  "/" ++ "/".intercalate p

/-- The paths on the way from the root to a path, both included. -/
def prefixes : Path → List Path
  | [] => [[]]
  | name :: rest => [] :: (prefixes rest).map (name :: ·)

/-- A path and the paths above it, innermost first. -/
def ancestors (p : Path) : List Path :=
  (prefixes p).reverse

/-- The parts of a text between slashes. -/
def parts (s : String) : List String :=
  (s.toList.splitOn '/').map String.ofList

/-- Where a name leads from a path. -/
def move (p : Path) (name : String) : Path :=
  if name = "" ∨ name = "." then p
  else if name = ".." then p.dropLast
  else p ++ [name]

/-- The paths that are passed when names are followed, the start and the end included. -/
def passed (p : Path) : List String → List Path
  | [] => [p]
  | name :: rest => p :: passed (p.move name) rest

/-- The paths that are passed when a text is followed from a directory. -/
def passedBy (directory : Path) (s : String) : List Path :=
  match parts s with
  | "" :: names => passed [] names
  | names => passed directory names

/-- The path that a text names, one that holds no `.` or `..`. -/
def ofText (s : String) : Path :=
  (parts s).filter (!·.isEmpty)

end Path

/-- What is at a path. -/
inductive Node where
  | file (content : ByteArray)
  | directory

/-- Why a file could not be read or written. -/
inductive FileError where
  /-- There is nothing at the path. -/
  | notFound
  /-- A name was looked up in something that is no directory. -/
  | notADirectory
  /-- A directory has no content. -/
  | isADirectory
  /-- A name or the whole text is too long. -/
  | nameTooLong
  /-- The content is not UTF-8. -/
  | notText
  deriving DecidableEq, Repr

/-- The error in words. -/
def FileError.message : FileError → String
  | notFound => "No such file or directory (os error 2)"
  | notADirectory => "Not a directory (os error 20)"
  | isADirectory => "Is a directory (os error 21)"
  | nameTooLong => "File name too long (os error 36)"
  | notText => "stream did not contain valid UTF-8"

/-- Read content as a text. -/
def decodeText (content : ByteArray) : Except FileError String :=
  match String.fromUTF8? content with
  | some text => .ok text
  | none => .error .notText

/-- Files and directories by path. -/
structure FileTree where
  node? : Path → Option Node

namespace FileTree

/-- The tree that holds nothing but its root. -/
def empty : FileTree where
  node? p := if p.isEmpty then some .directory else none

/-- Put something at a path, in place of what was there. -/
def put (t : FileTree) (p : Path) (node : Node) : FileTree where
  node? q := if q = p then some node else t.node? q

/-- Put a directory at a path, and at every path on the way there. -/
def addDirectory (t : FileTree) (p : Path) : FileTree :=
  p.prefixes.foldl (fun t q => t.put q .directory) t

/-- Put a file at a path, and directories on the way there. -/
def addFile (t : FileTree) (p : Path) (content : ByteArray) : FileTree :=
  (t.addDirectory p.dropLast).put p (.file content)

/-- Something is at the path. -/
def contains (t : FileTree) (p : Path) : Bool :=
  (t.node? p).isSome

/-- A directory is at the path. -/
def isDirectory (t : FileTree) (p : Path) : Bool :=
  match t.node? p with
  | some .directory => true
  | _ => false

/-- The content of the file at a path. -/
def file? (t : FileTree) (p : Path) : Option ByteArray :=
  match t.node? p with
  | some (.file content) => some content
  | _ => none

/-- The number of bytes that a name may have. -/
def maxNameSize : Nat := 255

/-- The number of bytes that a text naming a path may have. -/
def maxTextSize : Nat := 4095

/-- Look up one name in a directory. -/
def enter (t : FileTree) (p : Path) (name : String) : Except FileError Path :=
  if !t.isDirectory p then .error .notADirectory
  else if maxNameSize < name.utf8ByteSize then .error .nameTooLong
  else if t.contains (p.move name) then .ok (p.move name)
  else .error .notFound

/-- Follow names from a path. -/
def follow (t : FileTree) (p : Path) (names : List String) : Except FileError Path :=
  names.foldlM t.enter p

/-- The path that a text names, relative to a directory. -/
def locate (t : FileTree) (directory : Path) (text : String) : Except FileError Path :=
  if text = "" then .error .notFound
  else if maxTextSize < text.utf8ByteSize then .error .nameTooLong
  else
    match Path.parts text with
    | "" :: names => t.follow [] names
    | names => t.follow directory names

/-- The content of the file at a path. -/
def read (t : FileTree) (p : Path) : Except FileError ByteArray :=
  match t.node? p with
  | some (.file content) => .ok content
  | some .directory => .error .isADirectory
  | none => .error .notFound

/-- The text of the file at a path. -/
def readText (t : FileTree) (p : Path) : Except FileError String :=
  t.read p >>= decodeText

/-- Write a file: what is at its path must be a file or nothing, in a directory. -/
def write (t : FileTree) (p : Path) (content : ByteArray) : Except FileError FileTree :=
  if t.isDirectory p then .error .isADirectory
  else if t.isDirectory p.dropLast then .ok (t.put p (.file content))
  else if t.contains p.dropLast then .error .notADirectory
  else .error .notFound

@[simp] theorem node?_put_self (t : FileTree) (p : Path) (node : Node) :
    (t.put p node).node? p = some node := by
  simp [put]

theorem node?_put_of_ne (t : FileTree) {p q : Path} (node : Node) (h : q ≠ p) :
    (t.put p node).node? q = t.node? q := by
  simp [put, h]

end FileTree

end FacetedSearch
