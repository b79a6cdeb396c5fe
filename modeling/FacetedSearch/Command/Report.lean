import FacetedSearch.FileTree

/-!
# Reports

What a command leaves behind: what it prints, whether it succeeded, and the files it wrote. A
failing command prints an error and writes nothing.
-/

namespace FacetedSearch.Command

/-- What a command leaves behind. -/
structure Report where
  succeeded : Bool
  /-- What is printed on standard output. -/
  output : String := ""
  /-- What is printed on standard error. -/
  errors : String := ""
  /-- The files written, with their content. -/
  written : List (Path × ByteArray) := []

namespace Report

/-- The exit code of a command. -/
def exitCode (r : Report) : Nat :=
  if r.succeeded then 0 else 1

/-- The files that are new or hold something else than before. -/
def changedFiles (r : Report) (before : FileTree) : List (Path × ByteArray) :=
  r.written.filter fun (path, content) => before.file? path != some content

/-- The file tree that a command leaves behind. -/
def treeAfter (r : Report) (before : FileTree) : FileTree :=
  r.written.foldl (fun t (path, content) => t.put path (.file content)) before

end Report

/-- A text as a line. -/
def asLine (s : String) : String :=
  s ++ "\n"

/-- A command that prints a text. -/
def Report.printed (output : String) : Report where
  succeeded := true
  output := output

/-- A command that fails with an error. -/
def Report.failed (message : String) : Report where
  succeeded := false
  errors := asLine ("error: " ++ message)

@[simp] theorem Report.written_printed (output : String) :
    (Report.printed output).written = [] := rfl

@[simp] theorem Report.written_failed (message : String) :
    (Report.failed message).written = [] := rfl

/-! ## Styles of a terminal -/

/-- Text in a style, which ends behind it. -/
def styled (code : String) (s : String) : String :=
  "\x1b[" ++ code ++ "m" ++ s ++ "\x1b[0m"

/-- A heading. -/
def bold (s : String) : String :=
  styled "1" s

/-- Something of less importance. -/
def dim (s : String) : String :=
  styled "2" s

/-- A warning. -/
def yellow (s : String) : String :=
  styled "33" s

end FacetedSearch.Command
