import FacetedSearch.Command.Run
import FacetedSearch.Command.Usage
import Std.Time.DateTime

/-!
# The command line

The surroundings of a command are looked at before it runs: only the paths that it may read are
looked at, and standard input is read only when the command asks for it. What the command writes is
written after it has run.
-/

namespace FacetedSearch.Command

/-- The document that a command reads. -/
def document? : Command → Option String
  | .compile document .. => some document
  | .filters document => some document
  | _ => none

/-- The paths that a command may read: the settings files that apply to a directory, and what is
passed on the way to the document. -/
def readablePaths (directory : Path) (home : Option Path) (command : Command) : List Path :=
  let searched := directory.ancestors ++ home.toList
  searched ++ searched.map Config.settingsPath ++
    match document? command with
    | some document => if isStandardInput document then [] else Path.passedBy directory document
    | none => []

/-- Look at what is at a path. -/
def observe (t : FileTree) (p : Path) : IO FileTree := do
  let place := (← IO.currentDir) / p.text
  if !(← place.pathExists) then return t
  else if ← place.isDir then return t.addDirectory p
  else
    try return t.addFile p (← IO.FS.readBinFile place)
    catch _ => return t

/-- Read standard input when a command asks for it. -/
def readInput (command : Command) : IO ByteArray := do
  if (document? command).any isStandardInput then (← IO.getStdin).readBinToEnd
  else return .empty

/-- The current year. -/
def currentYear : IO Int := do
  let now ← Std.Time.Timestamp.now
  return (Std.Time.PlainDate.ofEpochDay now.toDaysSinceUnixEpoch).year.toInt

/-- The home directory. -/
def homeDirectory : IO (Option Path) := do
  match ← IO.getEnv "HOME" with
  | some home => return if home.isEmpty then none else some (Path.ofText home)
  | none => return none

/-- Look at everything that a command may depend on. -/
def lookAround (command : Command) : IO Surroundings := do
  let directory := Path.ofText (← IO.currentDir).toString
  let home ← homeDirectory
  let tree ← (readablePaths directory home command).foldlM observe FileTree.empty
  return { tree, directory, home, input := ← readInput command, year := ← currentYear }

/-- Write the files of a report and print it. -/
def deliver (r : Report) : IO UInt32 := do
  try
    for (path, content) in r.written do
      IO.FS.writeBinFile path.text content
    IO.print r.output
    IO.eprint r.errors
    return UInt32.ofNat r.exitCode
  catch e =>
    IO.eprintln ("error: " ++ toString e)
    return 1

/-- Say why there is no command. -/
def refuse (r : Refusal) : IO UInt32 := do
  if r.exitCode = 0 then IO.print r.text else IO.eprint r.text
  return UInt32.ofNat r.exitCode

end FacetedSearch.Command

open FacetedSearch in
/-- Run the command that the arguments ask for. -/
def main (arguments : List String) : IO UInt32 := do
  match Command.ofArguments arguments with
  | .ok command =>
    let s ← Command.lookAround command
    Command.deliver (Command.run s command)
  | .error refusal => Command.refuse refusal
