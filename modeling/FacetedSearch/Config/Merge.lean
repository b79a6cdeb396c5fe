import FacetedSearch.Catalog
import FacetedSearch.Config.File
import FacetedSearch.Defaults
import FacetedSearch.FileTree
import FacetedSearch.Settings

/-!
# Merging settings files

Several files describe a deployment, the closest one first. Each compiler setting and the fields of
each category are those of the first file that gives them; the list of omitted categories is taken
as a whole from the first file that has one. A name in these files that is no category is an error,
except in a list of omitted categories that is not taken.
-/

namespace FacetedSearch.Config

/-- Why there is no configuration. -/
inductive ConfigError where
  /-- A file could not be read. -/
  | unreadable (path : String) (reason : FileError)
  /-- A file is not a settings file. -/
  | malformed (path : String)
  /-- A section names something that is no category. -/
  | unknownCategory (path : String) (sectionName : String) (name : String)
  /-- There is no home directory. -/
  | noHome
  deriving DecidableEq, Repr

/-- The error in words. -/
def ConfigError.message : ConfigError → String
  | unreadable path reason => "failed to read config file " ++ path ++ ": " ++ reason.message
  | malformed path => "failed to parse config file " ++ path
  | unknownCategory path sectionName name =>
    "unknown filter category '" ++ name ++ "' in [" ++ sectionName ++ "] of " ++ path
  | noHome => "could not determine home directory"

/-- A settings file and where it was found. -/
structure Source where
  path : String
  file : File

/-- How an index is deployed: the configuration that its settings files make together. -/
structure Deployment where
  settings : Settings := {}
  /-- The fields that take the place of the standard ones. -/
  fields : Category.Table (List String) := .empty
  /-- The facet fields that take the place of the standard ones. -/
  facets : Category.Table (List String) := .empty
  /-- The categories that the index does not support. -/
  omitted : List Category := []
  /-- The directory of the closest file. -/
  root : Option String := none
  /-- The files that took part, closest first. -/
  files : List String := []

namespace Deployment

/-- The standard catalog with the fields of the configuration. -/
def catalog (d : Deployment) : Catalog where
  fields := Catalog.standard.fields.insertAll d.fields.entries
  facets := Catalog.standard.facets.insertAll d.facets.entries
  labels := Catalog.standard.labels

/-- The standard defaults without the omitted categories. -/
def defaults (d : Deployment) (lastYear : Int) : Defaults :=
  (Defaults.forYear lastYear).without d.omitted

end Deployment

/-- Overwrite the settings that a file gives. -/
def CompilerSection.overwrite (given : CompilerSection) (settings : Settings) : Settings where
  disableQueryPosts := given.disableQueryPosts.getD settings.disableQueryPosts
  spatialEnabled := given.spatialEnabled.getD settings.spatialEnabled
  encoding := given.encoding.getD settings.encoding
  geohashQueryLimit := given.geohashQueryLimit.getD settings.geohashQueryLimit
  urlLengthLimit := given.urlLengthLimit.getD settings.urlLengthLimit

/-- Overwrite the settings that a file gives, if it has a section for them. -/
def overwriteFrom (settings : Settings) (s : Source) : Settings :=
  match s.file.compiler with
  | some given => given.overwrite settings
  | none => settings

/-- The compiler settings: the files overwrite the defaults one after another, the closest file
last. -/
def mergeSettings (sources : List Source) : Settings :=
  sources.reverse.foldl overwriteFrom {}

/-- Read the name of a category in a section of a file. -/
def categoryIn (path sectionName name : String) : Except ConfigError Category :=
  match Category.ofName? name with
  | some c => .ok c
  | none => .error (.unknownCategory path sectionName name)

/-- Give a category the fields of an entry, unless it has been given some before. -/
def addFields (path sectionName : String) (t : Category.Table (List String)) :
    String × List String → Except ConfigError (Category.Table (List String))
  | (name, fields) => do
    let c ← categoryIn path sectionName name
    return t.insertIfNew c fields

/-- The fields of each category: the files are taken one after another, the closest file first. -/
def mergeFields (sectionName : String) (get : File → Option FieldSection)
    (sources : List Source) : Except ConfigError (Category.Table (List String)) :=
  sources.foldlM
    (fun t s => ((get s.file).getD []).foldlM (addFields s.path sectionName) t) .empty

/-- The first list of omitted categories, with the path of its file. -/
def firstOmitted? (sources : List Source) : Option (String × List String) :=
  sources.findSome? fun s => (s.file.deployment.bind (·.omitted)).map (s.path, ·)

/-- The omitted categories. -/
def mergeOmitted (sources : List Source) : Except ConfigError (List Category) :=
  match firstOmitted? sources with
  | some (path, names) => names.mapM (categoryIn path "deployment")
  | none => .ok []

/-- The parts of a path between slashes, without needless ones at the end. -/
def trimParts (parts : List String) : List String :=
  (parts.reverse.dropWhile fun part => part == "" || part == ".").reverse

/-- Split a path into what it starts at, the root or the directory `.`, and the rest. -/
def splitStart : List Char → String × List Char
  | '/' :: rest => ("/", rest)
  | ['.'] => (".", [])
  | '.' :: '/' :: rest => (".", '/' :: rest)
  | s => ("", s)

/-- The path of the directory that holds a path. The root is in no directory. -/
def parentPath? (path : String) : Option String :=
  let (start, rest) := splitStart path.toList
  let parts := trimParts ((rest.splitOn '/').map String.ofList)
  if parts.isEmpty then if start = "." then some "" else none
  else some (start ++ "/".intercalate (trimParts parts.dropLast))

/-- The configuration that files describe, the closest file first. -/
def merge (sources : List Source) : Except ConfigError Deployment := do
  let fields ← mergeFields "fields" (·.fields) sources
  let facets ← mergeFields "facets" (·.facets) sources
  let omitted ← mergeOmitted sources
  return {
    settings := mergeSettings sources
    fields, facets, omitted
    root := sources.head?.bind fun s => parentPath? s.path
    files := sources.map (·.path) }

/-- Read a file from its text. -/
def readSource (path text : String) : Except ConfigError Source :=
  match File.parse text with
  | .ok file => .ok { path, file }
  | .error _ => .error (.malformed path)

end FacetedSearch.Config
