import FacetedSearch.Command.Basic
import FacetedSearch.Command.Report
import FacetedSearch.Config.Discovery
import FacetedSearch.Config.Template
import FacetedSearch.Config.Text
import FacetedSearch.Config.Warning
import FacetedSearch.Facets
import FacetedSearch.Json.Reader
import FacetedSearch.Json.Writer
import FacetedSearch.Query
import FacetedSearch.State.Document
import FacetedSearch.Text.BoxedTable

/-!
# Running commands

A command depends on a file tree, a working directory, a home directory, standard input and the
current year, and it leaves a report. Only `init` writes a file, and every other command loads the
configuration of the working directory first.
-/

namespace FacetedSearch.Command

/-- What a command depends on. -/
structure Surroundings where
  tree : FileTree
  /-- The working directory. -/
  directory : Path
  /-- The home directory, when it is known. -/
  home : Option Path
  /-- Standard input. -/
  input : ByteArray
  /-- The current year, the default end of the year range. -/
  year : Int

/-- Why a command fails. -/
inductive Failure where
  /-- There is no configuration. -/
  | configuration (e : Config.ConfigError)
  /-- A document could not be read. -/
  | unreadable (document : String) (reason : FileError)
  /-- A document is not JSON. -/
  | malformed (document : String)
  /-- A category does not exist, or a document does not describe a state. -/
  | state (e : StateError)
  /-- A facet request has no fields. -/
  | noFields
  /-- There is a settings file already. -/
  | settingsExist (path : Path)
  /-- A settings file could not be written. -/
  | unwritable (path : Path) (reason : FileError)
  /-- There is no home directory. -/
  | noHome

/-- The failure in words. -/
def Failure.message : Failure → String
  | configuration e => "failed to load configuration: " ++ e.message
  | unreadable document reason => "failed to read " ++ document ++ ": " ++ reason.message
  | malformed document => document ++ " is not valid JSON"
  | state e => e.message
  | noFields => "no facet fields requested"
  | settingsExist path =>
    "configuration file already exists: " ++ path.text ++ "\nuse --force to overwrite"
  | unwritable path reason => "failed to write " ++ path.text ++ ": " ++ reason.message
  | noHome => "could not determine home directory"

/-- The report of a command that may fail. -/
def Report.of : Except Failure Report → Report
  | .ok r => r
  | .error e => failed e.message

/-! ## Reading -/

/-- The document is standard input. -/
def isStandardInput (document : String) : Bool :=
  match Path.parts document with
  | "-" :: rest => rest.all fun part => part == "" || part == "."
  | _ => false

/-- The text of a document. -/
def readDocument (s : Surroundings) (document : String) : Except FileError String :=
  if isStandardInput document then decodeText s.input
  else s.tree.locate s.directory document >>= s.tree.readText

/-- The state of a document, over the defaults of the configuration. -/
def readState (s : Surroundings) (d : Config.Deployment) (document : String) :
    Except Failure State := do
  let text ← (readDocument s document).mapError (.unreadable document)
  match Json.parse? text with
  | none => .error (.malformed document)
  | some j => (State.ofDocument (d.defaults s.year) j).mapError .state

/-- The configuration of the working directory. -/
def loadConfiguration (s : Surroundings) : Except Failure Config.Deployment :=
  (Config.load s.tree s.directory s.home).mapError .configuration

/-! ## Compiling -/

/-- Read the name of the category that a query is compiled for. -/
def readScope : Option String → Except Failure (Option Category)
  | none => .ok none
  | some name => ((Category.parse name).mapError .state).map some

/-- The settings of a configuration, with values left as they are or only GET requests possible. -/
def adjustSettings (settings : Settings) (raw getOnly : Bool) : Settings :=
  { settings with
    encoding := if raw then .raw else settings.encoding
    disableQueryPosts := settings.disableQueryPosts || getOnly }

/-- A query as a document. -/
def queryDocument (scope : Option Category) (query : Query) (transport : Transport) : Json :=
  .object [("category", (scope.map fun c => Json.string c.name).getD .null),
    ("text", .string query.text), ("truncated", .bool query.truncated),
    ("transport", .string transport.name)]

/-- The warning about a query that was cut. -/
def truncationWarning : String :=
  "warning: map filter truncated to fit the GET length limit"

/-- Compile the query of a document. -/
def runCompile (s : Surroundings) (document : String) (category : Option String)
    (raw getOnly json : Bool) : Except Failure Report := do
  let d ← loadConfiguration s
  let scope ← readScope category
  let state ← readState s d document
  let settings := adjustSettings d.settings raw getOnly
  let query := Query.compile { state, catalog := d.catalog, settings, scope }
  if json then
    let transport := settings.transportFor (Text.size query.text)
    return .printed (asLine (queryDocument scope query transport).pretty)
  else
    return {
      succeeded := true
      output := asLine query.text
      errors := if query.truncated then asLine truncationWarning else "" }

/-! ## Facets -/

/-- A facet request as a document. -/
def facetDocument (fields : List String) : Json :=
  .object [("params", .array ((Facets.parameters fields).map fun (name, value) =>
      .array [.string name, .string value])),
    ("fields", .array (fields.map .string))]

/-- Show the parameters of a facet request. -/
def runFacets (s : Surroundings) (names : Option String) (json : Bool) :
    Except Failure Report := do
  let d ← loadConfiguration s
  let fields := Facets.fieldsFor d.catalog (d.defaults s.year) names
  if fields.isEmpty then .error .noFields
  if json then return .printed (asLine (facetDocument fields).pretty)
  else return .printed (asLine (Facets.queryText fields))

/-! ## Filters -/

/-- What a slot holds, for a reader. -/
def describeSlot : Slot → String
  | .null => "-"
  | .flag b => Config.booleanText b
  | .number x => x.toText
  | .text t => t
  | .values vs => ", ".intercalate (vs.map (·.text))
  | .exclusions es => " ".intercalate (es.map fun e => "-" ++ e.field ++ ":" ++ e.value)
  | .groups gs => ", ".intercalate (Geohash.levelKeys gs)

/-- The row of a filter. -/
def filterRow (state : State) (catalog : Catalog) (c : Category) : List String :=
  [c.name, catalog.labelOf c, ", ".intercalate (catalog.fieldsOf c),
    ((state.get? c).map describeSlot).getD ""]

/-- The filters of a state. -/
def filterTable (state : State) (catalog : Catalog) : Text.BoxedTable where
  header := ["Category", "Label", "Fields", "Value"]
  rows := state.currentFilters.map (filterRow state catalog)

/-- List the filters of a document. -/
def runFilters (s : Surroundings) (document : String) : Except Failure Report := do
  let d ← loadConfiguration s
  let state ← readState s d document
  if state.filterCount = 0 then return .printed (asLine (dim "No active filters."))
  else
    let heading := "Active filters (" ++ toString state.filterCount ++ "):"
    return .printed (asLine (bold heading) ++ asLine (filterTable state d.catalog).draw)

/-! ## Configuration -/

/-- Show the configuration: the files it comes from, its text, and warnings about it. -/
def runConfig (s : Surroundings) : Except Failure Report := do
  let d ← loadConfiguration s
  let origins := d.files.map fun path => asLine (dim ("# from " ++ path))
  let warnings := d.warnings.map fun w => asLine (yellow ("warning: " ++ w.message))
  return {
    succeeded := true
    output := String.join origins ++ d.text
    errors := String.join warnings }

/-! ## New settings files -/

/-- The new settings file belongs to the home directory. -/
def settlesHome (s : Surroundings) (inHome : Bool) : Bool :=
  inHome || s.home == some s.directory

/-- The path of the new settings file. -/
def newSettingsPath (s : Surroundings) (inHome : Bool) : Except Failure Path :=
  if settlesHome s inHome then
    match s.home with
    | some home => .ok (Config.settingsPath home)
    | none => .error .noHome
  else .ok (Config.settingsPath s.directory)

/-- The lines of the new settings file. -/
def newSettingsLines (s : Surroundings) (inHome : Bool) : List String :=
  Config.commentedLines (if settlesHome s inHome then Config.globalLines else Config.localLines)

/-- What is printed about a new settings file. -/
def creationNotice (path : Path) (lines : List String) : String :=
  asLine ("Created " ++ path.text) ++ asLine "" ++ asLine (bold "Configuration written:")
    ++ String.join (lines.map fun line => asLine ("   " ++ line))

/-- Write a new settings file. A file that is there already is kept, unless it may be
overwritten. -/
def runInit (s : Surroundings) (inHome force : Bool) : Except Failure Report := do
  let path ← newSettingsPath s inHome
  if s.tree.contains path && !force then .error (.settingsExist path)
  let lines := newSettingsLines s inHome
  let content := (Config.linesText lines).toUTF8
  let _ ← (s.tree.write path content).mapError (.unwritable path)
  return {
    succeeded := true
    output := creationNotice path lines
    written := [(path, content)] }

/-! ## Any command -/

/-- Run a command. -/
def run (s : Surroundings) : Command → Report
  | .compile document category raw getOnly json =>
    .of (runCompile s document category raw getOnly json)
  | .facets names json => .of (runFacets s names json)
  | .filters document => .of (runFilters s document)
  | .config => .of (runConfig s)
  | .init inHome force => .of (runInit s inHome force)

/-- Run the command that arguments ask for. -/
def runArguments (s : Surroundings) (arguments : List String) : Except Refusal Report :=
  (ofArguments arguments).map (run s)

end FacetedSearch.Command
