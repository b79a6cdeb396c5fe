import FacetedSearch.Clause.Basic
import FacetedSearch.Text.Order
import FacetedSearch.Toml.Reader

/-!
# Settings files

What a single settings file says. Everything in it is optional, and names that mean nothing are
skipped; a known name with a value of another kind makes the file unreadable. The sections with a
fixed set of names may also be given as an array of their values in order.

A date or time stands for a table with the one entry `dateTimeName`, its text. Where a table is
expected, it is read as that table.
-/

namespace FacetedSearch.Config

open Toml

/-- The compiler settings that a file gives. -/
structure CompilerSection where
  disableQueryPosts : Option Bool := none
  spatialEnabled : Option Bool := none
  encoding : Option Encoding := none
  geohashQueryLimit : Option Nat := none
  urlLengthLimit : Option Nat := none
  deriving DecidableEq, Repr

/-- The fields that a file gives to some names, in ascending order of the names. -/
abbrev FieldSection := List (String × List String)

/-- What a file says about the deployment. -/
structure DeploymentSection where
  /-- The names of the categories that the index does not support. -/
  omitted : Option (List String) := none
  deriving DecidableEq, Repr

/-- What a settings file says. -/
structure File where
  /-- The search for settings files ends at this file. -/
  root : Option Bool := none
  compiler : Option CompilerSection := none
  fields : Option FieldSection := none
  facets : Option FieldSection := none
  deployment : Option DeploymentSection := none
  deriving DecidableEq, Repr

/-- The name under which a date or time shows its text. -/
def dateTimeName : String := "$__toml_private_datetime"

/-- Why a value could not be read; the text of the file tells more. -/
inductive Malformed where
  | value
  | text
  deriving DecidableEq, Repr

/-- A reader of values. -/
abbrev Reader (α : Type) := Value → Except Malformed α

/-- Read a value that may be absent. -/
def optional {α : Type} (read : Reader α) : Option Value → Except Malformed (Option α)
  | none => .ok none
  | some v => (read v).map some

/-- A value of the wanted kind. -/
def expected {α : Type} : Option α → Except Malformed α
  | some a => .ok a
  | none => .error .value

/-- A truth value. -/
def readBoolean : Reader Bool := fun v => expected v.asBoolean?

/-- A limit on lengths. -/
def readLimit : Reader Nat := fun v => expected v.asUnsigned?

/-- A text. -/
def readText : Reader String := fun v => expected v.asString?

/-- An encoding: its name, or a table whose only entry has this name and nothing in it. -/
def readEncoding : Reader Encoding
  | .string name => expected (Encoding.ofName? name)
  | .table [(name, .table [])] => expected (Encoding.ofName? name)
  | .table [(name, .array [])] => expected (Encoding.ofName? name)
  | _ => .error .value

/-- One text, or a list of texts. -/
def readTexts : Reader (List String)
  | .string s => .ok [s]
  | .array items => items.mapM readText
  | _ => .error .value

/-- The entries of a table, or of the table that a date or time stands for. -/
def tableEntries? : Value → Option (List (String × Value))
  | .table entries => some entries
  | .dateTime text => some [(dateTimeName, .string text)]
  | _ => none

/-- A section with fixed names: the value of a name is looked up, or taken from its place in the
order of names. -/
def namedValue? (names : List String) (v : Value) : Except Malformed (String → Option Value) :=
  match v with
  | .array items => .ok fun name => (names.zip items).lookup name
  | v =>
    match tableEntries? v with
    | some entries => .ok fun name => valueOf? name entries
    | none => .error .value

/-- The names of compiler settings, in order. -/
def compilerNames : List String :=
  ["disable_query_posts", "spatial_enabled", "encoding", "geohash_query_limit", "url_length_limit"]

/-- The section of compiler settings. -/
def readCompiler : Reader CompilerSection := fun v => do
  let value? ← namedValue? compilerNames v
  let disableQueryPosts ← optional readBoolean (value? "disable_query_posts")
  let spatialEnabled ← optional readBoolean (value? "spatial_enabled")
  let encoding ← optional readEncoding (value? "encoding")
  let geohashQueryLimit ← optional readLimit (value? "geohash_query_limit")
  let urlLengthLimit ← optional readLimit (value? "url_length_limit")
  return { disableQueryPosts, spatialEnabled, encoding, geohashQueryLimit, urlLengthLimit }

/-- The section about the deployment. -/
def readDeployment : Reader DeploymentSection := fun v => do
  let value? ← namedValue? ["omit"] v
  let omitted ← optional readTexts (value? "omit")
  return { omitted }

/-- The entries in ascending order of their names. -/
def sortByName {α : Type} (entries : List (String × α)) : List (String × α) :=
  entries.mergeSort fun a b => Text.precedes a.1 b.1

/-- A section of fields. -/
def readFields : Reader FieldSection := fun v =>
  match tableEntries? v with
  | some entries =>
    (sortByName entries).mapM fun (name, value) => (readTexts value).map (name, ·)
  | none => .error .value

/-- Read the entries of a file. -/
def File.ofEntries (entries : List (String × Value)) : Except Malformed File := do
  let root ← optional readBoolean (valueOf? "root" entries)
  let compiler ← optional readCompiler (valueOf? "compiler" entries)
  let fields ← optional readFields (valueOf? "fields" entries)
  let facets ← optional readFields (valueOf? "facets" entries)
  let deployment ← optional readDeployment (valueOf? "deployment" entries)
  return { root, compiler, fields, facets, deployment }

/-- Read the text of a settings file. -/
def File.parse (text : String) : Except Malformed File :=
  match Toml.parse? text with
  | some entries => File.ofEntries entries
  | none => .error .text

/-- The text is that of a settings file at which the search ends. -/
def isRootText (text : String) : Bool :=
  match File.parse text with
  | .ok file => file.root == some true
  | .error _ => false

end FacetedSearch.Config
