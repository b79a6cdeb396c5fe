import FacetedSearch.Config.Merge

/-!
# The text of a configuration

The effective settings as a settings file. Every section is written, also an empty one; fields are
listed by the names of their categories, in ascending order.
-/

namespace FacetedSearch.Config

/-- A list of texts: on one line for up to one text, otherwise with a line for each. -/
def arrayText (items : List String) : String :=
  match items with
  | [] => "[]"
  | [only] => "[" ++ Toml.writeString only ++ "]"
  | items =>
    "[\n" ++ String.join (items.map fun item => "    " ++ Toml.writeString item ++ ",\n") ++ "]"

/-- An entry on a line of its own. -/
def entryLine (name value : String) : String :=
  name ++ " = " ++ value ++ "\n"

/-- The header of a section on a line of its own. -/
def headerLine (name : String) : String :=
  "[" ++ name ++ "]\n"

/-- A Boolean. -/
def booleanText (b : Bool) : String :=
  if b then "true" else "false"

/-- The compiler settings. -/
def compilerText (s : Settings) : String :=
  headerLine "compiler"
    ++ entryLine "disable_query_posts" (booleanText s.disableQueryPosts)
    ++ entryLine "spatial_enabled" (booleanText s.spatialEnabled)
    ++ entryLine "encoding" (Toml.writeString s.encoding.name)
    ++ entryLine "geohash_query_limit" (toString s.geohashQueryLimit)
    ++ entryLine "url_length_limit" (toString s.urlLengthLimit)

/-- The entries of a table by name, in ascending order. -/
def namedEntries (t : Category.Table (List String)) : FieldSection :=
  sortByName (t.entries.map fun (c, fields) => (c.name, fields))

/-- A section of fields. -/
def fieldsText (sectionName : String) (t : Category.Table (List String)) : String :=
  headerLine sectionName
    ++ String.join ((namedEntries t).map fun (name, fields) => entryLine name (arrayText fields))

/-- The whole configuration. -/
def Deployment.text (d : Deployment) : String :=
  compilerText d.settings ++ "\n" ++ fieldsText "fields" d.fields ++ "\n"
    ++ fieldsText "facets" d.facets ++ "\n" ++ headerLine "deployment"
    ++ entryLine "omit" (arrayText (d.omitted.map (·.name)))

end FacetedSearch.Config
