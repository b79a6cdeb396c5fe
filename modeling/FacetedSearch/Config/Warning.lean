import FacetedSearch.Config.Merge
import FacetedSearch.Text.Blank

/-!
# Warnings about a configuration

A configuration can be used and still be wrong: it may name no fields for a category, or settings
that cannot work together. Each such thing is a warning.
-/

namespace FacetedSearch.Config

/-- Something that is likely to be a mistake. -/
inductive Warning where
  /-- There is no settings file. -/
  | noConfigFiles
  /-- A section gives a category no fields but blank ones. -/
  | emptyFieldList (sectionName : String) (category : Category)
  /-- A category is omitted and has fields. -/
  | omittedCategoryConfigured (category : Category)
  /-- The map filter is on, but the index has no cells. -/
  | spatialWithoutGeohashes
  /-- Cells are dropped only behind the point where requests fail already. -/
  | geohashLimitAboveUrlLimit (geohashQueryLimit urlLengthLimit : Nat)
  deriving DecidableEq, Repr

namespace Warning

/-- The name of the kind of warning. -/
def kind : Warning → String
  | noConfigFiles => "NoConfigFiles"
  | emptyFieldList .. => "EmptyFieldList"
  | omittedCategoryConfigured _ => "OmittedCategoryConfigured"
  | spatialWithoutGeohashes => "SpatialWithoutGeohashes"
  | geohashLimitAboveUrlLimit .. => "GeohashLimitAboveUrlLimit"

/-- The warning in words. -/
def message : Warning → String
  | noConfigFiles => "no .sift.toml found, using built-in defaults"
  | emptyFieldList sectionName c => "[" ++ sectionName ++ "] maps '" ++ c.name ++ "' to no fields"
  | omittedCategoryConfigured c =>
    "'" ++ c.name ++ "' is omitted from the deployment but has field overrides"
  | spatialWithoutGeohashes =>
    "spatial_enabled is set but 'geohashes' is omitted from the deployment"
  | geohashLimitAboveUrlLimit geohashQueryLimit urlLengthLimit =>
    "geohash_query_limit (" ++ toString geohashQueryLimit ++ ") exceeds url_length_limit ("
      ++ toString urlLengthLimit ++ ")"

end Warning

/-- The categories of a section that are given no fields. -/
def emptyLists (sectionName : String) (t : Category.Table (List String)) : List Warning :=
  t.entries.filterMap fun (c, fields) =>
    if fields.all fun field => (Text.trim field).isEmpty then some (.emptyFieldList sectionName c)
    else none

/-- Everything that is likely to be a mistake. -/
def Deployment.warnings (d : Deployment) : List Warning :=
  (if d.files.isEmpty then [.noConfigFiles] else [])
    ++ emptyLists "fields" d.fields ++ emptyLists "facets" d.facets
    ++ (d.omitted.filter fun category =>
        d.fields.contains category || d.facets.contains category).map .omittedCategoryConfigured
    ++ (if d.settings.spatialEnabled && d.omitted.contains .geohashes then
        [.spatialWithoutGeohashes] else [])
    ++ (if d.settings.disableQueryPosts &&
          d.settings.urlLengthLimit < d.settings.geohashQueryLimit then
        [.geohashLimitAboveUrlLimit d.settings.geohashQueryLimit d.settings.urlLengthLimit]
        else [])

end FacetedSearch.Config
