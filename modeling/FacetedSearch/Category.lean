/-!
# Filter categories

The categories of a search session, each with the name it has in state documents. The order of the
list is the order in which a session reports its filters.
-/

namespace FacetedSearch

/-- A category of filters. -/
inductive Category where
  /-- Full-text terms, without a field. -/
  | fullText
  /-- Creators of a data set. -/
  | creator
  /-- Taxonomic names, matched at every rank. -/
  | taxon
  /-- Results that document data, or chosen data objects. -/
  | documents
  /-- Results in a package, or chosen packages. -/
  | resourceMap
  /-- The first year of the year range. -/
  | yearMin
  /-- The last year of the year range. -/
  | yearMax
  /-- The year range applies to publication. -/
  | pubYear
  /-- The year range applies to the time the data cover. -/
  | dataYear
  /-- The order of the results. -/
  | sortOrder
  /-- Sorting by popularity is offered. -/
  | sortByReads
  /-- The eastern edge of the map. -/
  | east
  /-- The western edge of the map. -/
  | west
  /-- The northern edge of the map. -/
  | north
  /-- The southern edge of the map. -/
  | south
  /-- The map filter applies. -/
  | useGeohash
  /-- The geohash cells in view. -/
  | geohashes
  /-- The precision of the map. -/
  | geohashLevel
  /-- The cells in view, grouped into tiles. -/
  | geohashGroups
  /-- Where the data come from. -/
  | dataSource
  /-- Accounts, matched against every permission. -/
  | username
  /-- Accounts that hold the rights. -/
  | rightsHolder
  /-- Accounts that submitted the data. -/
  | submitter
  /-- Names of places. -/
  | spatial
  /-- Names of data attributes. -/
  | dataAttribute
  /-- The field of semantic annotations, as a setting of its own. -/
  | semAnnotations
  /-- Semantic annotations. -/
  | annotations
  /-- Fragments of query text. -/
  | additionalCriteria
  /-- Identifiers, matched in every identifier field. -/
  | identifier
  /-- Identifiers of series. -/
  | seriesId
  /-- Identifiers, matched as document or series identifiers only. -/
  | idOnly
  /-- Provenance fields to be returned. -/
  | provFields
  /-- Types of format. -/
  | formatType
  /-- What is taken out of the results. -/
  | exclude
  deriving DecidableEq, Repr

namespace Category

/-- Every category, in order. -/
def all : List Category :=
  [fullText, creator, taxon, documents, resourceMap, yearMin, yearMax, pubYear, dataYear, sortOrder,
    sortByReads, east, west, north, south, useGeohash, geohashes, geohashLevel, geohashGroups,
    dataSource, username, rightsHolder, submitter, spatial, dataAttribute, semAnnotations,
    annotations, additionalCriteria, identifier, seriesId, idOnly, provFields, formatType, exclude]

/-- The categories of the map filter. -/
def mapCategories : List Category :=
  [useGeohash, geohashes, geohashLevel, geohashGroups, east, west, north, south]

/-- The category belongs to the map filter. -/
def isSpatial (c : Category) : Bool :=
  mapCategories.contains c

/-- The name of a category in documents and settings. -/
def name : Category → String
  | fullText => "all"
  | creator => "creator"
  | taxon => "taxon"
  | documents => "documents"
  | resourceMap => "resourceMap"
  | yearMin => "yearMin"
  | yearMax => "yearMax"
  | pubYear => "pubYear"
  | dataYear => "dataYear"
  | sortOrder => "sortOrder"
  | sortByReads => "sortByReads"
  | east => "east"
  | west => "west"
  | north => "north"
  | south => "south"
  | useGeohash => "useGeohash"
  | geohashes => "geohashes"
  | geohashLevel => "geohashLevel"
  | geohashGroups => "geohashGroups"
  | dataSource => "dataSource"
  | username => "username"
  | rightsHolder => "rightsHolder"
  | submitter => "submitter"
  | spatial => "spatial"
  | dataAttribute => "attribute"
  | semAnnotations => "sem_annotation"
  | annotations => "annotation"
  | additionalCriteria => "additionalCriteria"
  | identifier => "id"
  | seriesId => "seriesId"
  | idOnly => "idOnly"
  | provFields => "provFields"
  | formatType => "formatType"
  | exclude => "exclude"

/-- The other name of `geohashes`. -/
def geohashAlias : String := "geohash"

/-- Read the name of a category, or the other name of `geohashes`. -/
def ofName? (name : String) : Option Category :=
  if name = geohashAlias then some geohashes else all.find? (·.name = name)

theorem mem_all (c : Category) : c ∈ all := by
  cases c <;> decide

theorem all_nodup : all.Nodup := by
  decide

@[simp] theorem ofName?_name (c : Category) : ofName? c.name = some c := by
  cases c <;> decide

/-- No two categories have the same name. -/
@[simp] theorem name_inj {c d : Category} : c.name = d.name ↔ c = d := by
  refine ⟨fun h => ?_, congrArg name⟩
  have hread := congrArg ofName? h
  rwa [ofName?_name, ofName?_name, Option.some.injEq] at hread

theorem ofName?_geohashAlias : ofName? geohashAlias = some geohashes := rfl

end Category

end FacetedSearch
