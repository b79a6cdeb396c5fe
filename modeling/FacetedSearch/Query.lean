import FacetedSearch.Catalog
import FacetedSearch.Clause.Basic
import FacetedSearch.Decimal.Layout
import FacetedSearch.Geohash.Clause
import FacetedSearch.Settings
import FacetedSearch.State

/-!
# Compiling a query

A query asks for the documents that match every filter of a session. Each category contributes its
clauses, and the clauses are joined by `AND` in a fixed order of categories, so a state has one
query however it came about. Compiling never fails: a value that cannot be used contributes
nothing.

A query can be compiled for a single category, its *scope*. Without a scope the active categories
contribute; with a scope, only that category does, and it does so with its default as well.

The map filter stands near the end of the query, and where only GET requests are possible it is
cut so that the query does not get too long.
-/

namespace FacetedSearch

open Category

/-- A compiled query. -/
structure Query where
  /-- The text; it is empty when no filter applies. -/
  text : String
  /-- Cells of the map were dropped. -/
  truncated : Bool
  deriving DecidableEq, Repr

namespace Query

/-- What a query is compiled from. -/
structure Source where
  state : State
  catalog : Catalog
  settings : Settings
  /-- The only category to be compiled, if there is one. -/
  scope : Option Category := none

/-- What stands between the clauses of a query. -/
def separator : String := " AND "

/-- The categories in front of the map filter, in the order of their clauses. -/
def leading : List Category :=
  [annotations, identifier, resourceMap, documents, username, idOnly, taxon, pubYear, dataYear,
    dataSource, exclude, additionalCriteria, fullText, dataAttribute, formatType, rightsHolder,
    submitter]

/-- The categories behind the map filter. -/
def trailing : List Category :=
  [spatial, creator]

/-- The range of publication dates of some years. -/
def yearRange (first last : String) : String :=
  "[" ++ first ++ "-01-01T00:00:00Z TO " ++ last ++ "-12-31T00:00:00Z]"

/-- The two fields that tell the time the data cover. -/
def coverageFields : List String → String × String
  | first :: last :: _ => (first, last)
  | _ => ("beginDate", "endDate")

namespace Source

/-- The category contributes: it is available and, without a scope, active; with a scope, it is the
scope and holds something. -/
def wants (q : Source) (c : Category) : Bool :=
  q.state.isAvailable c &&
    match q.scope with
    | none => q.state.isActive c
    | some scope => scope == c && (q.state.get? c).any (!·.isEmpty)

/-- The options of clauses. -/
def options (q : Source) : ClauseOptions :=
  { encoding := q.settings.encoding }

/-- Annotations: any of them, always in quotes. -/
def annotationClause (q : Source) : String :=
  Clause.oneField { q.options with forceQuotes := true } (q.catalog.fieldOf annotations)
    (q.state.values annotations)

/-- Identifiers: any of them, as a part of any identifier field; a single text is looked for in the
first field only. -/
def identifierClause (q : Source) : String :=
  match q.state.get? identifier with
  | some (.values vs) =>
    Clause.ofFields { q.options with subtext := true } (q.catalog.fieldsOf identifier) vs
  | some (.text t) =>
    let t := Text.trim t
    if t.isEmpty then ""
    else
      q.catalog.fieldOf identifier ++ ":*" ++ q.settings.encoding.encodeEscaped t ++ "*"
  | _ => ""

/-- Any of the given values, or any value at all. -/
def presenceClause (q : Source) (c : Category) : String :=
  match q.state.get? c with
  | some (.values vs) => Clause.oneField q.options (q.catalog.fieldOf c) vs
  | some (.flag true) => q.catalog.fieldOf c ++ ":*"
  | _ => ""

/-- Any of the values in any of the fields. -/
def anyFieldClause (q : Source) (c : Category) : String :=
  Clause.ofFields q.options (q.catalog.fieldsOf c) (q.state.values c)

/-- Each term as a part of some rank. The terms stand next to each other. -/
def taxonClause (q : Source) : String :=
  String.join ((q.state.values taxon).map fun term =>
    Clause.ofFields { q.options with subtext := true } (q.catalog.fieldsOf taxon) [term])

/-- The first and the last year, as they stand in a range. -/
def years? (q : Source) : Option (String × String) := do
  let first ← q.state.number? yearMin
  let last ← q.state.number? yearMax
  return (first.toText, last.toText)

/-- Publication within the years, by any of the fields. -/
def pubYearClause (q : Source) : String :=
  match q.years? with
  | some (first, last) =>
    if q.state.flag pubYear then
      Clause.group .or ((q.catalog.fieldsOf pubYear).map (· ++ ":" ++ yearRange first last))
    else ""
  | none => ""

/-- Data that begin in or after the first year and end in or before the last. -/
def dataYearClause (q : Source) : String :=
  match q.years? with
  | some (first, last) =>
    if q.state.flag dataYear then
      let (beginField, endField) := coverageFields (q.catalog.fieldsOf dataYear)
      beginField ++ ":[" ++ first ++ "-01-01T00:00:00Z TO *] AND " ++ endField ++ ":[* TO " ++ last
        ++ "-12-31T00:00:00Z]"
    else ""
  | none => ""

/-- Any of the data sources, with the described ones first. -/
def dataSourceClause (q : Source) : String :=
  let vs := q.state.values dataSource
  Clause.oneField q.options (q.catalog.fieldOf dataSource)
    (vs.filter (·.isDescribed) ++ vs.filter (!·.isDescribed))

/-- What is taken out of the results, each as a clause. -/
def excludeClauses (q : Source) : List String :=
  q.state.exclusions.filterMap fun e =>
    (Clause.formatValue q.options e.value).map fun value => " -" ++ e.field ++ ":" ++ value

/-- Fragments of query text, without a field. -/
def criteriaClauses (q : Source) : List String :=
  (((q.state.values additionalCriteria).map fun v => Text.trim v.text).filter (!·.isEmpty)).map
    q.settings.encoding.encodeEscaped

/-- Full-text terms, without a field. -/
def fullTextClauses (q : Source) : List String :=
  Clause.formatValues q.options (q.state.values fullText)

/-- A clause for each value. -/
def eachValueClauses (q : Source) (c : Category) : List String :=
  (Clause.formatValues q.options (q.state.values c)).map (q.catalog.fieldOf c ++ ":" ++ ·)

/-- All of the values, or a single text. -/
def allValuesClause (q : Source) (c : Category) : String :=
  match q.state.get? c with
  | some (.values vs) =>
    Clause.ofFields { q.options with operator := .and } (q.catalog.fieldsOf c) vs
  | some (.text t) =>
    match Clause.formatValue q.options t with
    | some value => q.catalog.fieldOf c ++ ":" ++ value
    | none => ""
  | _ => ""

/-- The clauses of a category other than the map filter, before it is known whether it
contributes. -/
def clausesOf (q : Source) (c : Category) : List String :=
  match c with
  | .annotations => [q.annotationClause]
  | .identifier => [q.identifierClause]
  | .resourceMap | .documents => [q.presenceClause c]
  | .username | .idOnly => [q.anyFieldClause c]
  | .taxon => [q.taxonClause]
  | .pubYear => [q.pubYearClause]
  | .dataYear => [q.dataYearClause]
  | .dataSource => [q.dataSourceClause]
  | .exclude => q.excludeClauses
  | .additionalCriteria => q.criteriaClauses
  | .fullText => q.fullTextClauses
  | .dataAttribute | .formatType | .rightsHolder | .submitter => q.eachValueClauses c
  | .spatial | .creator => [q.allValuesClause c]
  | _ => []

/-- What a category contributes: its clauses that are not empty, if it contributes. -/
def contribution (q : Source) (c : Category) : List String :=
  if q.wants c then (q.clausesOf c).filter (!·.isEmpty) else []

/-- The clauses in front of the map filter. -/
def leadingClauses (q : Source) : List String :=
  leading.flatMap q.contribution

/-- The clauses behind the map filter. -/
def trailingClauses (q : Source) : List String :=
  trailing.flatMap q.contribution

/-- The number of bytes in front of the next clause, with the separator before it. -/
def lengthBefore : List String → Nat
  | [] => 0
  | clause :: rest => Text.size clause + Text.size separator + lengthBefore rest

/-- The map filter contributes. -/
def wantsMap (q : Source) : Bool :=
  q.settings.spatialEnabled && q.wants geohashes && q.state.flag useGeohash && q.state.hasGroups

/-- The limit on the map filter, where only GET requests are possible. -/
def mapBudget (q : Source) : Option Geohash.Budget :=
  if q.settings.disableQueryPosts then
    some { offset := lengthBefore q.leadingClauses, limit := q.settings.geohashQueryLimit }
  else none

/-- The clause of the map filter. -/
def mapClause (q : Source) : Geohash.MapClause :=
  if q.wantsMap then Geohash.mapClause q.state.groups q.mapBudget
  else { text := "", truncated := false }

/-- Every clause of the query, in order. -/
def clauses (q : Source) : List String :=
  q.leadingClauses ++ [q.mapClause.text].filter (!·.isEmpty) ++ q.trailingClauses

end Source

/-- Compile a query. -/
def compile (q : Source) : Query where
  text := separator.intercalate q.clauses
  truncated := q.mapClause.truncated

end Query

end FacetedSearch
