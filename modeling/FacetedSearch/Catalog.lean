import FacetedSearch.Category.Table

/-!
# The field catalog

Which fields of the index a category is searched in, which fields its facets are counted in, and
what it is called on screen. A category without an entry is searched in the field of its own name
and called by that name; a facet without an entry is a field of the index already.
-/

namespace FacetedSearch

/-- Fields and labels of categories. -/
structure Catalog where
  fields : Category.Table (List String)
  facets : Category.Table (List String)
  labels : Category.Table String

namespace Catalog

/-- The fields of taxonomic ranks, broadest first. -/
def taxonRanks : List String :=
  ["kingdom", "phylum", "class", "order", "family", "genus", "species"]

/-- The fields of the standard index. -/
def standardFields : List (Category × List String) :=
  [(.dataAttribute, ["attribute"]), (.annotations, ["sem_annotation"]),
    (.dataSource, ["datasource"]), (.documents, ["documents"]), (.formatType, ["formatType"]),
    (.fullText, [""]), (.creator, ["originText"]), (.spatial, ["siteText"]),
    (.resourceMap, ["resourceMap"]), (.pubYear, ["datePublished", "dateUploaded"]),
    (.dataYear, ["beginDate", "endDate"]),
    (.identifier, ["id", "identifier", "documents", "resourceMap", "seriesId"]),
    (.idOnly, ["id", "seriesId"]), (.rightsHolder, ["rightsHolder"]),
    (.submitter, ["submitter"]),
    (.username, ["rightsHolder", "writePermission", "changePermission"]), (.taxon, taxonRanks)]

/-- The facet fields of the standard index. -/
def standardFacets : List (Category × List String) :=
  [(.creator, ["origin"]), (.dataAttribute, ["attribute"]), (.annotations, ["sem_annotation"]),
    (.spatial, ["site"]), (.taxon, taxonRanks), (.fullText, ["keywords"])]

/-- What the categories are called on screen. -/
def standardLabels : List (Category × String) :=
  [(.dataAttribute, "Data attribute"), (.documents, "Only results with data"),
    (.annotations, "Annotation"), (.dataSource, "Data source"), (.creator, "Creator"),
    (.dataYear, "Data coverage"), (.pubYear, "Publish year"), (.identifier, "Identifier"),
    (.seriesId, "seriesId"), (.taxon, "Taxon"), (.spatial, "Location"), (.fullText, "")]

/-- The catalog of the standard index. -/
def standard : Catalog where
  fields := .ofList standardFields
  facets := .ofList standardFacets
  labels := .ofList standardLabels

/-- The fields that a category is searched in; there is at least one. -/
def fieldsOf (k : Catalog) (c : Category) : List String :=
  match k.fields.get? c with
  | some (field :: more) => field :: more
  | _ => [c.name]

/-- The first field that a category is searched in. -/
def fieldOf (k : Catalog) (c : Category) : String :=
  match k.fields.get? c with
  | some (field :: _) => field
  | _ => c.name

/-- The facet fields of a name: those of the category with this name, or the name itself. -/
def facetFields (k : Catalog) (name : String) : List String :=
  match (Category.ofName? name).bind k.facets.get? with
  | some (field :: more) => field :: more
  | _ => [name]

/-- What a category is called on screen. -/
def labelOf (k : Catalog) (c : Category) : String :=
  (k.labels.get? c).getD c.name

theorem fieldsOf_ne_nil (k : Catalog) (c : Category) : k.fieldsOf c ≠ [] := by
  unfold fieldsOf
  split <;> exact List.cons_ne_nil _ _

/-- Put new fields in place of those of a category. -/
def setFields (k : Catalog) (c : Category) (fields : List String) : Catalog :=
  { k with fields := k.fields.insert c fields }

/-- Put new facet fields in place of those of a category. -/
def setFacets (k : Catalog) (c : Category) (fields : List String) : Catalog :=
  { k with facets := k.facets.insert c fields }

/-- Put a new label in place of that of a category. -/
def setLabel (k : Catalog) (c : Category) (label : String) : Catalog :=
  { k with labels := k.labels.insert c label }

/-- The fields that tell where a document comes from, returned with every result. -/
def provenanceFields : List String :=
  ["prov_generated", "prov_generatedByDataONEDN", "prov_generatedByExecution",
    "prov_generatedByFoafName", "prov_generatedByOrcid", "prov_generatedByProgram",
    "prov_generatedByUser", "prov_hasDerivations", "prov_hasSources", "prov_instanceOfClass",
    "prov_used", "prov_usedByDataONEDN", "prov_usedByExecution", "prov_usedByFoafName",
    "prov_usedByOrcid", "prov_usedByProgram", "prov_usedByUser", "prov_wasDerivedFrom",
    "prov_wasExecutedByExecution", "prov_wasExecutedByUser", "prov_wasGeneratedBy",
    "prov_wasInformedBy"]

/-- The provenance fields as one text. -/
def provenanceFieldList : String :=
  ",".intercalate provenanceFields

end Catalog

end FacetedSearch
