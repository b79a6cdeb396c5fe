import FacetedSearch.Catalog
import FacetedSearch.Defaults
import FacetedSearch.Text.Blank

/-!
# Facet requests

A facet request asks the index to count the values of some fields. It is a list of parameters: the
controls, which never change, and then one parameter for each field.
-/

namespace FacetedSearch.Facets

open Category

/-- The names asked for when none are given. -/
def defaultNames : List String :=
  ["keywords", "origin", "family", "species", "genus", "kingdom", "phylum", "order", "class",
    "site"]

/-- The names asked for when none are given, as one text. -/
def defaultList : String :=
  ",".intercalate defaultNames

/-- The parameters that stand in front of every request. -/
def controls : List (String × String) :=
  [("facet", "true"), ("facet.sort", "count"), ("facet.mincount", "1"), ("facet.limit", "-1")]

/-- The names for data attributes, which the defaults include where the category is available. -/
def attributeNames : List String :=
  ["attributeName", "attributeLabel"]

/-- The text that stands for a request without names: the default names, the facet fields of
annotations, and the names for data attributes. -/
def defaultRequest (catalog : Catalog) (availability : Defaults) : String :=
  let annotations :=
    if availability.contains .annotations then catalog.facetFields annotations.name else []
  let attributes := if availability.contains .dataAttribute then attributeNames else []
  ",".intercalate (defaultNames ++ annotations ++ attributes)

/-- The parts of a text between commas. -/
def splitNames (s : String) : List String :=
  (s.toList.splitOn ',').map String.ofList

/-- The fields of a request: each name stands for the facet fields it has in the catalog, and
blank names are left out. -/
def requestFields (catalog : Catalog) (names : String) : List String :=
  (((splitNames names).map Text.trim).filter (!·.isEmpty)).flatMap catalog.facetFields

/-- The fields to be counted, for names given as one text or for no names. -/
def fieldsFor (catalog : Catalog) (availability : Defaults) (names : Option String) :
    List String :=
  requestFields catalog (names.getD (defaultRequest catalog availability))

/-- The parameters of a request. -/
def parameters (fields : List String) : List (String × String) :=
  controls ++ fields.map ("facet.field", ·)

/-- The parameters as part of a URL, each behind an ampersand. -/
def queryText (fields : List String) : String :=
  String.join ((parameters fields).map fun (name, value) => "&" ++ name ++ "=" ++ value)

end FacetedSearch.Facets
