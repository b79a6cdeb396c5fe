import FacetedSearch.Facets
import Mathlib.Data.List.Basic

/-!
# Facet requests with names and without

A request without names can be spelled out: the default names, then the name of the annotation
category and the names for data attributes, where these are available. The request without names
does not always ask for the same. It puts the facet fields of annotations in place of their category
and then reads the whole text as names, so that a field with a comma or with blanks is taken apart,
and one that is the name of a category is expanded once more. Both requests agree exactly when this
second reading leaves the facet fields of annotations as they are.
-/

namespace FacetedSearch.Facets

open Category

/-- The facet fields of annotations. -/
def annotationFields (catalog : Catalog) : List String :=
  catalog.facetFields annotations.name

/-- The names that a request without names stands for, as one text. -/
def spelledRequest (availability : Defaults) : String :=
  defaultList ++
    (if availability.contains .annotations then "," ++ annotations.name else "") ++
    (if availability.contains .dataAttribute then "," ++ ",".intercalate attributeNames else "")

/-- A name that stands for itself in a request: it has no blanks at its ends and no commas, and it
is not the name of a category with other facet fields. -/
structure StandsForItself (catalog : Catalog) (name : String) : Prop where
  ne_empty : name ≠ ""
  trimmed : Text.trim name = name
  undivided : ',' ∉ name.toList
  facetFields_eq : catalog.facetFields name = [name]

variable {name : String} {names : List String}

/-! ## Texts of names -/

theorem splitNames_append (s t : String) :
    splitNames (s ++ "," ++ t) = splitNames s ++ splitNames t := by
  have htext : (s ++ "," ++ t).toList = s.toList ++ ',' :: t.toList := by
    simp
  rw [splitNames, htext, List.splitOn_append_cons_self, List.map_append]
  rfl

theorem requestFields_append (catalog : Catalog) (s t : String) :
    requestFields catalog (s ++ "," ++ t) =
      requestFields catalog s ++ requestFields catalog t := by
  simp only [requestFields, splitNames_append, List.map_append, List.filter_append,
    List.flatMap_append]

/-- More names behind a text are read on their own. -/
theorem requestFields_append_if (catalog : Catalog) (s t : String) (more : Bool) :
    requestFields catalog (s ++ if more then "," ++ t else "") =
      requestFields catalog s ++ if more then requestFields catalog t else [] := by
  cases more with
  | false => simp
  | true => rw [if_pos rfl, if_pos rfl, ← String.append_assoc, requestFields_append]

/-- Names that are joined by commas are read one by one. -/
theorem requestFields_intercalate (catalog : Catalog) (filled : names ≠ []) :
    requestFields catalog (",".intercalate names) = names.flatMap (requestFields catalog) := by
  induction names with
  | nil => exact absurd rfl filled
  | cons name rest ih =>
      by_cases hrest : rest = []
      · simp [hrest]
      · rw [String.intercalate_cons_of_ne_nil hrest, requestFields_append, ih hrest,
          List.flatMap_cons]

/-- A name without commas and without blanks at its ends is expanded once. -/
theorem requestFields_of_undivided (catalog : Catalog) (filled : name ≠ "")
    (trimmed : Text.trim name = name) (undivided : ',' ∉ name.toList) :
    requestFields catalog name = catalog.facetFields name := by
  have hsplit : splitNames name = [name] := by
    rw [splitNames, List.splitOn_eq_singleton undivided, List.map_singleton, String.ofList_toList]
  simp [requestFields, hsplit, trimmed, filled]

theorem requestFields_annotations (catalog : Catalog) :
    requestFields catalog annotations.name = annotationFields catalog :=
  requestFields_of_undivided catalog (by decide) (by decide +kernel) (by decide)

/-! ## The two requests -/

/-- The spelled request has the facet fields of annotations as the catalog lists them. -/
theorem fieldsFor_spelledRequest (catalog : Catalog) (availability : Defaults) :
    fieldsFor catalog availability (some (spelledRequest availability)) =
      requestFields catalog defaultList ++
        (if availability.contains .annotations then annotationFields catalog else []) ++
        if availability.contains .dataAttribute then
          requestFields catalog (",".intercalate attributeNames) else [] := by
  rw [fieldsFor, Option.getD_some, spelledRequest, requestFields_append_if,
    requestFields_append_if, requestFields_annotations]

/-- The request without names reads them as names again. -/
theorem fieldsFor_none (catalog : Catalog) (availability : Defaults) :
    fieldsFor catalog availability none =
      requestFields catalog defaultList ++
        (if availability.contains .annotations then
          (annotationFields catalog).flatMap (requestFields catalog) else []) ++
        if availability.contains .dataAttribute then
          requestFields catalog (",".intercalate attributeNames) else [] := by
  have hdefaults : defaultNames ≠ [] := by
    decide
  have hattributes : attributeNames ≠ [] := by
    decide
  have hrequest : defaultRequest catalog availability = ",".intercalate (defaultNames ++
      (if availability.contains .annotations then annotationFields catalog else []) ++
      if availability.contains .dataAttribute then attributeNames else []) := rfl
  rw [fieldsFor, Option.getD_none, hrequest,
    requestFields_intercalate catalog (by simp [hdefaults]), List.flatMap_append,
    List.flatMap_append, defaultList,
    requestFields_intercalate catalog hdefaults, requestFields_intercalate catalog hattributes]
  congr 1
  · congr 1
    split <;> simp
  · split <;> simp

/-- The two requests can differ in the facet fields of annotations only. -/
theorem fieldsFor_none_eq_iff (catalog : Catalog) (availability : Defaults) :
    fieldsFor catalog availability none =
        fieldsFor catalog availability (some (spelledRequest availability)) ↔
      (availability.contains .annotations = true →
        (annotationFields catalog).flatMap (requestFields catalog) = annotationFields catalog) := by
  rw [fieldsFor_none, fieldsFor_spelledRequest, List.append_left_inj, List.append_right_inj]
  cases availability.contains .annotations <;> simp

/-- A request without names asks for the same fields as the names it stands for exactly when
reading the facet fields of annotations as names gives them back, or annotations are not available.
That is so when each of these fields stands for itself. -/
theorem fieldsFor_none_eq_spelled_iff (catalog : Catalog) (availability : Defaults) :
    (fieldsFor catalog availability none =
        fieldsFor catalog availability (some (spelledRequest availability)) ↔
      (availability.contains .annotations = true →
        (annotationFields catalog).flatMap (requestFields catalog) =
          annotationFields catalog)) ∧
      ((∀ name ∈ annotationFields catalog, StandsForItself catalog name) →
        fieldsFor catalog availability none =
          fieldsFor catalog availability (some (spelledRequest availability))) := by
  refine ⟨fieldsFor_none_eq_iff catalog availability, ?_⟩
  intro h
  rw [fieldsFor_none_eq_iff]
  intro _
  have hsame : ∀ name ∈ annotationFields catalog, requestFields catalog name = [name] := by
    intro name hname
    obtain ⟨filled, trimmed, undivided, heq⟩ := h name hname
    rw [requestFields_of_undivided catalog filled trimmed undivided, heq]
  rw [List.flatMap_congr hsame, List.flatMap_singleton']

/-- A facet field of annotations that is the name of a category is expanded once more. -/
theorem default_request_expands_twice :
    ¬ ∀ (catalog : Catalog) (availability : Defaults),
        fieldsFor catalog availability none =
          fieldsFor catalog availability (some (spelledRequest availability)) := by
  intro h
  let catalog := Catalog.standard.setFacets .annotations ["creator"]
  have hsame : (annotationFields catalog).flatMap (requestFields catalog) =
      annotationFields catalog :=
    (fieldsFor_none_eq_iff catalog (.forYear 2024)).mp (h catalog (.forYear 2024)) (by decide)
  revert hsame
  decide +kernel

end FacetedSearch.Facets
