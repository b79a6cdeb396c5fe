import FacetedSearch.Query
import Mathlib.Data.List.Basic

/-!
# What a query reads

The clauses of a category are made of its own slot, and those of a year flag of the two years as
well. So two sessions have the same query when the same categories contribute in both and the
slots behind each contribution agree.
-/

namespace FacetedSearch.Query

open Category

/-- The categories whose slots the clauses of a category are made of. -/
def readBy : Category → List Category
  | pubYear => [pubYear, yearMin, yearMax]
  | dataYear => [dataYear, yearMin, yearMax]
  | c => [c]

theorem mem_readBy_self (c : Category) : c ∈ readBy c := by
  cases c <;> decide

/-- Beside its own slot, only the years are read for a category. -/
theorem eq_or_year_of_mem_readBy {c d : Category} (h : d ∈ readBy c) :
    d = c ∨ d = yearMin ∨ d = yearMax := by
  unfold readBy at h
  split at h
  · simpa using h
  · simpa using h
  · exact Or.inl (List.mem_singleton.mp h)

namespace Source

variable {q r : Source}

theorem years?_congr (first : q.state.get? yearMin = r.state.get? yearMin)
    (last : q.state.get? yearMax = r.state.get? yearMax) : q.years? = r.years? := by
  simp only [years?, State.number?, first, last]

/-- The clauses of a category are the same over equal slots of the categories that they are made
of. -/
theorem clausesOf_congr_slots {c : Category} (catalog : q.catalog = r.catalog)
    (encoding : q.settings.encoding = r.settings.encoding)
    (slots : ∀ d ∈ readBy c, q.state.get? d = r.state.get? d) : q.clausesOf c = r.clausesOf c := by
  have options : q.options = r.options := by
    rw [Source.options, Source.options, encoding]
  have slot : q.state.get? c = r.state.get? c := slots c (mem_readBy_self c)
  have values : q.state.values c = r.state.values c := by
    rw [State.values, State.values, slot]
  have flag : q.state.flag c = r.state.flag c := by
    rw [State.flag, State.flag, slot]
  cases c with
  | pubYear =>
      have years : q.years? = r.years? :=
        years?_congr (slots yearMin (by decide)) (slots yearMax (by decide))
      simp only [clausesOf, pubYearClause, years, flag, catalog]
  | dataYear =>
      have years : q.years? = r.years? :=
        years?_congr (slots yearMin (by decide)) (slots yearMax (by decide))
      simp only [clausesOf, dataYearClause, years, flag, catalog]
  | exclude => simp only [clausesOf, excludeClauses, State.exclusions, slot, options]
  | _ =>
      simp only [clausesOf, annotationClause, identifierClause, presenceClause, anyFieldClause,
        taxonClause, dataSourceClause, criteriaClauses, fullTextClauses, eachValueClauses,
        allValuesClause, slot, values, options, catalog, encoding]

/-- Whether a category contributes is told by its own slot, over the same defaults. -/
theorem wants_congr {c : Category} (defaults : q.state.defaults = r.state.defaults)
    (scope : q.scope = r.scope) (slot : q.state.get? c = r.state.get? c) :
    q.wants c = r.wants c := by
  simp only [wants, State.isAvailable, State.isActive, State.isChanged, defaults, scope, slot]

theorem contribution_eq_nil {c : Category} (h : q.wants c = false) : q.contribution c = [] := by
  rw [contribution, if_neg (by simp [h])]

/-- A category contributes the same when it contributes in both queries or in neither, and the
slots that it reads agree when it does. -/
theorem contribution_congr {c : Category} (catalog : q.catalog = r.catalog)
    (encoding : q.settings.encoding = r.settings.encoding) (wants : q.wants c = r.wants c)
    (slots : r.wants c = true → ∀ d ∈ readBy c, q.state.get? d = r.state.get? d) :
    q.contribution c = r.contribution c := by
  cases hwants : r.wants c with
  | false => rw [contribution_eq_nil (wants.trans hwants), contribution_eq_nil hwants]
  | true =>
      rw [contribution, contribution, wants,
        clausesOf_congr_slots catalog encoding (slots hwants)]

theorem mapClause_of_not_wantsMap (h : q.wantsMap = false) :
    q.mapClause = { text := "", truncated := false } := by
  rw [mapClause, if_neg (by simp [h])]

theorem clauses_of_not_wantsMap (h : q.wantsMap = false) :
    q.clauses = q.leadingClauses ++ q.trailingClauses := by
  rw [clauses, mapClause_of_not_wantsMap h]
  simp

end Source

/-- Two queries are the same when every category contributes the same to both and the map filter
applies to both or to neither, over the same groups when it does. -/
theorem compile_congr {q r : Source} (settings : q.settings = r.settings)
    (contributions : ∀ c ∈ leading ++ trailing, q.contribution c = r.contribution c)
    (map : q.wantsMap = r.wantsMap)
    (groups : r.wantsMap = true → q.state.groups = r.state.groups) : compile q = compile r := by
  have hleading : q.leadingClauses = r.leadingClauses :=
    List.flatMap_congr fun c hc => contributions c (List.mem_append_left _ hc)
  have htrailing : q.trailingClauses = r.trailingClauses :=
    List.flatMap_congr fun c hc => contributions c (List.mem_append_right _ hc)
  have hbudget : q.mapBudget = r.mapBudget := by
    rw [Source.mapBudget, Source.mapBudget, hleading, settings]
  have hmap : q.mapClause = r.mapClause := by
    cases happlies : r.wantsMap with
    | false =>
        rw [Source.mapClause_of_not_wantsMap (map.trans happlies),
          Source.mapClause_of_not_wantsMap happlies]
    | true => rw [Source.mapClause, Source.mapClause, map, hbudget, groups happlies]
  rw [compile, compile, Source.clauses, Source.clauses, hleading, htrailing, hmap]

/-- A query to which nothing contributes is empty. -/
theorem compile_eq_empty {q : Source} (silent : ∀ c ∈ leading ++ trailing, q.wants c = false)
    (noMap : q.wantsMap = false) : compile q = { text := "", truncated := false } := by
  have hnil : ∀ cs ⊆ leading ++ trailing, cs.flatMap q.contribution = [] := by
    intro cs hcs
    rw [List.flatMap_eq_nil_iff]
    exact fun c hc => Source.contribution_eq_nil (silent c (hcs hc))
  have hclauses : q.clauses = [] := by
    rw [Source.clauses_of_not_wantsMap noMap, Source.leadingClauses, Source.trailingClauses,
      hnil leading (List.subset_append_left _ _), hnil trailing (List.subset_append_right _ _),
      List.append_nil]
  rw [compile, hclauses, Source.mapClause_of_not_wantsMap noMap, String.intercalate_nil]

end FacetedSearch.Query
