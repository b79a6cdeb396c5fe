import FacetedSearch.Proofs.Clause.Content
import FacetedSearch.Proofs.Query.Scope

/-!
# Queries over other spellings of the same values

The clauses of a category with a list are made of the content of its values. They take different
ways: one clause for all values or a clause for each, in one field, in several or in none, quoted or
not. Data sources are left out, because described ones stand in front of the others. A category
contributes by what is in its list, blank or not, but a list without content gives no clause that
is not empty, so in its own scope a category compiles to the same query whichever way its values are
spelled.
-/

namespace FacetedSearch.Query

open Category Clause FilterValue

namespace Source

variable {q r : Source} {c : Category} {vs ws : List FilterValue}

theorem flag_of_values (held : q.state.get? c = some (.values vs)) : q.state.flag c = false := by
  rw [State.flag, held]
  rfl

theorem pubYearClause_of_flag (h : q.state.flag pubYear = false) : q.pubYearClause = "" := by
  rw [pubYearClause]
  split
  · rw [h]
    rfl
  · rfl

theorem dataYearClause_of_flag (h : q.state.flag dataYear = false) : q.dataYearClause = "" := by
  rw [dataYearClause]
  split
  · rw [h]
    rfl
  · rfl

/-- The clauses of a category are the same over lists of the same content. -/
theorem clausesOf_congr_content (catalog : q.catalog = r.catalog)
    (encoding : q.settings.encoding = r.settings.encoding) (hc : c ≠ dataSource)
    (hq : q.state.get? c = some (.values vs)) (hr : r.state.get? c = some (.values ws))
    (same : content vs = content ws) : q.clausesOf c = r.clausesOf c := by
  have options : q.options = r.options := by
    rw [Source.options, Source.options, encoding]
  have hvs : q.state.values c = vs := by
    rw [State.values, hq]
  have hws : r.state.values c = ws := by
    rw [State.values, hr]
  cases c with
  | dataSource => exact absurd rfl hc
  | pubYear =>
      rw [clausesOf, clausesOf, pubYearClause_of_flag (flag_of_values hq),
        pubYearClause_of_flag (flag_of_values hr)]
  | dataYear =>
      rw [clausesOf, clausesOf, dataYearClause_of_flag (flag_of_values hq),
        dataYearClause_of_flag (flag_of_values hr)]
  | annotations =>
      simp only [clausesOf, annotationClause, hvs, hws, options, catalog, oneField_congr same]
  | identifier =>
      simp only [clausesOf, identifierClause, hq, hr, options, catalog, ofFields_congr same]
  | resourceMap | documents =>
      simp only [clausesOf, presenceClause, hq, hr, options, catalog, oneField_congr same]
  | username | idOnly =>
      simp only [clausesOf, anyFieldClause, hvs, hws, options, catalog, ofFields_congr same]
  | taxon =>
      simp only [clausesOf, taxonClause, hvs, hws, options, catalog, join_ofFields_congr same]
  | exclude => simp only [clausesOf, excludeClauses, State.exclusions, hq, hr, List.filterMap_nil]
  | additionalCriteria =>
      simp only [clausesOf, criteriaClauses, hvs, hws, encoding]
      rw [← content, ← content, same]
  | fullText =>
      simp only [clausesOf, fullTextClauses, hvs, hws, options, formatValues_congr same]
  | dataAttribute | formatType | rightsHolder | submitter =>
      simp only [clausesOf, eachValueClauses, hvs, hws, options, catalog, formatValues_congr same]
  | spatial | creator =>
      simp only [clausesOf, allValuesClause, hq, hr, options, catalog, ofFields_congr same]
  | _ => rfl

/-- An empty list has no clause that is not empty. -/
theorem clausesOf_of_no_values (held : q.state.get? c = some (.values [])) :
    (q.clausesOf c).filter (!·.isEmpty) = [] := by
  have hvalues : q.state.values c = [] := by
    rw [State.values, held]
  have hterms : ∀ options, formatValues options [] = [] := fun _ => rfl
  have hone : ∀ options field, oneField options field [] = "" := fun _ _ => rfl
  have hany : ∀ options fields, ofFields options fields [] = "" := fun _ _ => ofFields_of_nil rfl
  cases c with
  | pubYear => simp [clausesOf, pubYearClause_of_flag (flag_of_values held)]
  | dataYear => simp [clausesOf, dataYearClause_of_flag (flag_of_values held)]
  | _ =>
      simp [clausesOf, annotationClause, identifierClause, presenceClause, anyFieldClause,
        taxonClause, dataSourceClause, excludeClauses, State.exclusions, criteriaClauses,
        fullTextClauses, eachValueClauses, allValuesClause, held, hvalues, hterms, hone, hany,
        String.join]

/-- In its own scope a category with a list contributes what its clauses are, with the empty ones
left out: an empty list has none. -/
theorem contribution_of_values (scope : q.scope = some c)
    (held : q.state.get? c = some (.values vs)) :
    q.contribution c =
      if q.state.isAvailable c then (q.clausesOf c).filter (!·.isEmpty) else [] := by
  have hwants : q.wants c = (q.state.isAvailable c && !vs.isEmpty) := by
    simp [wants, scope, held, Slot.isEmpty]
  rw [contribution, hwants]
  cases vs with
  | nil => rw [clausesOf_of_no_values held]; simp
  | cons v vs => simp

end Source

/-- In the scope of a category that is neither the data sources nor the cells, the query does not
depend on the way the values of the category are spelled: blank values may be put in or left out,
values may have blanks around them, and any label or none. -/
theorem compile_respelled (state : State) (catalog : Catalog) (settings : Settings) {c : Category}
    (sources : c ≠ dataSource) (cells : c ≠ geohashes) {vs ws : List FilterValue}
    (held : state.get? c = some (.values vs)) (respelled : Respelled vs ws) :
    compile { state := state.put c (.values ws), catalog, settings, scope := some c } =
      compile { state, catalog, settings, scope := some c } := by
  let q : Source := { state := state.put c (.values ws), catalog, settings, scope := some c }
  let r : Source := { state, catalog, settings, scope := some c }
  have hq : q.state.get? c = some (.values ws) := by
    rw [State.get?_put, if_pos rfl]
  have hclauses : q.clausesOf c = r.clausesOf c :=
    Source.clausesOf_congr_content rfl rfl sources hq held respelled.content_eq.symm
  have other : ∀ d, d ≠ c → q.wants d = false ∧ r.wants d = false := fun d hd =>
    ⟨Source.wants_other_scope (q := q) hd, Source.wants_other_scope (q := r) hd⟩
  have noMap : q.wantsMap = false ∧ r.wantsMap = false := by
    obtain ⟨hqcells, hrcells⟩ := other geohashes cells.symm
    rw [Source.wantsMap, Source.wantsMap, hqcells, hrcells, Bool.and_false]
    exact ⟨rfl, rfl⟩
  refine compile_congr (q := q) (r := r) rfl ?_ (noMap.1.trans noMap.2.symm) ?_
  · intro d _
    by_cases hd : d = c
    · subst hd
      rw [Source.contribution_of_values (q := q) rfl hq,
        Source.contribution_of_values (q := r) rfl held, hclauses]
      rfl
    · rw [Source.contribution_eq_nil (other d hd).1, Source.contribution_eq_nil (other d hd).2]
  · intro happlies
    rw [noMap.2] at happlies
    cases happlies

/-- One creator in front of a blank value, and the same creator with a label. -/
theorem compile_respelled_kibele :
    let vs := [FilterValue.plain "Kibele ", .plain "\u3000"]
    let ws := [FilterValue.described " Kibele" "Creator Kibele" none]
    let state := (State.new (.forYear 2024)).put creator (.values vs)
    let compiled := compile
      { state := state.put creator (.values ws)
        catalog := .standard
        settings := {}
        scope := some creator }
    creator ≠ dataSource ∧ creator ≠ geohashes ∧ state.get? creator = some (.values vs) ∧
      Respelled vs ws ∧
      compiled = compile { state, catalog := .standard, settings := {}, scope := some creator } ∧
      compiled.text = "originText:Kibele" := by
  intro vs ws state compiled
  have respelled : Respelled vs ws := respelled_iff.mpr (by decide +kernel)
  have held : state.get? creator = some (.values vs) := rfl
  exact ⟨by decide, by decide, held, respelled,
    compile_respelled state .standard {} (by decide) (by decide) held respelled, by decide +kernel⟩

end FacetedSearch.Query
