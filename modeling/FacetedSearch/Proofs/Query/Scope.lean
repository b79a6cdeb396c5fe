import FacetedSearch.Proofs.Geohash.Budget
import FacetedSearch.Proofs.Query.Reads

/-!
# Queries of one category

The clauses of a category depend on the state, the catalog and the settings only; the scope of a
query decides whether they are taken. So a query without a scope is the join of the queries of its
active categories, as long as the map filter is not cut.
-/

namespace FacetedSearch

open Category

/-- An active category has a default to differ from, so the deployment has it. -/
theorem State.isAvailable_of_isActive {s : State} {c : Category} (h : s.isActive c) :
    s.isAvailable c := by
  rw [isActive, Bool.and_eq_true] at h
  have hchanged := h.1
  rw [isChanged] at hchanged
  split at hchanged
  · rename_i hdefault
    rw [isAvailable, Table.contains, hdefault]
    rfl
  · exact absurd hchanged Bool.false_ne_true

namespace Query

/-- The categories that have clauses, in the order of their clauses. -/
def clauseOrder : List Category :=
  [annotations, identifier, resourceMap, documents, username, idOnly, taxon, pubYear, dataYear,
    dataSource, exclude, additionalCriteria, fullText, dataAttribute, formatType, rightsHolder,
    submitter, geohashes, spatial, creator]

theorem clauseOrder_eq : clauseOrder = leading ++ geohashes :: trailing := rfl

theorem clauseOrder_nodup : clauseOrder.Nodup := by
  decide

theorem geohashes_not_mem_leading : geohashes ∉ leading := by
  decide

theorem geohashes_not_mem_trailing : geohashes ∉ trailing := by
  decide

namespace Source

/-- The clauses of the query that come from a category, with the map clause as that of the cells. -/
def part (q : Source) (c : Category) : List String :=
  if c = geohashes then [q.mapClause.text].filter (!·.isEmpty) else q.contribution c

theorem part_geohashes (q : Source) :
    q.part geohashes = [q.mapClause.text].filter (!·.isEmpty) := rfl

theorem part_of_ne {c : Category} (h : c ≠ geohashes) (q : Source) :
    q.part c = q.contribution c :=
  if_neg h

theorem flatMap_part {cs : List Category} (h : geohashes ∉ cs) (q : Source) :
    cs.flatMap q.part = cs.flatMap q.contribution := by
  apply List.flatMap_congr
  intro c hc
  exact q.part_of_ne (ne_of_mem_of_not_mem hc h)

theorem clauses_eq_flatMap_part (q : Source) : q.clauses = clauseOrder.flatMap q.part := by
  rw [clauseOrder_eq, List.flatMap_append, List.flatMap_cons,
    flatMap_part geohashes_not_mem_leading, flatMap_part geohashes_not_mem_trailing,
    part_geohashes]
  simp only [clauses, leadingClauses, trailingClauses, List.append_assoc]

theorem ne_empty_of_mem_part {q : Source} {c : Category} {clause : String}
    (h : clause ∈ q.part c) : clause ≠ "" := by
  unfold part contribution at h
  split at h
  · simpa using (List.mem_filter.mp h).2
  · split at h
    · simpa using (List.mem_filter.mp h).2
    · simp at h

/-! ## Changing the scope -/

/-- What the clauses of a category say depends neither on the scope nor on the lengths in the
settings. -/
theorem clausesOf_congr {q r : Source} (state : q.state = r.state) (catalog : q.catalog = r.catalog)
    (encoding : q.settings.encoding = r.settings.encoding) (c : Category) :
    q.clausesOf c = r.clausesOf c :=
  clausesOf_congr_slots catalog encoding fun d _ => by rw [state]

/-- A category that does not contribute has no part in the query. -/
theorem part_eq_nil_of_not_wants {q : Source} {c : Category} (h : q.wants c = false) :
    q.part c = [] := by
  by_cases hc : c = geohashes
  · subst hc
    have hmap : q.wantsMap = false := by
      simp [wantsMap, h]
    simp [part_geohashes, mapClause, hmap]
  · rw [part_of_ne hc, contribution, h]
    rfl

/-- Without a scope exactly the active categories contribute. -/
theorem wants_unscoped {q : Source} (h : q.scope = none) (c : Category) :
    q.wants c = q.state.isActive c := by
  rw [wants, h]
  cases hactive : q.state.isActive c with
  | false => simp
  | true => simp [State.isAvailable_of_isActive hactive]

/-- In its own scope an active category contributes. -/
theorem wants_own_scope {q : Source} {c : Category} (h : q.state.isActive c) :
    { q with scope := some c }.wants c = true := by
  have hfilled : (q.state.get? c).any (!·.isEmpty) = true := by
    rw [State.isActive, Bool.and_eq_true] at h
    exact h.2
  simp [wants, State.isAvailable_of_isActive h, hfilled]

theorem wants_other_scope {q : Source} {scope c : Category} (h : c ≠ scope) :
    { q with scope := some scope }.wants c = false := by
  simp [wants, h.symm]

/-- An active category has the same part in its own query as in the query without a scope, when
the map filter has no budget. A budget would depend on the other clauses. -/
theorem part_own_scope {q : Source} {c : Category} (unscoped : q.scope = none)
    (posts : q.settings.disableQueryPosts = false) (h : q.state.isActive c) :
    { q with scope := some c }.part c = q.part c := by
  have hwants : { q with scope := some c }.wants c = q.wants c := by
    rw [wants_own_scope h, wants_unscoped unscoped, h]
  by_cases hc : c = geohashes
  · subst hc
    have hmap : { q with scope := some geohashes }.wantsMap = q.wantsMap := by
      simp only [wantsMap, hwants]
    simp only [part_geohashes, mapClause, hmap, mapBudget, posts, Bool.false_eq_true, if_false]
  · have hclauses : { q with scope := some c }.clausesOf c = q.clausesOf c :=
      clausesOf_congr (q := { q with scope := some c }) (r := q) rfl rfl rfl c
    simp only [part_of_ne hc, contribution, hwants, hclauses]

/-- In the scope of a category nothing but its own part is left of the query. -/
theorem clauses_own_scope (q : Source) {c : Category} (h : c ∈ clauseOrder) :
    { q with scope := some c }.clauses = { q with scope := some c }.part c := by
  rw [clauses_eq_flatMap_part]
  obtain ⟨before, after, hsplit⟩ := List.append_of_mem h
  have hnodup := clauseOrder_nodup
  rw [hsplit, List.nodup_append, List.nodup_cons] at hnodup
  have hbefore : before.flatMap { q with scope := some c }.part = [] := by
    rw [List.flatMap_eq_nil_iff]
    intro d hd
    exact part_eq_nil_of_not_wants (wants_other_scope (hnodup.2.2 d hd c List.mem_cons_self))
  have hafter : after.flatMap { q with scope := some c }.part = [] := by
    rw [List.flatMap_eq_nil_iff]
    intro d hd
    exact part_eq_nil_of_not_wants (wants_other_scope (ne_of_mem_of_not_mem hd hnodup.2.1.1))
  rw [hsplit, List.flatMap_append, List.flatMap_cons, hbefore, hafter, List.append_nil,
    List.nil_append]

/-- Where queries can be posted, the map filter has no budget. -/
theorem mapBudget_of_posts {q : Source} (posts : q.settings.disableQueryPosts = false) :
    q.mapBudget = none := by
  simp [mapBudget, posts]

/-- Where queries can be posted, the map filter is not cut. -/
theorem truncated_mapClause_of_posts {q : Source} (posts : q.settings.disableQueryPosts = false) :
    q.mapClause.truncated = false := by
  rw [mapClause]
  split
  · rw [mapBudget_of_posts posts, Geohash.truncated_mapClause_none]
  · rfl

/-- A category outside the order has no clauses, even in its own scope. -/
theorem clauses_scope_of_not_mem (q : Source) {c : Category} (h : c ∉ clauseOrder) :
    { q with scope := some c }.clauses = [] := by
  rw [clauses_eq_flatMap_part, List.flatMap_eq_nil_iff]
  intro d hd
  exact part_eq_nil_of_not_wants (wants_other_scope (ne_of_mem_of_not_mem hd h))

/-- Without a scope the clauses of a query are the parts of its active categories. -/
theorem clauses_unscoped {q : Source} (h : q.scope = none) :
    q.clauses = ((clauseOrder.filter q.state.isActive).map q.part).flatten := by
  rw [clauses_eq_flatMap_part, List.flatMap_def]
  induction clauseOrder with
  | nil => rfl
  | cons c order ih =>
      cases hactive : q.state.isActive c with
      | false =>
          have hpart : q.part c = [] :=
            part_eq_nil_of_not_wants ((wants_unscoped h c).trans hactive)
          rw [List.filter_cons_of_neg (by simp [hactive]), List.map_cons, List.flatten_cons, ih,
            hpart, List.nil_append]
      | true =>
          rw [List.filter_cons_of_pos hactive, List.map_cons, List.map_cons, List.flatten_cons,
            List.flatten_cons, ih]

end Source

/-- A query without a scope is the join of the queries of its active categories, in the order of
their clauses and with the empty ones left out, when the map filter has no budget. No category
outside the order has a query. -/
theorem compile_eq_join_of_scopes (state : State) (catalog : Catalog) (settings : Settings)
    (posts : settings.disableQueryPosts = false) :
    compile { state, catalog, settings } =
        { text := separator.intercalate
            (((clauseOrder.filter state.isActive).map fun c =>
              (compile { state, catalog, settings, scope := some c }).text).filter (!·.isEmpty))
          truncated := false } ∧
      ∀ c ∉ clauseOrder, (compile { state, catalog, settings, scope := some c }).text = "" := by
  let q : Source := { state, catalog, settings }
  have hscoped : ∀ c ∈ clauseOrder.filter state.isActive,
      (compile { q with scope := some c }).text = separator.intercalate (q.part c) := by
    intro c hc
    obtain ⟨hmem, hactive⟩ := List.mem_filter.mp hc
    rw [compile, q.clauses_own_scope hmem, Source.part_own_scope rfl posts hactive]
  have hparts : ∀ part ∈ (clauseOrder.filter state.isActive).map q.part, ∀ clause ∈ part,
      clause ≠ "" := by
    intro part hpart clause hclause
    obtain ⟨c, -, rfl⟩ := List.mem_map.mp hpart
    exact Source.ne_empty_of_mem_part hclause
  have htruncated : q.mapClause.truncated = false := Source.truncated_mapClause_of_posts posts
  refine ⟨?_, ?_⟩
  · rw [List.map_congr_left hscoped, compile, htruncated, Source.clauses_unscoped rfl,
      Text.intercalate_flatten separator hparts, List.map_map]
    rfl
  · intro c hc
    rw [compile, q.clauses_scope_of_not_mem hc, String.intercalate_nil]

theorem compile_eq_join_of_scopes_salmon_by_kibele :
    let state := ((State.new (.forYear 2024)).put .fullText (.values [.plain "salmon"])).put
      .creator (.values [.plain "Kibele"])
    ({} : Settings).disableQueryPosts = false ∧
      compile { state, catalog := .standard, settings := {} } =
        { text := "salmon AND originText:Kibele", truncated := false } := by
  refine ⟨rfl, ?_⟩
  rw [(compile_eq_join_of_scopes _ _ _ rfl).1]
  decide +kernel

end Query

end FacetedSearch
