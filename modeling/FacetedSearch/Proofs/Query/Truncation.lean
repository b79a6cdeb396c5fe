import FacetedSearch.Proofs.Geohash.Grouping
import FacetedSearch.Proofs.Query.Scope

/-!
# Queries that are not posted

Where only GET requests are possible, the map filter gets what the clauses in front of it leave of
the limit. The text in front of the map clause takes exactly the counted bytes, and the clauses
around the map filter are those of a query that can be posted. So the bounds on a map clause within
its budget are bounds on the text of the query up to the end of the map clause.
-/

namespace FacetedSearch.Query

open Text

namespace Source

/-- The text in front of the map clause. -/
def textBeforeMap (q : Source) : String :=
  String.join (q.leadingClauses.map (· ++ separator))

/-- The text behind the map clause. -/
def textBehindMap (q : Source) : String :=
  String.join (q.trailingClauses.map (separator ++ ·))

/-- The same query where queries can be posted. -/
def withPosts (q : Source) : Source :=
  { q with settings := { q.settings with disableQueryPosts := false } }

/-- The counted bytes are those of the text in front of the map clause. -/
theorem lengthBefore_eq (clauses : List String) :
    lengthBefore clauses = size (String.join (clauses.map (· ++ separator))) := by
  induction clauses with
  | nil => rfl
  | cons clause rest ih =>
      rw [lengthBefore, ih, List.map_cons, String.join_cons, size_append, size_append]

theorem mapBudget_of_getOnly {q : Source} (getOnly : q.settings.disableQueryPosts = true) :
    q.mapBudget =
      some { offset := size q.textBeforeMap, limit := q.settings.geohashQueryLimit } := by
  rw [mapBudget, if_pos getOnly, lengthBefore_eq, textBeforeMap]

theorem mapClause_of_wantsMap {q : Source} (applies : q.wantsMap = true) :
    q.mapClause = Geohash.mapClause q.state.groups q.mapBudget :=
  if_pos applies

theorem clauses_of_mapClause {q : Source} (h : q.mapClause.text ≠ "") :
    q.clauses = q.leadingClauses ++ q.mapClause.text :: q.trailingClauses := by
  have hmap : [q.mapClause.text].filter (!·.isEmpty) = [q.mapClause.text] := by
    simpa using h
  rw [clauses, hmap, List.append_assoc, List.singleton_append]

/-- A map clause that is not empty starts behind the text in front of it. -/
theorem text_compile_of_mapClause {q : Source} (h : q.mapClause.text ≠ "") :
    (compile q).text = q.textBeforeMap ++ q.mapClause.text ++ q.textBehindMap := by
  rw [compile, clauses_of_mapClause h, intercalate_append_cons, textBeforeMap, textBehindMap]

/-! ## The same query with posts -/

theorem contribution_withPosts (q : Source) (c : Category) :
    q.withPosts.contribution c = q.contribution c := by
  have hclauses : q.withPosts.clausesOf c = q.clausesOf c :=
    clausesOf_congr (q := q.withPosts) (r := q) rfl rfl rfl c
  rw [contribution, contribution, hclauses]
  rfl

theorem leadingClauses_withPosts (q : Source) : q.withPosts.leadingClauses = q.leadingClauses := by
  rw [leadingClauses, leadingClauses, funext q.contribution_withPosts]

theorem trailingClauses_withPosts (q : Source) :
    q.withPosts.trailingClauses = q.trailingClauses := by
  rw [trailingClauses, trailingClauses, funext q.contribution_withPosts]

theorem mapClause_withPosts {q : Source} (applies : q.wantsMap = true) :
    q.withPosts.mapClause = Geohash.mapClause q.state.groups none :=
  if_pos applies

/-- A query whose map filter is not cut is the query with posts. -/
theorem text_compile_withPosts {q : Source} (h : q.mapClause = q.withPosts.mapClause) :
    (compile q).text = (compile q.withPosts).text := by
  rw [compile, compile, clauses, clauses, leadingClauses_withPosts, trailingClauses_withPosts, h]

theorem groups_ne_nil_of_wantsMap {q : Source} (applies : q.wantsMap = true) :
    q.state.groups ≠ [] := by
  rw [wantsMap, Bool.and_eq_true] at applies
  simpa [State.hasGroups] using applies.2

/-- A map filter that applies has a clause where queries can be posted. -/
theorem mapClause_withPosts_ne_empty {q : Source} (applies : q.wantsMap = true)
    (grouped : q.state.groups = Geohash.groupCells q.state.cells) :
    q.withPosts.mapClause.text ≠ "" := by
  have hgroups := groups_ne_nil_of_wantsMap applies
  rw [mapClause_withPosts applies, grouped]
  rw [grouped] at hgroups
  exact Geohash.mapClause_groupCells_ne_empty hgroups

/-- A map filter that applies has a clause unless cells are dropped. -/
theorem mapClause_ne_empty_of_not_truncated {q : Source} (applies : q.wantsMap = true)
    (grouped : q.state.groups = Geohash.groupCells q.state.cells)
    (whole : q.mapClause.truncated = false) : q.mapClause.text ≠ "" := by
  rw [mapClause_of_wantsMap applies] at whole ⊢
  rw [Geohash.mapClause_of_not_truncated whole, ← mapClause_withPosts applies]
  exact mapClause_withPosts_ne_empty applies grouped

theorem text_compile_withPosts_of_wantsMap {q : Source} (applies : q.wantsMap = true)
    (grouped : q.state.groups = Geohash.groupCells q.state.cells) :
    (compile q.withPosts).text =
      q.textBeforeMap ++ q.withPosts.mapClause.text ++ q.textBehindMap := by
  rw [text_compile_of_mapClause (mapClause_withPosts_ne_empty applies grouped), textBeforeMap,
    textBehindMap, leadingClauses_withPosts, trailingClauses_withPosts, textBeforeMap,
    textBehindMap]

end Source

/-- Where a query is not posted, the map clause is counted from the byte at which it starts, and
the text up to its end exceeds the limit by its last cell and six bytes at most. The query is the
one that could be posted, unless cells are dropped; and none is dropped when that one keeps to the
limit up to the end of its map clause. -/
theorem mapClause_tight (q : Source) (getOnly : q.settings.disableQueryPosts = true)
    (grouped : q.state.groups = Geohash.groupCells q.state.cells) (applies : q.wantsMap = true) :
    (q.mapBudget =
        some { offset := size q.textBeforeMap, limit := q.settings.geohashQueryLimit } ∧
      q.mapClause = Geohash.mapClause q.state.groups q.mapBudget ∧
      (q.mapClause.text ≠ "" →
        (compile q).text = q.textBeforeMap ++ q.mapClause.text ++ q.textBehindMap)) ∧
    (q.mapClause.text ≠ "" → ∃ level last,
      (Geohash.renderedCells q.state.groups q.mapBudget).getLast? = some (level, last) ∧
      size (q.textBeforeMap ++ q.mapClause.text) ≤
        q.settings.geohashQueryLimit + 6 + size last) ∧
    ((compile q.withPosts).text =
        q.textBeforeMap ++ q.withPosts.mapClause.text ++ q.textBehindMap ∧
      (size (q.textBeforeMap ++ q.withPosts.mapClause.text) ≤ q.settings.geohashQueryLimit →
        (compile q).truncated = false)) ∧
    ((compile q).truncated = false → (compile q).text = (compile q.withPosts).text) := by
  have hbudget := Source.mapBudget_of_getOnly getOnly
  have hmap := Source.mapClause_of_wantsMap applies
  have hposts := Source.mapClause_withPosts applies
  refine ⟨⟨hbudget, hmap, Source.text_compile_of_mapClause⟩, ?_, ⟨?_, ?_⟩, ?_⟩
  · intro hne
    rw [hmap] at hne ⊢
    obtain ⟨level, last, hlast⟩ := Geohash.exists_last_of_mapClause hne
    refine ⟨level, last, hlast, ?_⟩
    rw [hbudget] at hlast ⊢
    rw [size_append]
    exact Geohash.mapClause_size_le hlast
  · exact Source.text_compile_withPosts_of_wantsMap applies grouped
  · intro hfits
    rw [hposts, size_append] at hfits
    rw [compile, hmap, hbudget]
    apply Geohash.truncated_mapClause_of_fits
    · rw [grouped]
      exact Geohash.queryLevels_filled fun _ => Geohash.groupCells_filled
    · exact hfits
  · intro hwhole
    apply Source.text_compile_withPosts
    rw [compile, hmap] at hwhole
    rw [hposts, hmap]
    exact Geohash.mapClause_of_not_truncated hwhole

/-- Salmon in four cells of the map, where the text in front of a cell may take 30 bytes. -/
def salmonOnMap : Source where
  state := (((State.new (.forYear 2024)).put .fullText (.values [.plain "salmon"])).put .geohashes
    (.values [.plain "9q8yy", .plain "9q8yz", .plain "9q8z0", .plain "9q8z1"])).regroup
  catalog := .standard
  settings := { disableQueryPosts := true, geohashQueryLimit := 30 }

theorem mapClause_tight_salmonOnMap :
    salmonOnMap.settings.disableQueryPosts = true ∧
      salmonOnMap.state.groups = Geohash.groupCells salmonOnMap.state.cells ∧
      salmonOnMap.wantsMap = true ∧
      compile salmonOnMap =
        { text := "salmon AND geohash_5:(9q8yy OR 9q8yz)", truncated := true } ∧
      ∃ level last,
        (Geohash.renderedCells salmonOnMap.state.groups salmonOnMap.mapBudget).getLast? =
          some (level, last) ∧
        size (salmonOnMap.textBeforeMap ++ salmonOnMap.mapClause.text) ≤
          salmonOnMap.settings.geohashQueryLimit + 6 + size last := by
  have hgrouped : salmonOnMap.state.groups = Geohash.groupCells salmonOnMap.state.cells := by
    decide +kernel
  have happlies : salmonOnMap.wantsMap = true := by
    decide +kernel
  have hne : salmonOnMap.mapClause.text ≠ "" := by
    decide +kernel
  have htight := mapClause_tight salmonOnMap rfl hgrouped happlies
  exact ⟨rfl, hgrouped, happlies, by decide +kernel, htight.2.1 hne⟩

end FacetedSearch.Query
