import FacetedSearch.Proofs.Geohash.LooseOrder

/-!
# Groups as the form of a set of cells

Grouping keeps every cell once, however often and in whatever order the cells come, and drops
nothing but empty names. So the groups tell the set of the cells and the set tells the groups, and
the cells of all groups, grouped again, make the same groups.
-/

namespace FacetedSearch.Geohash

variable {cells others : List String}

theorem nodup_looseCells (cells : List String) : (looseCells cells).Nodup := by
  refine (pairwise_byParent_looseCells cells).imp ?_
  rintro cell _ (hparent | ⟨-, hlt⟩) rfl
  · exact lt_irrefl _ hparent
  · exact lt_irrefl _ hlt

/-- No cell stands twice in the groups, be it in one group or in two. -/
theorem nodup_allCells_groupCells (cells : List String) :
    (allCells (groupCells cells)).Nodup := by
  rw [allCells, List.nodup_flatMap]
  refine ⟨fun g hg => ?_, pairwise_disjoint_groupCells cells⟩
  rcases mem_groupCells.mp hg with hgroup | ⟨parent, -, hgroup⟩
  · rw [cells_of_groupOf hgroup]
    exact nodup_looseCells cells
  · rw [cells_of_groupOf hgroup]
    exact nodup_familyOf cells parent

/-- Only the first group can be incomplete. -/
theorem complete_of_mem_tail_groupCells {g : Group} (hg : g ∈ (groupCells cells).tail) :
    g.complete = true := by
  have htile : g ∈ tileGroups cells := by
    rw [groupCells_eq] at hg
    cases hloose : groupOf false (looseCells cells) with
    | none =>
        rw [hloose] at hg
        exact List.mem_of_mem_tail hg
    | some first =>
        rwa [hloose] at hg
  obtain ⟨_, -, hgroup⟩ := mem_tileGroups.mp htile
  exact complete_of_groupOf hgroup

/-- Nothing but the set of the cells goes into the groups. -/
theorem groupCells_congr (h : ∀ cell, cell ≠ "" → (cell ∈ cells ↔ cell ∈ others)) :
    groupCells cells = groupCells others := by
  have hset : cellSet cells = cellSet others := by
    refine sortedSet_congr fun cell => ?_
    simp only [List.mem_filter, Bool.not_eq_true', String.isEmpty_eq_false_iff, and_congr_left_iff]
    exact h cell
  rw [groupCells, groupCells, families, families, hset]

/-- Two lists have the same groups exactly when they have the same cells. -/
theorem groupCells_eq_iff :
    groupCells cells = groupCells others ↔
      ∀ cell, cell ≠ "" → (cell ∈ cells ↔ cell ∈ others) := by
  refine ⟨fun hsame cell hne => ?_, groupCells_congr⟩
  have hcells : cell ∈ allCells (groupCells cells) ↔ cell ∈ cells ∧ cell ≠ "" :=
    mem_allCells_groupCells
  rw [hsame, mem_allCells_groupCells, and_iff_left hne, and_iff_left hne] at hcells
  exact hcells.symm

/-- Grouping the cells of the groups changes nothing. -/
theorem groupCells_allCells (cells : List String) :
    groupCells (allCells (groupCells cells)) = groupCells cells :=
  groupCells_congr fun _ hne => by rw [mem_allCells_groupCells, and_iff_left hne]

end FacetedSearch.Geohash
