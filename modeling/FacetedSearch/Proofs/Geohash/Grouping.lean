import FacetedSearch.Geohash.Clause
import FacetedSearch.Proofs.Geohash.Budget
import FacetedSearch.Proofs.SortedSet
import Mathlib.Data.List.Nodup

/-!
# What the groups hold

Every distinct cell stands in the family of its parent. The cells of the families that are no tiles
make up the incomplete group, and every tile is a complete group. The levels to be asked for are a
plain union of what the groups contribute.
-/

namespace FacetedSearch.Geohash

/-! ## Families -/

theorem mem_cellSet {cell : String} {cells : List String} :
    cell ∈ cellSet cells ↔ cell ∈ cells ∧ cell ≠ "" := by
  simp [cellSet]

/-- The family of a parent among some cells. -/
def familyOf (cells : List String) (parent : String) : Family where
  parent := parent
  members := (cellSet cells).filter (parentCell · == parent)

theorem families_eq (cells : List String) :
    families cells = (sortedSet ((cellSet cells).map parentCell)).map (familyOf cells) := by
  unfold families
  dsimp only
  rw [List.map_map]
  apply List.map_congr_left
  intro parent _
  simp [familyOf, List.filter_map, Function.comp_def]

theorem mem_familyOf {cell parent : String} {cells : List String} :
    cell ∈ (familyOf cells parent).members ↔
      cell ∈ cells ∧ cell ≠ "" ∧ parentCell cell = parent := by
  simp [familyOf, mem_cellSet, and_assoc]

/-- The members of a family are in ascending order. -/
theorem pairwise_lt_familyOf (cells : List String) (parent : String) :
    (familyOf cells parent).members.Pairwise (· < ·) :=
  (pairwise_lt_sortedSet _).filter _

theorem nodup_familyOf (cells : List String) (parent : String) :
    (familyOf cells parent).members.Nodup :=
  (pairwise_lt_familyOf cells parent).imp ne_of_lt

theorem mem_families {f : Family} {cells : List String} :
    f ∈ families cells ↔ ∃ cell ∈ cellSet cells, f = familyOf cells (parentCell cell) := by
  rw [families_eq]
  constructor
  · intro h
    obtain ⟨parent, hparent, rfl⟩ := List.mem_map.mp h
    obtain ⟨cell, hcell, rfl⟩ := List.mem_map.mp (mem_sortedSet.mp hparent)
    exact ⟨cell, hcell, rfl⟩
  · rintro ⟨cell, hcell, rfl⟩
    exact List.mem_map_of_mem (mem_sortedSet.mpr (List.mem_map_of_mem hcell))

/-- A parent all of whose cells are there. -/
def IsTile (cells : List String) (parent : String) : Prop :=
  (familyOf cells parent).isTile = true

instance (cells : List String) (parent : String) : Decidable (IsTile cells parent) :=
  inferInstanceAs (Decidable (_ = true))

theorem IsTile.members_ne_nil {cells : List String} {parent : String} (h : IsTile cells parent) :
    (familyOf cells parent).members ≠ [] := by
  intro hnil
  simp [IsTile, Family.isTile, hnil, branching] at h

/-! ## Groups -/

/-- The cells that form no complete group. -/
def looseCells (cells : List String) : List String :=
  ((families cells).filter (!·.isTile)).flatMap (·.members)

theorem mem_looseCells {cell : String} {cells : List String} :
    cell ∈ looseCells cells ↔
      cell ∈ cells ∧ cell ≠ "" ∧ ¬ IsTile cells (parentCell cell) := by
  simp only [looseCells, List.mem_flatMap, List.mem_filter, mem_families, Bool.not_eq_true']
  constructor
  · rintro ⟨f, ⟨⟨other, hother, rfl⟩, hloose⟩, hmem⟩
    obtain ⟨hcell, hne, hparent⟩ := mem_familyOf.mp hmem
    refine ⟨hcell, hne, ?_⟩
    rw [IsTile, hparent, hloose]
    exact Bool.false_ne_true
  · rintro ⟨hcell, hne, hloose⟩
    refine ⟨familyOf cells (parentCell cell),
      ⟨⟨cell, mem_cellSet.mpr ⟨hcell, hne⟩, rfl⟩, ?_⟩, mem_familyOf.mpr ⟨hcell, hne, rfl⟩⟩
    exact Bool.eq_false_iff.mpr hloose

theorem groupOf_eq_some {complete : Bool} {cells : List String} {g : Group} :
    groupOf complete cells = some g ↔
      ∃ first rest, cells = first :: rest ∧ g = { level := Text.size first, complete, cells } := by
  cases cells with
  | nil => simp [groupOf]
  | cons first rest =>
      simp only [groupOf, Option.some.injEq, List.cons.injEq]
      constructor
      · rintro rfl
        exact ⟨first, rest, ⟨rfl, rfl⟩, rfl⟩
      · rintro ⟨_, _, ⟨rfl, rfl⟩, rfl⟩
        rfl

theorem ne_nil_of_groupOf {complete : Bool} {cells : List String} {g : Group}
    (h : groupOf complete cells = some g) : cells ≠ [] := by
  obtain ⟨first, rest, rfl, -⟩ := groupOf_eq_some.mp h
  exact List.cons_ne_nil first rest

theorem cells_of_groupOf {complete : Bool} {cells : List String} {g : Group}
    (h : groupOf complete cells = some g) : g.cells = cells := by
  obtain ⟨first, rest, rfl, rfl⟩ := groupOf_eq_some.mp h
  rfl

theorem exists_groupOf (complete : Bool) {cells : List String} (h : cells ≠ []) :
    ∃ g, groupOf complete cells = some g := by
  obtain ⟨first, rest, rfl⟩ := List.exists_cons_of_ne_nil h
  exact ⟨_, rfl⟩

/-- The complete groups, in the order of their parents. -/
def tileGroups (cells : List String) : List Group :=
  (((families cells).filter (·.isTile)).map (·.members)).filterMap (groupOf true)

theorem groupCells_eq (cells : List String) :
    groupCells cells = (groupOf false (looseCells cells)).toList ++ tileGroups cells := rfl

theorem mem_tileGroups {g : Group} {cells : List String} :
    g ∈ tileGroups cells ↔
      ∃ parent, IsTile cells parent ∧ groupOf true (familyOf cells parent).members = some g := by
  simp only [tileGroups, List.mem_filterMap, List.mem_map, List.mem_filter, mem_families]
  constructor
  · rintro ⟨_, ⟨f, ⟨⟨cell, -, rfl⟩, htile⟩, rfl⟩, hgroup⟩
    exact ⟨parentCell cell, htile, hgroup⟩
  · rintro ⟨parent, htile, hgroup⟩
    obtain ⟨cell, hcell⟩ := List.exists_mem_of_ne_nil _ htile.members_ne_nil
    obtain ⟨hmem, hne, rfl⟩ := mem_familyOf.mp hcell
    exact ⟨_, ⟨_, ⟨⟨cell, mem_cellSet.mpr ⟨hmem, hne⟩, rfl⟩, htile⟩, rfl⟩, hgroup⟩

theorem mem_groupCells {g : Group} {cells : List String} :
    g ∈ groupCells cells ↔
      groupOf false (looseCells cells) = some g ∨
        ∃ parent, IsTile cells parent ∧
          groupOf true (familyOf cells parent).members = some g := by
  rw [groupCells_eq, List.mem_append, Option.mem_toList, mem_tileGroups]

/-- The cells of all groups, group by group. -/
def allCells (groups : List Group) : List String :=
  groups.flatMap (·.cells)

/-- Every cell stands in some group, unless its name is empty. -/
theorem mem_allCells_groupCells {cell : String} {cells : List String} :
    cell ∈ allCells (groupCells cells) ↔ cell ∈ cells ∧ cell ≠ "" := by
  simp only [allCells, List.mem_flatMap, mem_groupCells]
  constructor
  · rintro ⟨g, hgroup | ⟨_, _, hgroup⟩, hcell⟩
    · rw [cells_of_groupOf hgroup] at hcell
      obtain ⟨hmem, hne, -⟩ := mem_looseCells.mp hcell
      exact ⟨hmem, hne⟩
    · rw [cells_of_groupOf hgroup] at hcell
      obtain ⟨hmem, hne, -⟩ := mem_familyOf.mp hcell
      exact ⟨hmem, hne⟩
  · rintro ⟨hmem, hne⟩
    by_cases htile : IsTile cells (parentCell cell)
    · obtain ⟨g, hgroup⟩ := exists_groupOf true htile.members_ne_nil
      refine ⟨g, Or.inr ⟨parentCell cell, htile, hgroup⟩, ?_⟩
      rw [cells_of_groupOf hgroup]
      exact mem_familyOf.mpr ⟨hmem, hne, rfl⟩
    · have hloose : cell ∈ looseCells cells := mem_looseCells.mpr ⟨hmem, hne, htile⟩
      obtain ⟨g, hgroup⟩ := exists_groupOf false (List.ne_nil_of_mem hloose)
      refine ⟨g, Or.inl hgroup, ?_⟩
      rwa [cells_of_groupOf hgroup]

/-- Grouping makes up no cells. -/
theorem mem_of_mem_groupCells {g : Group} {cell : String} {cells : List String}
    (h : g ∈ groupCells cells) (hcell : cell ∈ g.cells) : cell ∈ cells :=
  (mem_allCells_groupCells.mp (List.mem_flatMap.mpr ⟨g, h, hcell⟩)).1

theorem groupCells_filled {g : Group} {cells : List String} (h : g ∈ groupCells cells) :
    g.cells ≠ [] := by
  rcases mem_groupCells.mp h with hgroup | ⟨_, _, hgroup⟩
  · rw [cells_of_groupOf hgroup]
    exact ne_nil_of_groupOf hgroup
  · rw [cells_of_groupOf hgroup]
    exact ne_nil_of_groupOf hgroup

/-! ## Levels -/

theorem Group.target_filled {g : Group} (h : g.cells ≠ []) : g.target.cells ≠ [] := by
  rw [Group.target]
  split
  · exact List.cons_ne_nil _ _
  · exact h

/-- The cells to be asked for at a level. -/
def cellsAt (groups : List Group) (level : Nat) : List String :=
  sortedSet (((groups.map Group.target).filter (·.level == level)).flatMap (·.cells))

theorem mem_cellsAt {cell : String} {groups : List Group} {level : Nat} :
    cell ∈ cellsAt groups level ↔
      ∃ g ∈ groups, g.target.level = level ∧ cell ∈ g.target.cells := by
  simp only [cellsAt, mem_sortedSet, List.mem_flatMap, List.mem_filter, List.mem_map,
    beq_iff_eq]
  constructor
  · rintro ⟨_, ⟨⟨g, hg, rfl⟩, hlevel⟩, hcell⟩
    exact ⟨g, hg, hlevel, hcell⟩
  · rintro ⟨g, hg, hlevel, hcell⟩
    exact ⟨g.target, ⟨⟨g, hg, rfl⟩, hlevel⟩, hcell⟩

theorem queryLevels_eq (groups : List Group) :
    queryLevels groups = (sortedSet ((groups.map Group.target).map (·.level))).map
      fun level => { level, cells := cellsAt groups level } := rfl

theorem mem_queryLevels {l : LevelCells} {groups : List Group} :
    l ∈ queryLevels groups ↔
      (∃ g ∈ groups, g.target.level = l.level) ∧ l.cells = cellsAt groups l.level := by
  simp only [queryLevels_eq, List.mem_map, mem_sortedSet]
  constructor
  · rintro ⟨level, ⟨_, ⟨g, hg, rfl⟩, hlevel⟩, rfl⟩
    exact ⟨⟨g, hg, hlevel⟩, rfl⟩
  · rintro ⟨⟨g, hg, hlevel⟩, hcells⟩
    refine ⟨l.level, ⟨_, ⟨g, hg, rfl⟩, hlevel⟩, ?_⟩
    rw [← hcells]

/-- A cell is asked for at a level exactly when some group contributes it there. -/
theorem mem_levelCells_queryLevels {level : Nat} {cell : String} {groups : List Group} :
    (level, cell) ∈ levelCells (queryLevels groups) ↔
      ∃ g ∈ groups, g.target.level = level ∧ cell ∈ g.target.cells := by
  simp only [levelCells, List.mem_flatMap, List.mem_map, Prod.mk.injEq]
  constructor
  · rintro ⟨l, hl, _, hcell, rfl, rfl⟩
    rw [(mem_queryLevels.mp hl).2] at hcell
    exact mem_cellsAt.mp hcell
  · rintro ⟨g, hg, hlevel, hcell⟩
    exact ⟨{ level, cells := cellsAt groups level }, mem_queryLevels.mpr ⟨⟨g, hg, hlevel⟩, rfl⟩,
      cell, mem_cellsAt.mpr ⟨g, hg, hlevel, hcell⟩, rfl, rfl⟩

theorem queryLevels_filled {groups : List Group} (h : ∀ g ∈ groups, g.cells ≠ []) :
    ∀ l ∈ queryLevels groups, l.cells ≠ [] := by
  intro l hl
  obtain ⟨⟨g, hg, hlevel⟩, hcells⟩ := mem_queryLevels.mp hl
  obtain ⟨cell, hcell⟩ := List.exists_mem_of_ne_nil _ (Group.target_filled (h g hg))
  rw [hcells]
  exact List.ne_nil_of_mem (mem_cellsAt.mpr ⟨g, hg, hlevel, hcell⟩)

/-- No cell is asked for twice at a level. -/
theorem nodup_levelCells_queryLevels (groups : List Group) :
    (levelCells (queryLevels groups)).Nodup := by
  rw [levelCells, queryLevels_eq, List.flatMap_map, List.nodup_flatMap]
  refine ⟨?_, ?_⟩
  · intro level _
    exact (nodup_sortedSet _).map (Prod.mk_right_injective level)
  · refine (nodup_sortedSet _).imp ?_
    intro level other hne
    apply List.disjoint_left.mpr
    rintro _ hlevel hother
    obtain ⟨_, -, rfl⟩ := List.mem_map.mp hlevel
    obtain ⟨_, -, hpair⟩ := List.mem_map.mp hother
    exact hne (congrArg Prod.fst hpair).symm

/-- Without a budget the clause of some cells renders everything that is asked for. -/
theorem budgetedLevels_groupCells_none (cells : List String) :
    budgetedLevels (groupCells cells) none = (queryLevels (groupCells cells), false) := by
  rw [budgetedLevels_eq, takeLevels_none, List.filter_eq_self.mpr]
  intro l hl
  simpa using queryLevels_filled (fun _ => groupCells_filled) l hl

theorem renderedCells_groupCells_none (cells : List String) :
    renderedCells (groupCells cells) none = levelCells (queryLevels (groupCells cells)) := by
  rw [renderedCells, budgetedLevels_groupCells_none]

/-- Within a budget the first of the cells are rendered. -/
theorem renderedCells_groupCells_isPrefix (cells : List String) (budget : Option Budget) :
    renderedCells (groupCells cells) budget <+: renderedCells (groupCells cells) none := by
  rw [renderedCells_groupCells_none, renderedCells, budgetedLevels_eq]
  exact levelCells_takeLevels_isPrefix budget _ 0 (queryLevels (groupCells cells))

theorem text_mapClause_groupCells_none (cells : List String) :
    (mapClause (groupCells cells) none).text = renderLevels (queryLevels (groupCells cells)) := by
  rw [mapClause_eq, budgetedLevels_groupCells_none]

/-- Whatever groups there are, something is asked for. -/
theorem queryLevels_ne_nil {groups : List Group} (h : groups ≠ []) : queryLevels groups ≠ [] := by
  obtain ⟨g, hg⟩ := List.exists_mem_of_ne_nil groups h
  have hmem : { level := g.target.level, cells := cellsAt groups g.target.level } ∈
      queryLevels groups :=
    mem_queryLevels.mpr ⟨⟨g, hg, rfl⟩, rfl⟩
  exact List.ne_nil_of_mem hmem

theorem mapClause_groupCells_ne_empty {cells : List String} (h : groupCells cells ≠ []) :
    (mapClause (groupCells cells) none).text ≠ "" := by
  rw [text_mapClause_groupCells_none]
  exact renderLevels_ne_empty (queryLevels_ne_nil h)

end FacetedSearch.Geohash
