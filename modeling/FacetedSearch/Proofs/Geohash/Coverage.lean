import FacetedSearch.Proofs.Geohash.Precision

/-!
# The area of a map clause

When all cells in view have one level, the map clause asks for exactly the area of these cells. A
tile is asked for by its parent, which is a prefix of its 32 cells and of no other cell of their
level; any other cell is asked for by its own name.
-/

namespace FacetedSearch.Geohash

/-! ## Tiles -/

section Tiles

variable {level : Nat} {cells : List String}

theorem IsTile.isCellAt {parent : String} (htile : IsTile cells parent)
    (hcells : ∀ cell ∈ cells, IsCellAt level cell) : IsCellAt (level - 1) parent := by
  obtain ⟨cell, hmember⟩ := List.exists_mem_of_ne_nil _ htile.members_ne_nil
  obtain ⟨hcell, -, rfl⟩ := mem_familyOf.mp hmember
  exact (hcells cell hcell).parent

/-- A cell of the level whose parent is a tile is in view. -/
theorem IsTile.mem_of_parentCell {cell : String} (htile : IsTile cells (parentCell cell))
    (positive : 1 ≤ level) (hcells : ∀ cell ∈ cells, IsCellAt level cell)
    (hcell : IsCellAt level cell) : cell ∈ cells := by
  have hlasts : lastsOf cells (parentCell cell) ⊆ alphabet.toList := fun d hd =>
    (hcells _ (mem_lastsOf.mp hd)).2 d (List.mem_of_getLast? (getLast?_push _ d))
  obtain ⟨c, hc⟩ := exists_last_of_ne_empty (hcell.ne_empty positive)
  have hmem : c ∈ lastsOf cells (parentCell cell) :=
    (htile.lastsOf_perm hlasts).mem_iff.mpr (hcell.2 c (List.mem_of_getLast? hc))
  rw [← push_parentCell hc]
  exact mem_lastsOf.mp hmem

/-! ## What is asked for -/

theorem looseLevel_eq (hcells : ∀ cell ∈ cells, IsCellAt level cell) {cell : String}
    (hloose : cell ∈ looseCells cells) : looseLevel cells = level := by
  obtain ⟨first, rest, hfirst⟩ := List.exists_cons_of_ne_nil (List.ne_nil_of_mem hloose)
  have hmem : first ∈ looseCells cells := hfirst ▸ List.mem_cons_self
  rw [looseLevel_eq_length hfirst, (hcells first (mem_looseCells.mp hmem).1).1]

/-- Cells of one level are asked for by themselves or, where they form a tile that has a parent in
the grid, by this parent. -/
theorem mem_renderedCells (positive : 1 ≤ level) (hcells : ∀ cell ∈ cells, IsCellAt level cell)
    {l : Nat} {cell : String} :
    (l, cell) ∈ renderedCells (groupCells cells) none ↔
      l = level ∧ cell ∈ cells ∧ (IsTile cells (parentCell cell) → level = 1) ∨
        l = level - 1 ∧ IsTile cells cell ∧ 2 ≤ level := by
  rw [mem_renderedCells_iff fun cell hmem => (hcells cell hmem).isCell positive]
  constructor
  · rintro (⟨rfl, hloose⟩ | ⟨rfl, htile, hlength⟩ | ⟨rfl, hmem, -, hlength⟩)
    · obtain ⟨hmem, -, hnot⟩ := mem_looseCells.mp hloose
      exact Or.inl ⟨looseLevel_eq hcells hloose, hmem, fun htile => absurd htile hnot⟩
    · have hparent := (htile.isCellAt hcells).1
      exact Or.inr ⟨hparent, htile, by omega⟩
    · have hlevel := (hcells cell hmem).1
      exact Or.inl ⟨hlevel, hmem, fun _ => hlevel.symm.trans hlength⟩
  · rintro (⟨rfl, hmem, hone⟩ | ⟨rfl, htile, hparent⟩)
    · have hlevel := (hcells cell hmem).1
      by_cases htile : IsTile cells (parentCell cell)
      · exact Or.inr (Or.inr ⟨hlevel.symm, hmem, htile, hlevel.trans (hone htile)⟩)
      · have hloose : cell ∈ looseCells cells :=
          mem_looseCells.mpr ⟨hmem, (hcells cell hmem).ne_empty positive, htile⟩
        exact Or.inl ⟨(looseLevel_eq hcells hloose).symm, hloose⟩
    · have hlength := (htile.isCellAt hcells).1
      exact Or.inr (Or.inl ⟨hlength.symm, htile, by omega⟩)

/-! ## Coverage -/

/-- The one rendered cell that a cell in view lies in. -/
def coverOf (level : Nat) (cells : List String) (cell : String) : Nat × String :=
  if IsTile cells (parentCell cell) ∧ 2 ≤ level then (level - 1, parentCell cell)
  else (level, cell)

/-- A rendered cell is a cell of the grid at the level under which it is rendered. -/
theorem isCellAt_of_mem_renderedCells (positive : 1 ≤ level)
    (hcells : ∀ cell ∈ cells, IsCellAt level cell) {l : Nat} {cell : String}
    (h : (l, cell) ∈ renderedCells (groupCells cells) none) : IsCellAt l cell ∧ 1 ≤ l := by
  rcases (mem_renderedCells positive hcells).mp h with ⟨rfl, hmem, -⟩ | ⟨rfl, htile, hparent⟩
  · exact ⟨hcells cell hmem, positive⟩
  · exact ⟨htile.isCellAt hcells, by omega⟩

/-- The clause says what it asks for. -/
theorem readClause?_mapClause (positive : 1 ≤ level)
    (hcells : ∀ cell ∈ cells, IsCellAt level cell) :
    readClause? (mapClause (groupCells cells) none).text =
      some (renderedCells (groupCells cells) none) :=
  readClause?_groupCells (fun cell hmem => (hcells cell hmem).isCell positive) none

theorem coverOf_mem_renderedCells (positive : 1 ≤ level)
    (hcells : ∀ cell ∈ cells, IsCellAt level cell) {cell : String} (hmem : cell ∈ cells) :
    coverOf level cells cell ∈ renderedCells (groupCells cells) none := by
  rw [coverOf]
  split
  · rename_i htile
    exact (mem_renderedCells positive hcells).mpr (Or.inr ⟨rfl, htile⟩)
  · rename_i hloose
    refine (mem_renderedCells positive hcells).mpr (Or.inl ⟨rfl, hmem, ?_⟩)
    intro htile
    have hparent : ¬ 2 ≤ level := fun h => hloose ⟨htile, h⟩
    omega

theorem coverOf_isPrefix (level : Nat) (cells : List String) (cell : String) :
    (coverOf level cells cell).2.toList <+: cell.toList := by
  rw [coverOf]
  split
  · exact parentCell_isPrefix cell
  · exact List.prefix_refl _

/-- A rendered cell that is a prefix of a cell of the level is its cover, and the cell is in
view. -/
theorem eq_coverOf_of_isPrefix (positive : 1 ≤ level)
    (hcells : ∀ cell ∈ cells, IsCellAt level cell) {cell : String} (hcell : IsCellAt level cell)
    {p : Nat × String} (hp : p ∈ renderedCells (groupCells cells) none)
    (hpre : p.2.toList <+: cell.toList) : cell ∈ cells ∧ p = coverOf level cells cell := by
  obtain ⟨l, other⟩ := p
  rcases (mem_renderedCells positive hcells).mp hp with ⟨rfl, hmem, hlevel⟩ | ⟨rfl, htile, hparent⟩
  · have hsame : other = cell := by
      rw [← String.toList_inj]
      apply hpre.eq_of_length
      rw [String.length_toList, String.length_toList, hcell.1, (hcells other hmem).1]
    subst hsame
    refine ⟨hmem, ?_⟩
    rw [coverOf, if_neg]
    rintro ⟨htile, hparent⟩
    have hone := hlevel htile
    omega
  · have hother : other = parentCell cell := hcell.eq_parentCell hpre (htile.isCellAt hcells).1
    subst hother
    refine ⟨htile.mem_of_parentCell positive hcells hcell, ?_⟩
    rw [coverOf, if_pos ⟨htile, hparent⟩]

/-- Of the rendered cells exactly one is a prefix of a cell in view, and none of another cell. -/
theorem countP_renderedCells (positive : 1 ≤ level) (hcells : ∀ cell ∈ cells, IsCellAt level cell)
    {cell : String} (hcell : IsCellAt level cell) :
    ((renderedCells (groupCells cells) none).countP
      fun p => p.2.toList.isPrefixOf cell.toList) = if cell ∈ cells then 1 else 0 := by
  split
  · rename_i hmem
    have hnodup : (renderedCells (groupCells cells) none).Nodup := by
      rw [renderedCells_groupCells_none]
      exact nodup_levelCells_queryLevels _
    rw [← List.count_eq_one_of_mem hnodup (coverOf_mem_renderedCells positive hcells hmem),
      List.count]
    apply List.countP_congr
    intro p hp
    rw [List.isPrefixOf_iff_prefix, beq_iff_eq]
    constructor
    · intro hpre
      exact (eq_coverOf_of_isPrefix positive hcells hcell hp hpre).2
    · rintro rfl
      exact coverOf_isPrefix level cells cell
  · rename_i hmem
    rw [List.countP_eq_zero]
    intro p hp hpre
    rw [List.isPrefixOf_iff_prefix] at hpre
    exact hmem (eq_coverOf_of_isPrefix positive hcells hcell hp hpre).1

/-- The clause of cells of one level asks for each of them exactly once, by a prefix, and for no
other cell of the level. Every rendered cell is asked for at the level of its own length. -/
theorem mapClause_covers (positive : 1 ≤ level) (hcells : ∀ cell ∈ cells, IsCellAt level cell) :
    (mapClause (groupCells cells) none).truncated = false ∧
      readClause? (mapClause (groupCells cells) none).text =
        some (renderedCells (groupCells cells) none) ∧
      (∀ p ∈ renderedCells (groupCells cells) none, p.2.length = p.1) ∧
      ∀ cell, IsCellAt level cell →
        ((renderedCells (groupCells cells) none).countP
          fun p => p.2.toList.isPrefixOf cell.toList) = if cell ∈ cells then 1 else 0 := by
  refine ⟨truncated_mapClause_none _, readClause?_mapClause positive hcells, ?_, ?_⟩
  · rintro ⟨l, cell⟩ hp
    exact (isCellAt_of_mem_renderedCells positive hcells hp).1.1
  · intro cell hcell
    exact countP_renderedCells positive hcells hcell

end Tiles

theorem mapClause_covers_tile_and_cell :
    (∀ cell ∈ "d1" :: subcells "9", IsCellAt 2 cell) ∧
      (mapClause (groupCells ("d1" :: subcells "9")) none).text =
        "(geohash_1:9 OR geohash_2:d1)" ∧
      (renderedCells (groupCells ("d1" :: subcells "9")) none).countP
        (fun p => p.2.toList.isPrefixOf "9q".toList) = 1 := by
  have hcells : ∀ cell ∈ "d1" :: subcells "9", IsCellAt 2 cell := by
    decide +kernel
  have hcovers := mapClause_covers (by decide : 1 ≤ 2) hcells
  refine ⟨hcells, by decide +kernel, ?_⟩
  rw [hcovers.2.2.2 "9q" (by decide +kernel), if_pos (by decide +kernel)]

end FacetedSearch.Geohash
