import FacetedSearch.Proofs.Geohash.Reading
import FacetedSearch.Proofs.Geohash.Tiles

/-!
# The level of a rendered cell

Every cell is asked for in the field of a level. A tile is asked for one level up, by its parent,
and this is the level of the parent. The loose cells are asked for in one field whatever their
levels are, that of the first of them: a loose cell of another level is looked for in a field where
it cannot occur.
-/

namespace FacetedSearch.Geohash

/-! ## Cells of the grid -/

/-- A text names a cell of the grid at a level. -/
def IsCellAt (level : Nat) (cell : String) : Prop :=
  cell.length = level ∧ ∀ c ∈ cell.toList, c ∈ alphabet.toList

-- The instance goes through the list, since a search over all characters would never end.
instance (level : Nat) (cell : String) : Decidable (IsCellAt level cell) :=
  decidable_of_iff (cell.length = level ∧ cell.toList.all (· ∈ alphabet.toList) = true)
    (by simp [IsCellAt])

theorem IsCellAt.ne_empty {level : Nat} {cell : String} (h : IsCellAt level cell)
    (positive : 1 ≤ level) : cell ≠ "" := by
  rintro rfl
  have hlevel : 0 = level := h.1
  omega

/-- A cell of the grid is a word of a clause. -/
theorem IsCellAt.isName {level : Nat} {cell : String} (h : IsCellAt level cell)
    (positive : 1 ≤ level) : IsName cell where
  word := by
    apply isWord_of_unreserved
    intro c hc hmem
    have hreserved : reserved.all (· ∉ alphabet.toList) = true := by
      decide
    exact of_decide_eq_true (List.all_eq_true.mp hreserved c hc) (h.2 c hmem)
  ne_empty := h.ne_empty positive

private theorem size_ofList_of_ascii {s : List Char} (h : ∀ c ∈ s, c.utf8Size = 1) :
    Text.size (String.ofList s) = s.length := by
  induction s with
  | nil => rfl
  | cons c s ih =>
      rw [String.ofList_cons, Text.size_append, ih fun d hd => h d (List.mem_cons_of_mem c hd),
        Text.size, String.utf8ByteSize_singleton, h c List.mem_cons_self, List.length_cons]
      omega

/-- The characters of the alphabet take one byte each. -/
theorem IsCellAt.size_eq {level : Nat} {cell : String} (h : IsCellAt level cell) :
    Text.size cell = level := by
  have hascii : alphabet.toList.all (·.utf8Size = 1) = true := by decide
  have hsize := size_ofList_of_ascii fun c hc =>
    of_decide_eq_true (List.all_eq_true.mp hascii c (h.2 c hc))
  rw [String.ofList_toList, String.length_toList, h.1] at hsize
  exact hsize

theorem IsCellAt.parent {level : Nat} {cell : String} (h : IsCellAt level cell) :
    IsCellAt (level - 1) (parentCell cell) := by
  refine ⟨?_, ?_⟩
  · rw [← String.length_toList, toList_parentCell, List.length_dropLast, String.length_toList, h.1]
  · intro c hc
    rw [toList_parentCell] at hc
    exact h.2 c (List.dropLast_subset _ hc)

/-- The only prefix of a cell that is one character shorter is its parent. -/
theorem IsCellAt.eq_parentCell {level : Nat} {cell other : String} (h : IsCellAt level cell)
    (hpre : other.toList <+: cell.toList) (hlength : other.length = level - 1) :
    other = parentCell cell := by
  rw [← String.toList_inj, toList_parentCell, List.prefix_iff_eq_take.mp hpre,
    List.dropLast_eq_take, String.length_toList, String.length_toList, hlength, h.1]

/-- A text names a cell of the grid. -/
def IsCell (cell : String) : Prop :=
  1 ≤ cell.length ∧ IsCellAt cell.length cell

instance (cell : String) : Decidable (IsCell cell) :=
  inferInstanceAs (Decidable (_ ∧ _))

theorem IsCellAt.isCell {level : Nat} {cell : String} (h : IsCellAt level cell)
    (positive : 1 ≤ level) : IsCell cell := by
  obtain ⟨rfl, hletters⟩ := h
  exact ⟨positive, rfl, hletters⟩

theorem IsCell.ne_empty {cell : String} (h : IsCell cell) : cell ≠ "" :=
  h.2.ne_empty h.1

theorem IsCell.size_eq {cell : String} (h : IsCell cell) : Text.size cell = cell.length :=
  h.2.size_eq

/-- A cell is one level below its parent. -/
theorem IsCell.length_eq {cell : String} (h : IsCell cell) :
    cell.length = (parentCell cell).length + 1 := by
  rw [h.2.parent.1, Nat.sub_add_cancel h.1]

/-! ## What is asked for -/

section Levels

variable {cells : List String}

theorem Group.target_loose (size : Nat) (members : List String) :
    Group.target { level := size, complete := false, cells := members } =
      { level := size, cells := members } := rfl

theorem Group.target_tile (size : Nat) (first : String) (rest : List String) :
    Group.target { level := size, complete := true, cells := first :: rest } =
      if 2 ≤ size then { level := size - 1, cells := [parentCell first] }
      else { level := size, cells := first :: rest } := by
  by_cases h : 2 ≤ size <;> simp [Group.target, Group.parent?, h]

/-- What a tile contributes: its parent, unless that is no cell of the grid. -/
def tileTarget (level : Nat) (cells : List String) (parent : String) : LevelCells :=
  if 2 ≤ level then { level := level - 1, cells := [parent] }
  else { level, cells := (familyOf cells parent).members }

theorem mem_tileTarget {level l : Nat} {parent cell : String} :
    (tileTarget level cells parent).level = l ∧ cell ∈ (tileTarget level cells parent).cells ↔
      2 ≤ level ∧ l = level - 1 ∧ cell = parent ∨
        ¬ 2 ≤ level ∧ l = level ∧ cell ∈ cells ∧ cell ≠ "" ∧ parentCell cell = parent := by
  rw [tileTarget]
  split
  · rename_i hparent
    simp [hparent, eq_comm]
  · rename_i hparent
    rw [mem_familyOf]
    simp [hparent, eq_comm]

/-- The level of the loose cells, which is that of the first of them. -/
def looseLevel (cells : List String) : Nat :=
  ((looseCells cells).head?.map String.length).getD 0

theorem looseLevel_eq_length {first : String} {rest : List String}
    (h : looseCells cells = first :: rest) : looseLevel cells = first.length := by
  rw [looseLevel, h]
  rfl

theorem target_of_loose (hcells : ∀ cell ∈ cells, IsCell cell) {g : Group}
    (h : groupOf false (looseCells cells) = some g) :
    g.target = { level := looseLevel cells, cells := looseCells cells } := by
  obtain ⟨first, rest, hmembers, rfl⟩ := groupOf_eq_some.mp h
  have hfirst : first ∈ looseCells cells := hmembers ▸ List.mem_cons_self
  rw [Group.target_loose, (hcells first (mem_looseCells.mp hfirst).1).size_eq,
    looseLevel_eq_length hmembers]

theorem target_of_tile (hcells : ∀ cell ∈ cells, IsCell cell) {g : Group} {parent : String}
    (h : groupOf true (familyOf cells parent).members = some g) :
    g.target = tileTarget (parent.length + 1) cells parent := by
  obtain ⟨first, rest, hmembers, rfl⟩ := groupOf_eq_some.mp h
  have hfirst : first ∈ (familyOf cells parent).members := hmembers ▸ List.mem_cons_self
  obtain ⟨hmem, -, rfl⟩ := mem_familyOf.mp hfirst
  have hcell := hcells first hmem
  rw [hmembers, Group.target_tile, hcell.size_eq, hcell.length_eq, tileTarget, hmembers]

/-- The groups of cells contribute the loose cells and every tile. -/
theorem exists_target_iff (hcells : ∀ cell ∈ cells, IsCell cell) {target : LevelCells} :
    (∃ g ∈ groupCells cells, g.target = target) ↔
      looseCells cells ≠ [] ∧
          target = { level := looseLevel cells, cells := looseCells cells } ∨
        ∃ parent, IsTile cells parent ∧ target = tileTarget (parent.length + 1) cells parent := by
  constructor
  · rintro ⟨g, hg, rfl⟩
    rcases mem_groupCells.mp hg with hgroup | ⟨parent, htile, hgroup⟩
    · exact Or.inl ⟨ne_nil_of_groupOf hgroup, target_of_loose hcells hgroup⟩
    · exact Or.inr ⟨parent, htile, target_of_tile hcells hgroup⟩
  · rintro (⟨hfilled, rfl⟩ | ⟨parent, htile, rfl⟩)
    · obtain ⟨g, hgroup⟩ := exists_groupOf false hfilled
      exact ⟨g, mem_groupCells.mpr (Or.inl hgroup), target_of_loose hcells hgroup⟩
    · obtain ⟨g, hgroup⟩ := exists_groupOf true htile.members_ne_nil
      exact ⟨g, mem_groupCells.mpr (Or.inr ⟨parent, htile, hgroup⟩), target_of_tile hcells hgroup⟩

theorem mem_renderedCells_iff_target {l : Nat} {cell : String} :
    (l, cell) ∈ renderedCells (groupCells cells) none ↔
      ∃ target, (∃ g ∈ groupCells cells, g.target = target) ∧
        target.level = l ∧ cell ∈ target.cells := by
  rw [renderedCells_groupCells_none, mem_levelCells_queryLevels]
  constructor
  · rintro ⟨g, hg, hlevel, hcell⟩
    exact ⟨g.target, ⟨g, hg, rfl⟩, hlevel, hcell⟩
  · rintro ⟨_, ⟨g, hg, rfl⟩, hlevel, hcell⟩
    exact ⟨g, hg, hlevel, hcell⟩

/-- Loose cells are asked for at the level of the first of them. A parent whose cells form a tile is
asked for at its own level; the cells of a tile that has no parent in the grid, at theirs. -/
theorem mem_renderedCells_iff (hcells : ∀ cell ∈ cells, IsCell cell) {l : Nat} {cell : String} :
    (l, cell) ∈ renderedCells (groupCells cells) none ↔
      l = looseLevel cells ∧ cell ∈ looseCells cells ∨
        l = cell.length ∧ IsTile cells cell ∧ 1 ≤ cell.length ∨
          l = cell.length ∧ cell ∈ cells ∧ IsTile cells (parentCell cell) ∧ cell.length = 1 := by
  rw [mem_renderedCells_iff_target]
  constructor
  · rintro ⟨target, htarget, hlevel, hcell⟩
    rcases (exists_target_iff hcells).mp htarget with ⟨-, rfl⟩ | ⟨parent, htile, rfl⟩
    · exact Or.inl ⟨hlevel.symm, hcell⟩
    · rcases mem_tileTarget.mp ⟨hlevel, hcell⟩ with
        ⟨hparent, rfl, rfl⟩ | ⟨hparent, rfl, hmem, -, rfl⟩
      · exact Or.inr (Or.inl ⟨by omega, htile, by omega⟩)
      · have hlength := (hcells cell hmem).length_eq
        exact Or.inr (Or.inr ⟨hlength.symm, hmem, htile, by omega⟩)
  · rintro (⟨rfl, hloose⟩ | ⟨rfl, htile, hlength⟩ | ⟨rfl, hmem, htile, hlength⟩)
    · exact ⟨_, (exists_target_iff hcells).mpr (Or.inl ⟨List.ne_nil_of_mem hloose, rfl⟩), rfl,
        hloose⟩
    · exact ⟨_, (exists_target_iff hcells).mpr (Or.inr ⟨_, htile, rfl⟩),
        mem_tileTarget.mpr (Or.inl ⟨by omega, by omega, rfl⟩)⟩
    · have hparent := (hcells cell hmem).length_eq
      exact ⟨_, (exists_target_iff hcells).mpr (Or.inr ⟨_, htile, rfl⟩),
        mem_tileTarget.mpr (Or.inr ⟨by omega, hparent, hmem, (hcells cell hmem).ne_empty, rfl⟩)⟩

/-! ## What the clause says -/

theorem IsTile.isCell {parent : String} (htile : IsTile cells parent)
    (hcells : ∀ cell ∈ cells, IsCell cell) (hlength : 1 ≤ parent.length) : IsCell parent := by
  obtain ⟨cell, hmember⟩ := List.exists_mem_of_ne_nil _ htile.members_ne_nil
  obtain ⟨hmem, -, rfl⟩ := mem_familyOf.mp hmember
  have hparent := (hcells cell hmem).2.parent
  exact hparent.isCell (hparent.1 ▸ hlength)

/-- Nothing is rendered but cells of the grid. -/
theorem isCell_of_mem_renderedCells (hcells : ∀ cell ∈ cells, IsCell cell) {p : Nat × String}
    (hp : p ∈ renderedCells (groupCells cells) none) : IsCell p.2 := by
  rcases (mem_renderedCells_iff hcells).mp hp with
    ⟨-, hloose⟩ | ⟨-, htile, hlength⟩ | ⟨-, hmem, -, -⟩
  · exact hcells p.2 (mem_looseCells.mp hloose).1
  · exact htile.isCell hcells hlength
  · exact hcells p.2 hmem

/-- The clause says what it asks for, within a budget as well. -/
theorem readClause?_groupCells (hcells : ∀ cell ∈ cells, IsCell cell) (budget : Option Budget) :
    readClause? (mapClause (groupCells cells) budget).text =
      some (renderedCells (groupCells cells) budget) := by
  rw [mapClause_eq, renderedCells]
  apply readClause?_renderLevels
  · rw [budgetedLevels_eq]
    exact takeLevels_filled budget _ 0 (queryLevels (groupCells cells))
  · intro l hl cell hcell
    have hmem : (l.level, cell) ∈ renderedCells (groupCells cells) none :=
      (renderedCells_groupCells_isPrefix cells budget).subset (mem_levelCells_of_mem hl hcell)
    have hname : IsCell cell := isCell_of_mem_renderedCells hcells hmem
    exact hname.2.isName hname.1

/-- The map clause of cells asks for cells of the grid. Each of them is asked for at its own level
or is a loose cell, asked for at the level of the first loose cell; and all are asked for at their
own levels exactly when the loose cells have one level. -/
theorem mapClause_own_level_iff (hcells : ∀ cell ∈ cells, IsCell cell) :
    readClause? (mapClause (groupCells cells) none).text =
        some (renderedCells (groupCells cells) none) ∧
      (∀ p ∈ renderedCells (groupCells cells) none, p.2 ≠ "" ∧
        (p.2.length = p.1 ∨ p.2 ∈ looseCells cells ∧ p.1 = looseLevel cells)) ∧
      ((∀ p ∈ renderedCells (groupCells cells) none, p.2.length = p.1) ↔
        ∀ cell ∈ looseCells cells, ∀ other ∈ looseCells cells, cell.length = other.length) := by
  have hlevel : ∀ p ∈ renderedCells (groupCells cells) none,
      p.2.length = p.1 ∨ p.2 ∈ looseCells cells ∧ p.1 = looseLevel cells := by
    intro p hp
    rcases (mem_renderedCells_iff hcells).mp hp with
      ⟨hlevel, hloose⟩ | ⟨hlevel, -, -⟩ | ⟨hlevel, -, -, -⟩
    · exact Or.inr ⟨hloose, hlevel⟩
    · exact Or.inl hlevel.symm
    · exact Or.inl hlevel.symm
  refine ⟨readClause?_groupCells hcells none, fun p hp =>
    ⟨(isCell_of_mem_renderedCells hcells hp).ne_empty, hlevel p hp⟩, ?_⟩
  constructor
  · intro hown
    have hloose : ∀ cell ∈ looseCells cells, cell.length = looseLevel cells := fun cell hcell =>
      hown (looseLevel cells, cell) ((mem_renderedCells_iff hcells).mpr (Or.inl ⟨rfl, hcell⟩))
    intro cell hcell other hother
    rw [hloose cell hcell, hloose other hother]
  · intro hsame p hp
    rcases hlevel p hp with hown | ⟨hloose, hp⟩
    · exact hown
    · obtain ⟨first, rest, hfirst⟩ := List.exists_cons_of_ne_nil (List.ne_nil_of_mem hloose)
      rw [hp, looseLevel_eq_length hfirst]
      exact hsame p.2 hloose first (hfirst ▸ List.mem_cons_self)

end Levels

/-- A tile, and loose cells of one level, two below that of the tile. -/
theorem mapClause_own_level_tile_and_cells :
    let cells := "c2b2" :: "d1b2" :: subcells "9"
    (∀ cell ∈ cells, IsCell cell) ∧
      (∀ cell ∈ looseCells cells, ∀ other ∈ looseCells cells, cell.length = other.length) ∧
      (mapClause (groupCells cells) none).text = "(geohash_1:9 OR geohash_4:(c2b2 OR d1b2))" ∧
      ∀ p ∈ renderedCells (groupCells cells) none, p.2.length = p.1 := by
  intro cells
  have hcells : ∀ cell ∈ cells, IsCell cell := by
    decide +kernel
  have hloose :
      ∀ cell ∈ looseCells cells, ∀ other ∈ looseCells cells, cell.length = other.length := by
    decide +kernel
  exact ⟨hcells, hloose, by decide +kernel, (mapClause_own_level_iff hcells).2.2.mpr hloose⟩

/-- Of two loose cells the second is asked for at the level of the first. -/
theorem mapClause_asks_at_foreign_level :
    ¬ ∀ cells : List String, (∀ cell ∈ cells, IsCell cell) →
        ∀ p ∈ renderedCells (groupCells cells) none, p.2 ≠ "" ∧ p.2.length = p.1 := by
  intro h
  have hlevel := (h ["9q8yz", "c2b2"] (by decide +kernel) (5, "c2b2") (by decide +kernel)).2
  revert hlevel
  decide +kernel

end FacetedSearch.Geohash
