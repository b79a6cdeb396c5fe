import FacetedSearch.Proofs.Clause.Phrase
import FacetedSearch.Proofs.Geohash.Coverage

/-!
# Syntax that cells bring into a query

A map clause asks for cells by their names as they are: nothing is encoded, escaped or quoted. A
name may be any text, so a bare mark of the query language or a blank in it is one of the clause. A
cell of a complete tile is asked for by its parent, whose name is an initial part of its own and so
brings nothing that the cell would not bring. Where the names that are asked for are harmless, the
marks and blanks of a clause are those of its fields, groups and separators.
-/

namespace FacetedSearch.Geohash

open Text Clause

/-! ## Harmless names -/

/-- A name without a bare mark of the query language and without a blank. -/
structure IsHarmless (cell : String) : Prop where
  marks : bareMarks cell = []
  blank : ' ' ∉ cell.toList

instance (cell : String) : Decidable (IsHarmless cell) :=
  decidable_of_iff (bareMarks cell = [] ∧ ' ' ∉ cell.toList)
    ⟨fun h => ⟨h.1, h.2⟩, fun h => ⟨h.marks, h.blank⟩⟩

/-- An initial part of a harmless name is harmless. -/
theorem IsHarmless.of_isPrefix {cell other : String} (h : IsHarmless cell)
    (hpre : other.toList <+: cell.toList) : IsHarmless other where
  marks := by
    obtain ⟨rest, hrest⟩ := hpre
    have hmarks := h.marks
    rw [bareMarks, ← hrest, bareChars_append, List.filter_append, List.append_eq_nil_iff] at hmarks
    exact hmarks.1
  blank hmem := h.blank (hpre.subset hmem)

/-! ## Names that are asked for -/

variable {cells : List String}

/-- The level of the cells of a tile, which is that of the first of them. -/
def tileLevel (cells : List String) (parent : String) : Nat :=
  ((familyOf cells parent).members.head?.map Text.size).getD 0

/-- The name by which a cell is asked for: its own, or that of its parent if this is a tile of the
grid. -/
def askedName (cells : List String) (cell : String) : String :=
  if IsTile cells (parentCell cell) ∧ 2 ≤ tileLevel cells (parentCell cell) then parentCell cell
  else cell

theorem askedName_isPrefix (cells : List String) (cell : String) :
    (askedName cells cell).toList <+: cell.toList := by
  rw [askedName]
  split
  · exact parentCell_isPrefix cell
  · exact List.prefix_refl _

/-- What a tile contributes. -/
theorem cells_target_of_tile {g : Group} {parent : String}
    (h : groupOf true (familyOf cells parent).members = some g) :
    g.target.cells =
      if 2 ≤ tileLevel cells parent then [parent] else (familyOf cells parent).members := by
  obtain ⟨first, rest, hmembers, rfl⟩ := groupOf_eq_some.mp h
  have hfirst : first ∈ (familyOf cells parent).members := hmembers ▸ List.mem_cons_self
  have hlevel : tileLevel cells parent = Text.size first := by
    rw [tileLevel, hmembers]
    rfl
  obtain ⟨-, -, hparent⟩ := mem_familyOf.mp hfirst
  rw [hmembers, Group.target_tile, hparent, hlevel]
  split <;> rfl

theorem cells_target_of_loose {g : Group} (h : groupOf false (looseCells cells) = some g) :
    g.target.cells = looseCells cells := by
  obtain ⟨first, rest, hmembers, rfl⟩ := groupOf_eq_some.mp h
  rw [Group.target_loose]

/-- The names that the groups of some cells contribute are those by which the cells are asked
for. -/
theorem exists_mem_target_iff {name : String} :
    (∃ g ∈ groupCells cells, name ∈ g.target.cells) ↔
      ∃ cell ∈ cells, cell ≠ "" ∧ askedName cells cell = name := by
  constructor
  · rintro ⟨g, hg, hname⟩
    rcases mem_groupCells.mp hg with hgroup | ⟨parent, htile, hgroup⟩
    · rw [cells_target_of_loose hgroup] at hname
      obtain ⟨hcell, hne, hloose⟩ := mem_looseCells.mp hname
      exact ⟨name, hcell, hne, if_neg fun h => hloose h.1⟩
    · rw [cells_target_of_tile hgroup] at hname
      split at hname
      · rename_i hlevel
        rw [List.mem_singleton.mp hname]
        obtain ⟨cell, hmember⟩ := List.exists_mem_of_ne_nil _ htile.members_ne_nil
        obtain ⟨hcell, hne, rfl⟩ := mem_familyOf.mp hmember
        exact ⟨cell, hcell, hne, if_pos ⟨htile, hlevel⟩⟩
      · rename_i hlevel
        obtain ⟨hcell, hne, rfl⟩ := mem_familyOf.mp hname
        exact ⟨name, hcell, hne, if_neg fun h => hlevel h.2⟩
  · rintro ⟨cell, hcell, hne, rfl⟩
    by_cases htile : IsTile cells (parentCell cell)
    · obtain ⟨g, hgroup⟩ := exists_groupOf true htile.members_ne_nil
      refine ⟨g, mem_groupCells.mpr (Or.inr ⟨_, htile, hgroup⟩), ?_⟩
      rw [cells_target_of_tile hgroup, askedName]
      by_cases hlevel : 2 ≤ tileLevel cells (parentCell cell)
      · rw [if_pos hlevel, if_pos ⟨htile, hlevel⟩]
        exact List.mem_singleton_self _
      · rw [if_neg hlevel, if_neg fun h => hlevel h.2]
        exact mem_familyOf.mpr ⟨hcell, hne, rfl⟩
    · have hloose : cell ∈ looseCells cells := mem_looseCells.mpr ⟨hcell, hne, htile⟩
      obtain ⟨g, hgroup⟩ := exists_groupOf false (List.ne_nil_of_mem hloose)
      refine ⟨g, mem_groupCells.mpr (Or.inl hgroup), ?_⟩
      rwa [cells_target_of_loose hgroup, askedName, if_neg fun h => htile h.1]

/-- Within a budget no other names are rendered than without one. -/
theorem renderedCells_subset (groups : List Group) (budget : Option Budget) :
    renderedCells groups budget ⊆ levelCells (queryLevels groups) := by
  rw [renderedCells, budgetedLevels_eq]
  exact (levelCells_takeLevels_isPrefix budget _ 0 (queryLevels groups)).subset

theorem exists_asked_of_mem_renderedCells {budget : Option Budget} {p : Nat × String}
    (h : p ∈ renderedCells (groupCells cells) budget) :
    ∃ cell ∈ cells, cell ≠ "" ∧ askedName cells cell = p.2 := by
  obtain ⟨g, hg, -, hname⟩ := mem_levelCells_queryLevels.mp (renderedCells_subset _ _ h)
  exact exists_mem_target_iff.mp ⟨g, hg, hname⟩

theorem exists_mem_renderedCells {cell : String} (hcell : cell ∈ cells) (hne : cell ≠ "") :
    ∃ level, (level, askedName cells cell) ∈ renderedCells (groupCells cells) none := by
  obtain ⟨g, hg, hname⟩ := exists_mem_target_iff.mpr ⟨cell, hcell, hne, rfl⟩
  refine ⟨g.target.level, ?_⟩
  rw [renderedCells_groupCells_none]
  exact mem_levelCells_queryLevels.mpr ⟨g, hg, rfl, hname⟩

/-! ## Clauses and their frames -/

/-- Wherever it stands, the text leaves no more marks bare than its frame has, in the same order,
and it has as many blanks. -/
structure StaysWithin (text frame : String) : Prop where
  marks : ∀ escaped, ((bareChars escaped text.toList).filter isQueryMark).Sublist
    (frame.toList.filter isQueryMark)
  blanks : text.toList.count ' ' = frame.toList.count ' '

namespace StaysWithin

variable {text frame rest behind piece cell : String}

theorem refl (text : String) : StaysWithin text text where
  marks _ := (bareChars_sublist _ _).filter _
  blanks := rfl

theorem append (h : StaysWithin text frame) (hrest : StaysWithin rest behind) :
    StaysWithin (text ++ rest) (frame ++ behind) where
  marks escaped := by
    rw [String.toList_append, String.toList_append, bareChars_append, List.filter_append,
      List.filter_append]
    exact (h.marks escaped).append (hrest.marks _)
  blanks := by
    rw [String.toList_append, String.toList_append, List.count_append, List.count_append, h.blanks,
      hrest.blanks]

/-- A harmless name brings nothing behind a piece of the frame. -/
theorem append_name (hcell : IsHarmless cell) (filled : piece ≠ "")
    (hback : '\\' ∉ piece.toList) : StaysWithin (piece ++ cell) (piece ++ "") where
  marks escaped := by
    have hpiece : leavesOpen escaped piece.toList = false :=
      leavesOpen_of_filled (by simpa using filled) hback
    have hmarks := hcell.marks
    rw [bareMarks] at hmarks
    rw [String.append_empty, String.toList_append, bareChars_append, hpiece, List.filter_append,
      hmarks, List.append_nil]
    exact (bareChars_sublist _ _).filter _
  blanks := by
    rw [String.append_empty, String.toList_append, List.count_append,
      List.count_eq_zero_of_not_mem hcell.blank, Nat.add_zero]

theorem join {α : Type} {xs : List α} {f g : α → String}
    (h : ∀ x ∈ xs, StaysWithin (f x) (g x)) :
    StaysWithin (String.join (xs.map f)) (String.join (xs.map g)) := by
  induction xs with
  | nil => exact refl ""
  | cons x xs ih =>
      rw [List.forall_mem_cons] at h
      rw [List.map_cons, List.map_cons, String.join_cons, String.join_cons]
      exact h.1.append (ih h.2)

end StaysWithin

/-- A level without the names of its cells. -/
def LevelCells.unnamed (l : LevelCells) : LevelCells :=
  { l with cells := l.cells.map fun _ => "" }

/-- The frame of a map clause: its fields, groups and separators. -/
def clauseFrame (groups : List Group) (budget : Option Budget) : String :=
  renderLevels ((budgetedLevels groups budget).1.map LevelCells.unnamed)

theorem backslash_not_mem_header (l : LevelCells) : '\\' ∉ l.header.toList := by
  rw [toList_header, List.mem_append, List.mem_append, not_or, not_or]
  refine ⟨⟨by decide, ?_⟩, by decide⟩
  intro hmem
  exact absurd (Nat.isDigit_of_mem_toDigits (by decide) (by decide) hmem) (by decide)

theorem header_ne_empty (l : LevelCells) : l.header ≠ "" := by
  intro h
  have hlist := toList_header l
  rw [h] at hlist
  simp at hlist

theorem staysWithin_render {l : LevelCells} (h : ∀ cell ∈ l.cells, IsHarmless cell) :
    StaysWithin l.render l.unnamed.render := by
  rcases hcells : l.cells with _ | ⟨first, _ | ⟨second, rest⟩⟩
  · have hframe : l.unnamed.render = l.render := by
      simp [LevelCells.render, LevelCells.unnamed, LevelCells.header, hcells]
    rw [hframe]
    exact StaysWithin.refl _
  · have hrender : l.render = l.header ++ first := by
      simp [LevelCells.render, hcells]
    have hframe : l.unnamed.render = l.header ++ "" := by
      simp [LevelCells.render, LevelCells.unnamed, LevelCells.header, hcells]
    rw [hrender, hframe]
    exact StaysWithin.append_name (h first (hcells ▸ List.mem_cons_self)) (header_ne_empty l)
      (backslash_not_mem_header l)
  · -- Every name stands behind a piece of the frame: the opening of the group or a separator.
    have hrender : l.render = (l.header ++ "(" ++ first) ++
        String.join ((second :: rest).map (separator ++ ·)) ++ ")" := by
      simp [LevelCells.render, hcells, intercalate_cons, String.append_assoc]
    have hframe : l.unnamed.render = (l.header ++ "(" ++ "") ++
        String.join ((second :: rest).map fun _ => separator ++ "") ++ ")" := by
      simp [LevelCells.render, LevelCells.unnamed, LevelCells.header, hcells, intercalate_cons,
        String.append_assoc]
    rw [hcells, List.forall_mem_cons] at h
    rw [hrender, hframe]
    refine ((StaysWithin.append_name h.1 ?_ ?_).append (StaysWithin.join ?_)).append
      (StaysWithin.refl ")")
    · simp
    · rw [String.toList_append, List.mem_append, not_or]
      exact ⟨backslash_not_mem_header l, by decide⟩
    · exact fun cell hcell => StaysWithin.append_name (h.2 cell hcell) (by decide) (by decide)

theorem staysWithin_renderLevels {levels : List LevelCells}
    (h : ∀ l ∈ levels, ∀ cell ∈ l.cells, IsHarmless cell) :
    StaysWithin (renderLevels levels) (renderLevels (levels.map LevelCells.unnamed)) := by
  have hlevels : ∀ l ∈ levels, StaysWithin l.render l.unnamed.render :=
    fun l hl => staysWithin_render (h l hl)
  rcases levels with _ | ⟨first, _ | ⟨second, rest⟩⟩
  · exact StaysWithin.refl ""
  · exact hlevels first List.mem_cons_self
  · rw [List.forall_mem_cons] at hlevels
    have hjoined : StaysWithin
        (String.join ((second :: rest).map fun l => separator ++ l.render))
        (String.join ((second :: rest).map fun l => separator ++ l.unnamed.render)) :=
      StaysWithin.join fun l hl => (StaysWithin.refl separator).append (hlevels.2 l hl)
    have hgroup := ((StaysWithin.refl "(").append (hlevels.1.append hjoined)).append
      (StaysWithin.refl ")")
    simpa [renderLevels, intercalate_cons, Function.comp_def] using hgroup

/-- A map clause renders harmless names whatever its budget exactly when the names by which the
cells are asked for are harmless. That of a harmless cell is. The marks and blanks of a clause of
harmless names are then those of its frame. -/
theorem mapClause_harmless_iff (cells : List String) :
    (∀ cell ∈ cells, IsHarmless cell → IsHarmless (askedName cells cell)) ∧
      ((∀ budget, ∀ p ∈ renderedCells (groupCells cells) budget, IsHarmless p.2) ↔
        ∀ cell ∈ cells, cell ≠ "" → IsHarmless (askedName cells cell)) ∧
      ∀ budget, (∀ p ∈ renderedCells (groupCells cells) budget, IsHarmless p.2) →
        StaysWithin (mapClause (groupCells cells) budget).text
          (clauseFrame (groupCells cells) budget) := by
  refine ⟨?_, ?_, ?_⟩
  · exact fun cell _ hcell => hcell.of_isPrefix (askedName_isPrefix cells cell)
  · constructor
    · intro h cell hcell hne
      obtain ⟨level, hrendered⟩ := exists_mem_renderedCells hcell hne
      exact h none _ hrendered
    · intro h budget p hp
      obtain ⟨cell, hcell, hne, hname⟩ := exists_asked_of_mem_renderedCells hp
      rw [← hname]
      exact h cell hcell hne
  · intro budget h
    rw [mapClause_eq, clauseFrame]
    exact staysWithin_renderLevels fun l hl cell hcell => h _ (mem_levelCells_of_mem hl hcell)

theorem mapClause_harmless_escapedMark :
    (∀ cell ∈ ["9q\\:", "d1"], cell ≠ "" → IsHarmless (askedName ["9q\\:", "d1"] cell)) ∧
      (mapClause (groupCells ["9q\\:", "d1"]) none).text = "geohash_4:(9q\\: OR d1)" ∧
      StaysWithin (mapClause (groupCells ["9q\\:", "d1"]) none).text "geohash_4:( OR )" := by
  have hnames : ∀ cell ∈ ["9q\\:", "d1"], cell ≠ "" →
      IsHarmless (askedName ["9q\\:", "d1"] cell) := by
    decide +kernel
  have hframe : clauseFrame (groupCells ["9q\\:", "d1"]) none = "geohash_4:( OR )" := by
    decide +kernel
  obtain ⟨-, hrendered, hwithin⟩ := mapClause_harmless_iff ["9q\\:", "d1"]
  exact ⟨hnames, by decide +kernel, hframe ▸ hwithin none (hrendered.mpr hnames none)⟩

/-- A parenthesis in the name of a cell is one of the clause. -/
theorem cell_opens_parenthesis :
    (mapClause (groupCells ["9q("]) none).text = "geohash_3:9q(" ∧
      (3, "9q(") ∈ renderedCells (groupCells ["9q("]) none ∧
      bareMarks "9q(" = ['('] := by
  refine ⟨by decide +kernel, by decide +kernel, by decide +kernel⟩

end FacetedSearch.Geohash
