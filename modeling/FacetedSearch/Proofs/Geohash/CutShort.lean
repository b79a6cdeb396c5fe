import FacetedSearch.Proofs.Geohash.Precision
import Mathlib.Data.List.SplitBy

/-!
# Map clauses that are cut short

The text of a map clause is written from its cells, each with its level, in the order in which they
are rendered. Within a budget these are the first cells of the whole clause, and a clause says that
it was cut short exactly when it does not have them all. A budget that admits more never keeps
fewer cells, whatever levels the cells are on.
-/

namespace FacetedSearch.Geohash

/-! ## Dropped cells -/

section Cells

variable {budget wide : Option Budget} {before : Nat} {joined : Option Nat} {cells : List String}

/-- A cell is dropped exactly when not all cells are taken. -/
theorem dropped_takeCells_iff (budget : Option Budget) (before : Nat) (joined : Option Nat)
    (cells : List String) :
    (takeCells budget before joined cells).2 = true ↔
      (takeCells budget before joined cells).1 ≠ cells := by
  induction cells generalizing joined with
  | nil => simp [takeCells]
  | cons cell rest ih =>
      rw [takeCells]
      split
      · dsimp only
        rw [ih, Ne, Ne, List.cons_inj_right]
      · simp

variable (looser : ∀ built, admits budget built = true → admits wide built = true)

include looser

/-- What one budget takes, a looser one takes as well. -/
theorem takeCells_isPrefix_takeCells (before : Nat) (joined : Option Nat) (cells : List String) :
    (takeCells budget before joined cells).1 <+: (takeCells wide before joined cells).1 := by
  induction cells generalizing joined with
  | nil => exact List.prefix_refl _
  | cons cell rest ih =>
      by_cases hadmits : admits budget (before + joined.getD 0) = true
      · rw [takeCells, takeCells, if_pos hadmits, if_pos (looser _ hadmits)]
        exact List.cons_prefix_cons.mpr ⟨rfl, ih _⟩
      · rw [takeCells, if_neg hadmits]
        exact List.nil_prefix

theorem takeCells_of_looser (h : takeCells budget before joined cells = (cells, false)) :
    takeCells wide before joined cells = (cells, false) := by
  have hall : cells <+: (takeCells wide before joined cells).1 := by
    have hpre := takeCells_isPrefix_takeCells looser before joined cells
    rwa [h] at hpre
  have htaken : (takeCells wide before joined cells).1 = cells :=
    (takeCells_isPrefix wide before joined cells).eq_of_length_le hall.length_le
  apply takeCells_of_not_dropped
  rw [Bool.eq_false_iff, Ne, dropped_takeCells_iff]
  exact not_not.mpr htaken

end Cells

/-! ## Dropped levels -/

/-- The cells of a level that is cut short. -/
theorem levelCells_cut (l : LevelCells) (taken : List String) :
    levelCells (if taken.isEmpty then [] else [{ l with cells := taken }]) =
      taken.map (l.level, ·) := by
  split
  · rename_i hempty
    rw [List.isEmpty_iff.mp hempty]
    rfl
  · rw [levelCells_cons, levelCells_nil, List.append_nil]

section Levels

variable {budget wide : Option Budget} {wrap built : Nat} {levels : List LevelCells}

/-- A cell is dropped exactly when not all cells of the levels are taken. -/
theorem dropped_takeLevels_iff :
    (takeLevels budget wrap built levels).2 = true ↔
      levelCells (takeLevels budget wrap built levels).1 ≠ levelCells levels := by
  induction levels generalizing built with
  | nil => simp [takeLevels]
  | cons l rest ih =>
      by_cases hcells : l.cells = []
      · rw [takeLevels_cons_of_empty budget wrap built rest hcells, ih, levelCells_cons, hcells,
          List.map_nil, List.nil_append]
      · rcases takeCells_whole_or_cut budget (bytesBefore wrap built l) none l.cells with
          hwhole | ⟨taken, hcut⟩
        · rw [takeLevels_cons_of_whole rest hcells hwhole, levelCells_cons, levelCells_cons]
          dsimp only
          rw [ih, Ne, Ne, List.append_right_inj]
        · have hdropped := dropped_takeCells_iff budget (bytesBefore wrap built l) none l.cells
          have hpre := takeCells_isPrefix budget (bytesBefore wrap built l) none l.cells
          rw [hcut] at hdropped hpre
          have hfewer : taken.length < l.cells.length :=
            lt_of_le_of_ne hpre.length_le fun hlength =>
              hdropped.mp rfl (hpre.eq_of_length hlength)
          rw [takeLevels_cons_of_cut rest hcut]
          refine iff_of_true rfl fun hsame => ?_
          have hlength := congrArg List.length hsame
          rw [levelCells_cut, levelCells_cons, List.length_append, List.length_map,
            List.length_map] at hlength
          omega

/-- The levels that are taken are levels that there are, in the same order. -/
theorem level_takeLevels_sublist (budget : Option Budget) (wrap built : Nat)
    (levels : List LevelCells) :
    ((takeLevels budget wrap built levels).1.map (·.level)).Sublist (levels.map (·.level)) := by
  induction levels generalizing built with
  | nil => exact List.Sublist.refl _
  | cons l rest ih =>
      by_cases hcells : l.cells = []
      · rw [takeLevels_cons_of_empty budget wrap built rest hcells]
        exact (ih built).cons l.level
      · rcases takeCells_whole_or_cut budget (bytesBefore wrap built l) none l.cells with
          hwhole | ⟨taken, hcut⟩
        · rw [takeLevels_cons_of_whole rest hcells hwhole]
          exact (ih _).cons_cons l.level
        · rw [takeLevels_cons_of_cut rest hcut]
          split
          · exact List.nil_sublist _
          · exact (List.nil_sublist _).cons_cons l.level

/-- A looser budget takes the same cells and perhaps more. -/
theorem levelCells_takeLevels_isPrefix_of_looser
    (looser : ∀ built, admits budget built = true → admits wide built = true) :
    levelCells (takeLevels budget wrap built levels).1 <+:
      levelCells (takeLevels wide wrap built levels).1 := by
  induction levels generalizing built with
  | nil => exact List.prefix_refl _
  | cons l rest ih =>
      by_cases hcells : l.cells = []
      · rw [takeLevels_cons_of_empty budget wrap built rest hcells,
          takeLevels_cons_of_empty wide wrap built rest hcells]
        exact ih
      · rcases takeCells_whole_or_cut budget (bytesBefore wrap built l) none l.cells with
          hwhole | ⟨taken, hcut⟩
        · rw [takeLevels_cons_of_whole rest hcells hwhole,
            takeLevels_cons_of_whole rest hcells (takeCells_of_looser looser hwhole),
            levelCells_cons, levelCells_cons]
          exact (List.prefix_append_right_inj _).mpr ih
        · rw [takeLevels_cons_of_cut rest hcut, levelCells_cut]
          rcases takeCells_whole_or_cut wide (bytesBefore wrap built l) none l.cells with
            hwhole | ⟨more, hmore⟩
          · have hpre := takeCells_isPrefix budget (bytesBefore wrap built l) none l.cells
            rw [hcut] at hpre
            rw [takeLevels_cons_of_whole rest hcells hwhole, levelCells_cons]
            exact (hpre.map _).trans (List.prefix_append _ _)
          · have hpre := takeCells_isPrefix_takeCells looser (bytesBefore wrap built l) none l.cells
            rw [hcut, hmore] at hpre
            rw [takeLevels_cons_of_cut rest hmore, levelCells_cut]
            exact hpre.map _

end Levels

/-! ## From the cells to the text -/

/-- Cells that stand side by side under one level, as a level. -/
def levelsOf (cells : List (Nat × String)) : List LevelCells :=
  (cells.splitBy (·.1 == ·.1)).map fun run =>
    { level := (run.head?.map Prod.fst).getD 0, cells := run.map Prod.snd }

/-- Levels in ascending order are found again in their cells. -/
theorem levelsOf_levelCells {levels : List LevelCells} (filled : ∀ l ∈ levels, l.cells ≠ [])
    (ascending : levels.Pairwise (·.level < ·.level)) : levelsOf (levelCells levels) = levels := by
  have hruns : (levelCells levels).splitBy (·.1 == ·.1) =
      levels.map fun l => l.cells.map (l.level, ·) := by
    rw [levelCells, List.flatMap_def]
    apply List.splitBy_flatten
    · intro hnil
      obtain ⟨l, hl, hcells⟩ := List.mem_map.mp hnil
      exact filled l hl (List.map_eq_nil_iff.mp hcells)
    · intro run hrun
      obtain ⟨l, -, rfl⟩ := List.mem_map.mp hrun
      apply List.Pairwise.isChain
      rw [List.pairwise_map]
      exact List.pairwise_of_forall fun _ _ => beq_self_eq_true l.level
    · apply List.Pairwise.isChain
      rw [List.pairwise_map]
      refine ascending.imp_of_mem ?_
      intro l other hl hother hlt
      refine ⟨by simpa using filled l hl, by simpa using filled other hother, ?_⟩
      simp [Nat.ne_of_lt hlt]
  rw [levelsOf, hruns, List.map_map]
  calc
    _ = levels.map id := by
      apply List.map_congr_left
      intro l hl
      obtain ⟨first, rest, hcells⟩ := List.exists_cons_of_ne_nil (filled l hl)
      obtain ⟨level, cells⟩ := l
      simp_all [Function.comp_def]
    _ = levels := List.map_id levels

theorem pairwise_level_queryLevels (groups : List Group) :
    (queryLevels groups).Pairwise (·.level < ·.level) := by
  rw [queryLevels_eq, List.pairwise_map]
  exact pairwise_lt_sortedSet _

/-- The text of a map clause is written from the cells that it renders. -/
theorem text_mapClause_eq (groups : List Group) (budget : Option Budget) :
    (mapClause groups budget).text = renderLevels (levelsOf (renderedCells groups budget)) := by
  have hlevels := level_takeLevels_sublist budget (groupMark (queryLevels groups)) 0
    (queryLevels groups)
  have hascending := (List.pairwise_map.mpr (pairwise_level_queryLevels groups)).sublist hlevels
  rw [mapClause_eq, renderedCells, budgetedLevels_eq,
    levelsOf_levelCells (takeLevels_filled _ _ _ _) (List.pairwise_map.mp hascending)]

/-! ## The clause of some cells -/

theorem admits_of_looser {budget wide : Budget} (limit : budget.limit ≤ wide.limit)
    (offset : wide.offset ≤ budget.offset) (built : Nat)
    (h : admits (some budget) built = true) : admits (some wide) built = true := by
  simp only [admits, decide_eq_true_eq] at h ⊢
  omega

/-- Within a budget the clause of some cells renders the first of the cells that it renders without
one, and says that it was cut short exactly when these are not all; otherwise it is the same text.
A higher limit or less text in front of the clause never leaves fewer cells. In all of this a
clause is known by the sequence of its cells with their levels: its text is written from this
sequence, and the text of cells of the grid is read back as the sequence. -/
theorem mapClause_cut_short (cells : List String) (budget : Budget) :
    let groups := groupCells cells
    let whole := renderedCells groups none
    let kept := renderedCells groups (some budget)
    (∀ budget?, (mapClause groups budget?).text =
        renderLevels (levelsOf (renderedCells groups budget?))) ∧
      ((∀ cell ∈ cells, IsCell cell) → ∀ budget?,
        readClause? (mapClause groups budget?).text = some (renderedCells groups budget?)) ∧
      kept <+: whole ∧
      ((mapClause groups (some budget)).truncated = true ↔ kept ≠ whole) ∧
      (∀ wide : Budget, budget.limit ≤ wide.limit → wide.offset ≤ budget.offset →
        kept.length ≤ (renderedCells groups (some wide)).length) ∧
      ((mapClause groups (some budget)).truncated = false →
        (mapClause groups (some budget)).text = (mapClause groups none).text) := by
  intro groups whole kept
  have hwhole : whole = levelCells (queryLevels groups) := renderedCells_groupCells_none cells
  refine ⟨text_mapClause_eq groups, readClause?_groupCells,
    renderedCells_groupCells_isPrefix cells (some budget), ?_, ?_, ?_⟩
  · rw [hwhole]
    exact dropped_takeLevels_iff
  · intro wide limit offset
    exact (levelCells_takeLevels_isPrefix_of_looser (admits_of_looser limit offset)).length_le
  · intro h
    rw [mapClause_of_not_truncated h]

/-- A tile and two cells of a lower level, with room for the tile alone, for one cell more and for
everything. -/
theorem mapClause_cut_short_tile_and_cells :
    let cells := "c2b2" :: "d1b2" :: subcells "9"
    let groups := groupCells cells
    let narrow : Budget := { offset := 0, limit := 26 }
    let wide : Budget := { offset := 0, limit := 30 }
    let roomy : Budget := { offset := 0, limit := 31 }
    (∀ cell ∈ cells, IsCell cell) ∧
      readClause? (mapClause groups (some narrow)).text = some [(1, "9")] ∧
      renderedCells groups (some narrow) = [(1, "9")] ∧
      (mapClause groups (some narrow)).truncated = true ∧
      (mapClause groups (some wide)).text = "(geohash_1:9 OR geohash_4:c2b2)" ∧
      1 ≤ (renderedCells groups (some wide)).length ∧
      (mapClause groups (some roomy)).truncated = false ∧
      (mapClause groups (some roomy)).text = (mapClause groups none).text := by
  intro cells groups narrow wide roomy
  have hcells : ∀ cell ∈ cells, IsCell cell := by
    decide +kernel
  have hgroups : groups = [
      { level := 4, complete := false, cells := ["c2b2", "d1b2"] },
      { level := 2, complete := true, cells := subcells "9" }] := by
    decide +kernel
  have hnarrow : renderedCells groups (some narrow) = [(1, "9")] := by
    rw [hgroups]
    decide +kernel
  have hfewer : renderedCells groups (some narrow) ≠ renderedCells groups none := by
    rw [hgroups]
    decide +kernel
  have hwide : (mapClause groups (some wide)).text = "(geohash_1:9 OR geohash_4:c2b2)" := by
    rw [hgroups]
    decide +kernel
  have hroomy : (mapClause groups (some roomy)).truncated = false := by
    rw [hgroups]
    decide +kernel
  obtain ⟨-, hread, -, hcut, hmono, -⟩ := mapClause_cut_short cells narrow
  obtain ⟨-, -, -, -, -, hsame⟩ := mapClause_cut_short cells roomy
  have hmore : (renderedCells groups (some narrow)).length ≤
      (renderedCells groups (some wide)).length :=
    hmono wide (by decide) (by decide)
  have hback := hread hcells (some narrow)
  rw [hnarrow] at hmore hback
  exact ⟨hcells, hback, hnarrow, hcut.mpr hfewer, hwide, hmore, hroomy, hsame hroomy⟩

end FacetedSearch.Geohash
