import FacetedSearch.Proofs.Geohash.Tiles
import Mathlib.Data.List.Pairwise

/-!
# The order of the loose cells

The cells that form no complete group stand family by family, in the order of their parents. This is
the order of their names as long as the cells have one level. Where levels are mixed, a cell may lie
within an earlier sibling of another cell: its name comes first, but its parent comes behind the
parent of the sibling, and so does the cell.
-/

namespace FacetedSearch.Geohash

/-! ## By parent and by name -/

/-- Cells in the order of their parents, and under one parent in the order of their names. -/
def ByParent (cell other : String) : Prop :=
  parentCell cell < parentCell other ∨ parentCell cell = parentCell other ∧ cell < other

/-- A cell lies one level or more within a sibling of another cell, and the sibling comes first. -/
def LiesBefore (deep cell : String) : Prop :=
  ∃ (parent : List Char) (d c : Char) (rest : List Char), d < c ∧ rest ≠ [] ∧
    deep.toList = parent ++ d :: rest ∧ cell.toList = parent ++ [c]

/-- What stands between a text and a continuation of the text continues it as well. -/
theorem exists_append_of_lt {front tail text : List Char} (hfront : ¬ text < front)
    (htext : text < front ++ tail) : ∃ rest, text = front ++ rest ∧ rest < tail := by
  induction front generalizing text with
  | nil => exact ⟨text, rfl, htext⟩
  | cons f front ih =>
      cases text with
      | nil => exact absurd (List.nil_lt_cons f front) hfront
      | cons t text =>
          rw [List.cons_lt_cons_iff, not_or, not_and] at hfront
          rw [List.cons_append, List.cons_lt_cons_iff] at htext
          rcases htext with ht | ⟨rfl, htext⟩
          · exact absurd ht hfront.1
          · obtain ⟨rest, rfl, hrest⟩ := ih (hfront.2 rfl) htext
            exact ⟨rest, rfl, hrest⟩

/-- Two cells have their names in one order and their parents in the other exactly when the first
lies within an earlier sibling of the second. -/
theorem liesBefore_iff {deep cell : String} :
    LiesBefore deep cell ↔ parentCell cell < parentCell deep ∧ deep < cell := by
  rw [String.lt_iff_toList_lt, String.lt_iff_toList_lt, toList_parentCell, toList_parentCell]
  constructor
  · rintro ⟨parent, d, c, rest, hd, hrest, hdeep, hcell⟩
    rw [hdeep, hcell, List.dropLast_concat, List.dropLast_append_cons,
      List.dropLast_cons_of_ne_nil hrest]
    refine ⟨?_, List.append_left_lt (List.cons_lt_cons_iff.mpr (Or.inl hd))⟩
    have hcontinued : parent ++ [] < parent ++ d :: rest.dropLast :=
      List.append_left_lt (List.nil_lt_cons d rest.dropLast)
    rwa [List.append_nil] at hcontinued
  · rintro ⟨hparent, hname⟩
    have hparent_le : ¬ deep.toList < deep.toList.dropLast :=
      List.not_lt.mpr (List.dropLast_prefix deep.toList).le
    have hne : cell ≠ "" := by
      rintro rfl
      exact List.not_lt_nil _ hname
    obtain ⟨c, hc⟩ := exists_last_of_ne_empty hne
    have hcell := (List.dropLast_append_getLast? c hc).symm
    rw [hcell] at hname
    obtain ⟨rest, hdeep, hrest⟩ :=
      exists_append_of_lt (fun h => hparent_le (lt_trans h hparent)) hname
    cases rest with
    | nil =>
        rw [List.append_nil] at hdeep
        exact absurd (hdeep ▸ hparent) hparent_le
    | cons d rest =>
        rw [List.cons_lt_cons_iff] at hrest
        have hd : d < c := hrest.resolve_right fun h => List.not_lt_nil _ h.2
        refine ⟨_, d, c, rest, hd, ?_, hdeep, hcell⟩
        rintro rfl
        rw [hdeep, List.dropLast_concat] at hparent
        exact List.lt_irrefl _ hparent

instance (deep cell : String) : Decidable (LiesBefore deep cell) :=
  decidable_of_iff _ liesBefore_iff.symm

/-! ## The loose cells -/

/-- The loose cells stand in the order of their parents. -/
theorem pairwise_byParent_looseCells (cells : List String) :
    (looseCells cells).Pairwise ByParent := by
  rw [looseCells, families_eq, List.pairwise_flatMap]
  refine ⟨?_, ?_⟩
  · intro f hf
    obtain ⟨parent, -, rfl⟩ := List.mem_map.mp (List.mem_filter.mp hf).1
    refine (pairwise_lt_familyOf cells parent).imp_of_mem ?_
    intro cell other hcell hother hlt
    refine Or.inr ⟨?_, hlt⟩
    rw [(mem_familyOf.mp hcell).2.2, (mem_familyOf.mp hother).2.2]
  · refine List.Pairwise.filter _ (List.pairwise_map.mpr ?_)
    refine (pairwise_lt_sortedSet _).imp ?_
    intro parent parent' hlt cell hcell other hother
    refine Or.inl ?_
    rwa [(mem_familyOf.mp hcell).2.2, (mem_familyOf.mp hother).2.2]

/-- The loose cells ascend exactly when none of them lies within an earlier sibling of another. -/
theorem pairwise_lt_looseCells_iff {cells : List String} :
    (looseCells cells).Pairwise (· < ·) ↔
      ∀ deep ∈ looseCells cells, ∀ cell ∈ looseCells cells, ¬ LiesBefore deep cell := by
  have hparents := pairwise_byParent_looseCells cells
  constructor
  · intro hascends deep hdeep cell hcell
    have hpairs : (looseCells cells).Pairwise fun x y => ¬ LiesBefore x y ∧ ¬ LiesBefore y x := by
      refine (hparents.and hascends).imp ?_
      rintro x y ⟨hby, hlt⟩
      rw [liesBefore_iff, liesBefore_iff]
      refine ⟨fun hbefore => ?_, fun hbefore => lt_asymm hlt hbefore.2⟩
      rcases hby with hparent | ⟨hparent, -⟩
      · exact lt_asymm hparent hbefore.1
      · exact lt_irrefl _ (hparent ▸ hbefore.1)
    have hsymm : Std.Symm fun x y => ¬ LiesBefore x y ∧ ¬ LiesBefore y x :=
      ⟨fun _ _ h => h.symm⟩
    have hself : ∀ x, ¬ LiesBefore x x := fun x h => lt_irrefl x (liesBefore_iff.mp h).2
    exact (hpairs.forall_of_forall (fun x _ => ⟨hself x, hself x⟩) hdeep hcell).1
  · intro hapart
    refine hparents.imp_of_mem ?_
    intro cell other hcell hother hby
    rcases hby with hparent | ⟨-, hlt⟩
    · by_contra hlt
      have hne : other ≠ cell := by
        rintro rfl
        exact lt_irrefl _ hparent
      exact hapart other hother cell hcell
        (liesBefore_iff.mpr ⟨hparent, lt_of_le_of_ne (not_lt.mp hlt) hne⟩)
    · exact hlt

/-- A cell is shorter than what lies within its siblings. -/
theorem LiesBefore.length_lt {deep cell : String} (h : LiesBefore deep cell) :
    cell.length < deep.length := by
  obtain ⟨parent, d, c, rest, -, hrest, hdeep, hcell⟩ := h
  have hpos := List.length_pos_iff.mpr hrest
  rw [← String.length_toList, ← String.length_toList, hdeep, hcell]
  simp only [List.length_append, List.length_cons, List.length_nil]
  omega

/-- Loose cells of one level are in ascending order. -/
theorem pairwise_lt_looseCells_of_length {level : Nat} {cells : List String}
    (h : ∀ cell ∈ cells, cell.length = level) : (looseCells cells).Pairwise (· < ·) := by
  rw [pairwise_lt_looseCells_iff]
  intro deep hdeep cell hcell hbefore
  have hlength := hbefore.length_lt
  rw [h deep (mem_looseCells.mp hdeep).1, h cell (mem_looseCells.mp hcell).1] at hlength
  exact Nat.lt_irrefl level hlength

/-! ## The incomplete group -/

/-- The group of the loose cells is the one that is not complete. -/
theorem incomplete?_groupCells (cells : List String) :
    incomplete? (groupCells cells) = groupOf false (looseCells cells) := by
  rw [incomplete?, groupCells_eq, List.find?_append]
  cases hloose : groupOf false (looseCells cells) with
  | some g =>
      obtain ⟨first, rest, -, rfl⟩ := groupOf_eq_some.mp hloose
      rfl
  | none =>
      rw [Option.toList_none, List.find?_nil, Option.none_or, List.find?_eq_none]
      intro g hg
      obtain ⟨members, -, hgroup⟩ := List.mem_filterMap.mp hg
      obtain ⟨first, rest, -, rfl⟩ := groupOf_eq_some.mp hgroup
      exact Bool.false_ne_true

/-- The incomplete group of a list of cells is in the order of its parents. It is in ascending
order, and its level is the size of its smallest cell, exactly when none of its cells lies within
an earlier sibling of another. -/
theorem incomplete_ascends_iff {cells : List String} {g : Group}
    (h : incomplete? (groupCells cells) = some g) :
    g.cells.Pairwise ByParent ∧
      ((g.cells.Pairwise (· < ·) ∧
          ∀ least ∈ g.cells, (∀ cell ∈ g.cells, least ≤ cell) → g.level = Text.size least) ↔
        ∀ deep ∈ g.cells, ∀ cell ∈ g.cells, ¬ LiesBefore deep cell) := by
  rw [incomplete?_groupCells] at h
  rw [cells_of_groupOf h, ← pairwise_lt_looseCells_iff, and_iff_left_iff_imp]
  refine ⟨pairwise_byParent_looseCells cells, ?_⟩
  intro hascends least hleast hsmallest
  obtain ⟨first, rest, hcells, rfl⟩ := groupOf_eq_some.mp h
  rw [hcells] at hascends hleast hsmallest
  have hfirst : first ≤ least := by
    rcases List.mem_cons.mp hleast with rfl | hrest
    · exact le_refl _
    · exact le_of_lt (List.rel_of_pairwise_cons hascends hrest)
  rw [le_antisymm hfirst (hsmallest first List.mem_cons_self)]

/-- Cells of three levels, two of them one within the other. -/
theorem incomplete_ascends_nested :
    let g : Group := { level := 1, complete := false, cells := ["8", "9b", "9b5"] }
    incomplete? (groupCells ["9b5", "9b", "8", "9b"]) = some g ∧
      (∀ deep ∈ g.cells, ∀ cell ∈ g.cells, ¬ LiesBefore deep cell) ∧
      g.cells.Pairwise (· < ·) ∧ g.level = Text.size "8" := by
  intro g
  have hgroup : incomplete? (groupCells ["9b5", "9b", "8", "9b"]) = some g := by
    decide +kernel
  have hapart : ∀ deep ∈ g.cells, ∀ cell ∈ g.cells, ¬ LiesBefore deep cell := by
    decide +kernel
  obtain ⟨hascends, hlevel⟩ := (incomplete_ascends_iff hgroup).2.mpr hapart
  exact ⟨hgroup, hapart, hascends, hlevel "8" (by decide +kernel) (by decide +kernel)⟩

/-- A cell within an earlier sibling comes behind the cell that it is smaller than. -/
theorem incomplete_puts_larger_first :
    ¬ ∀ (cells : List String) (g : Group), incomplete? (groupCells cells) = some g →
        g.cells.Pairwise (· < ·) ∧
          ∀ least ∈ g.cells, (∀ cell ∈ g.cells, least ≤ cell) → g.level = Text.size least := by
  intro h
  have hascends := (h ["9b5", "9c"] { level := 2, complete := false, cells := ["9c", "9b5"] }
    (by decide +kernel)).1
  revert hascends
  decide +kernel

end FacetedSearch.Geohash
