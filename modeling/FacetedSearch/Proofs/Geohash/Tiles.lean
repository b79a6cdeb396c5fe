import FacetedSearch.Proofs.Geohash.Grouping
import Mathlib.Data.List.Perm.Subperm

/-!
# Tiles

A group is complete when 32 cells share a parent, whatever their names are. The names differ in
their last characters, and the alphabet has only 32 of them: where all the last characters are in
the alphabet, they are the alphabet. A character from elsewhere may stand in for a missing cell, and
as a thirty-third member it keeps the cells of a parent from being complete.
-/

namespace FacetedSearch.Geohash

/-! ## Parents -/

theorem toList_parentCell (cell : String) : (parentCell cell).toList = cell.toList.dropLast :=
  String.toList_ofList

theorem parentCell_isPrefix (cell : String) : (parentCell cell).toList <+: cell.toList := by
  rw [toList_parentCell]
  exact List.dropLast_prefix cell.toList

theorem exists_last_of_ne_empty {cell : String} (h : cell ≠ "") :
    ∃ c, cell.toList.getLast? = some c := by
  rw [← Option.isSome_iff_exists, List.getLast?_isSome]
  simpa using h

/-- A cell is its parent with its last character behind it. -/
theorem push_parentCell {cell : String} {c : Char} (h : cell.toList.getLast? = some c) :
    (parentCell cell).push c = cell := by
  rw [← String.toList_inj, String.toList_push, toList_parentCell, List.dropLast_append_getLast? c h]

theorem parentCell_push (parent : String) (c : Char) : parentCell (parent.push c) = parent := by
  rw [← String.toList_inj, toList_parentCell, String.toList_push, List.dropLast_concat]

theorem getLast?_push (parent : String) (c : Char) :
    (parent.push c).toList.getLast? = some c := by
  rw [String.toList_push, List.getLast?_concat]

theorem push_ne_empty (parent : String) (c : Char) : parent.push c ≠ "" := by
  intro h
  simpa [h] using getLast?_push parent c

theorem push_injective (parent : String) : Function.Injective (parent.push ·) := by
  intro c d h
  have hpush : parent.push c = parent.push d := h
  have hlast := getLast?_push parent c
  rw [hpush, getLast?_push] at hlast
  exact (Option.some.inj hlast).symm

/-- The cells one level down from a cell. -/
def subcells (parent : String) : List String :=
  alphabet.toList.map (parent.push ·)

/-! ## Last characters -/

section Tiles

variable {cells : List String} {parent : String}

/-- The last characters of the cells that share a parent. -/
def lastsOf (cells : List String) (parent : String) : List Char :=
  (familyOf cells parent).members.filterMap (·.toList.getLast?)

theorem mem_lastsOf {c : Char} : c ∈ lastsOf cells parent ↔ parent.push c ∈ cells := by
  rw [lastsOf, List.mem_filterMap]
  constructor
  · rintro ⟨cell, hmember, hlast⟩
    obtain ⟨hcell, -, rfl⟩ := mem_familyOf.mp hmember
    rwa [push_parentCell hlast]
  · intro hcell
    exact ⟨parent.push c,
      mem_familyOf.mpr ⟨hcell, push_ne_empty parent c, parentCell_push parent c⟩,
      getLast?_push parent c⟩

theorem map_push_lastsOf (cells : List String) (parent : String) :
    (lastsOf cells parent).map (parent.push ·) = (familyOf cells parent).members := by
  rw [lastsOf, List.map_filterMap]
  calc
    _ = (familyOf cells parent).members.filterMap some := by
      apply List.filterMap_congr
      intro cell hmember
      obtain ⟨-, hne, rfl⟩ := mem_familyOf.mp hmember
      obtain ⟨c, hc⟩ := exists_last_of_ne_empty hne
      rw [hc, Option.map_some, push_parentCell hc]
    _ = (familyOf cells parent).members := List.filterMap_some

theorem nodup_lastsOf (cells : List String) (parent : String) :
    (lastsOf cells parent).Nodup := by
  apply List.Nodup.of_map (parent.push ·)
  rw [map_push_lastsOf]
  exact nodup_familyOf cells parent

theorem isTile_iff : IsTile cells parent ↔ (lastsOf cells parent).length = branching := by
  rw [IsTile, Family.isTile, beq_iff_eq, ← map_push_lastsOf, List.length_map]

theorem length_alphabet : alphabet.toList.length = branching := by
  decide

theorem nodup_alphabet : alphabet.toList.Nodup := by
  decide

/-- Where the last characters of a tile are in the alphabet, they are the alphabet: they are as many
as the alphabet has characters, and all different. -/
theorem IsTile.lastsOf_perm (htile : IsTile cells parent)
    (hlasts : lastsOf cells parent ⊆ alphabet.toList) :
    (lastsOf cells parent).Perm alphabet.toList := by
  apply ((nodup_lastsOf cells parent).subperm hlasts).perm_of_length_le
  rw [length_alphabet, isTile_iff.mp htile]

/-- The last characters are the alphabet when all cells of the parent are there and nothing else
is. -/
theorem lastsOf_perm_iff (hcells : ∀ cell ∈ subcells parent, cell ∈ cells) :
    (lastsOf cells parent).Perm alphabet.toList ↔ lastsOf cells parent ⊆ alphabet.toList := by
  constructor
  · exact fun hperm => hperm.subset
  · intro hlasts
    rw [List.perm_ext_iff_of_nodup (nodup_lastsOf cells parent) nodup_alphabet]
    intro c
    refine ⟨fun hc => hlasts hc, fun hc => ?_⟩
    exact mem_lastsOf.mpr (hcells _ (List.mem_map_of_mem hc))

/-! ## Complete groups -/

theorem complete_of_groupOf {complete : Bool} {members : List String} {g : Group}
    (h : groupOf complete members = some g) : g.complete = complete := by
  obtain ⟨first, rest, rfl, rfl⟩ := groupOf_eq_some.mp h
  rfl

/-- The complete groups are the tiles. -/
theorem exists_tile_of_complete {g : Group} (hg : g ∈ groupCells cells)
    (hcomplete : g.complete = true) :
    ∃ parent, IsTile cells parent ∧ groupOf true (familyOf cells parent).members = some g := by
  refine (mem_groupCells.mp hg).resolve_left fun hloose => ?_
  rw [complete_of_groupOf hloose] at hcomplete
  exact Bool.false_ne_true hcomplete

/-- A complete group of all the cells one level down from a parent and of no others. -/
def Group.IsTileOf (g : Group) (parent : String) : Prop :=
  g.complete = true ∧ g.cells.Perm (subcells parent)

instance (g : Group) (parent : String) : Decidable (g.IsTileOf parent) :=
  inferInstanceAs (Decidable (_ ∧ _))

theorem isTileOf_iff_lastsOf {g : Group}
    (h : groupOf true (familyOf cells parent).members = some g) :
    g.IsTileOf parent ↔ (lastsOf cells parent).Perm alphabet.toList := by
  rw [Group.IsTileOf, complete_of_groupOf h, cells_of_groupOf h, ← map_push_lastsOf, subcells,
    List.map_perm_map_iff (push_injective parent), eq_self, true_and]

/-- A group of all the cells of a parent is the group of the family. -/
theorem Group.IsTileOf.groupOf_familyOf {g : Group} (h : g.IsTileOf parent)
    (hg : g ∈ groupCells cells) : groupOf true (familyOf cells parent).members = some g := by
  obtain ⟨other, htile, hgroup⟩ := exists_tile_of_complete hg h.1
  obtain ⟨cell, hcell⟩ := List.exists_mem_of_ne_nil _ htile.members_ne_nil
  obtain ⟨-, -, hother⟩ := mem_familyOf.mp hcell
  rw [← cells_of_groupOf hgroup] at hcell
  obtain ⟨c, -, rfl⟩ := List.mem_map.mp (h.2.subset hcell)
  rwa [← hother, parentCell_push] at hgroup

/-- No cell stands in two groups. -/
theorem pairwise_disjoint_groupCells (cells : List String) :
    (groupCells cells).Pairwise fun g h => g.cells.Disjoint h.cells := by
  rw [groupCells_eq, List.pairwise_append]
  refine ⟨?_, ?_, ?_⟩
  · cases groupOf false (looseCells cells) with
    | none => exact List.Pairwise.nil
    | some g => exact List.pairwise_singleton _ g
  · rw [tileGroups, List.pairwise_filterMap, List.pairwise_map, families_eq]
    refine List.Pairwise.filter _ (List.pairwise_map.mpr ?_)
    refine (pairwise_lt_sortedSet _).imp ?_
    intro parent other hlt g hg h hh cell hcell hcell'
    rw [cells_of_groupOf hg] at hcell
    rw [cells_of_groupOf hh] at hcell'
    obtain ⟨-, -, rfl⟩ := mem_familyOf.mp hcell
    exact ne_of_lt hlt (mem_familyOf.mp hcell').2.2
  · intro g hg h hh cell hcell hcell'
    obtain ⟨parent, htile, hgroup⟩ := mem_tileGroups.mp hh
    rw [cells_of_groupOf (Option.mem_toList.mp hg)] at hcell
    rw [cells_of_groupOf hgroup] at hcell'
    obtain ⟨-, -, rfl⟩ := mem_familyOf.mp hcell'
    exact (mem_looseCells.mp hcell).2.2 htile

theorem nodup_groupCells (cells : List String) : (groupCells cells).Nodup := by
  refine (pairwise_disjoint_groupCells cells).imp_of_mem ?_
  rintro g _ hg - hdisjoint rfl
  obtain ⟨cell, hcell⟩ := List.exists_mem_of_ne_nil _ (groupCells_filled hg)
  exact hdisjoint hcell hcell

/-- A parent has a complete group of all its cells exactly when the characters behind it are the
alphabet, and it never has two. -/
theorem countP_isTileOf (cells : List String) (parent : String) :
    (groupCells cells).countP (·.IsTileOf parent) =
      if (lastsOf cells parent).Perm alphabet.toList then 1 else 0 := by
  split
  · rename_i hperm
    have htile : IsTile cells parent := by
      rw [isTile_iff, hperm.length_eq, length_alphabet]
    obtain ⟨g, hgroup⟩ := exists_groupOf true htile.members_ne_nil
    have hg : g ∈ groupCells cells := mem_groupCells.mpr (Or.inr ⟨parent, htile, hgroup⟩)
    rw [← List.count_eq_one_of_mem (nodup_groupCells cells) hg, List.count]
    apply List.countP_congr
    intro h hh
    rw [decide_eq_true_iff, beq_iff_eq]
    constructor
    · intro hof
      exact Option.some.inj ((hof.groupOf_familyOf hh).symm.trans hgroup)
    · rintro rfl
      exact (isTileOf_iff_lastsOf hgroup).mpr hperm
  · rename_i hperm
    rw [List.countP_eq_zero]
    intro g hg hof
    rw [decide_eq_true_iff] at hof
    exact hperm ((isTileOf_iff_lastsOf (hof.groupOf_familyOf hg)).mp hof)

end Tiles

/-- A complete group has the cells that are there one character behind a parent, 32 of them. They
are the cells one level down from the parent exactly when these characters are in the alphabet.
Where all the cells one level down from a parent are there, they have one complete group of their
own exactly when no character from elsewhere stands behind the parent. -/
theorem complete_isTileOf_iff (cells : List String) :
    (∀ g ∈ groupCells cells, g.complete = true →
        ∃ (parent : String) (lasts : List Char), lasts.Nodup ∧ lasts.length = branching ∧
          g.cells = lasts.map (parent.push ·) ∧ (∀ c, c ∈ lasts ↔ parent.push c ∈ cells) ∧
          (g.IsTileOf parent ↔ lasts ⊆ alphabet.toList)) ∧
      ∀ parent, (∀ cell ∈ subcells parent, cell ∈ cells) →
        ((groupCells cells).countP (·.IsTileOf parent) = 1 ↔
          ∀ c, parent.push c ∈ cells → c ∈ alphabet.toList) := by
  refine ⟨?_, ?_⟩
  · intro g hg hcomplete
    obtain ⟨parent, htile, hgroup⟩ := exists_tile_of_complete hg hcomplete
    refine ⟨parent, lastsOf cells parent, nodup_lastsOf cells parent, isTile_iff.mp htile, ?_,
      fun c => mem_lastsOf, ?_⟩
    · rw [cells_of_groupOf hgroup, map_push_lastsOf]
    · rw [isTileOf_iff_lastsOf hgroup]
      exact ⟨fun hperm => hperm.subset, htile.lastsOf_perm⟩
  · intro parent hcells
    have hlasts : lastsOf cells parent ⊆ alphabet.toList ↔
        ∀ c, parent.push c ∈ cells → c ∈ alphabet.toList :=
      forall_congr' fun c => imp_congr_left mem_lastsOf
    rw [countP_isTileOf, ← hlasts, ← lastsOf_perm_iff hcells]
    simp

/-- A tile beside loose cells, one of them below the tile. -/
theorem complete_isTileOf_tile_and_cells :
    let cells := "9qz" :: "c2b2" :: subcells "9"
    let tile : Group := { level := 2, complete := true, cells := subcells "9" }
    tile ∈ groupCells cells ∧ tile.complete = true ∧
      (∃ (parent : String) (lasts : List Char), lasts.Nodup ∧ lasts.length = branching ∧
        tile.cells = lasts.map (parent.push ·)) ∧
      (∀ cell ∈ subcells "9", cell ∈ cells) ∧
      (∀ c, "9".push c ∈ cells → c ∈ alphabet.toList) ∧
      (groupCells cells).countP (·.IsTileOf "9") = 1 := by
  intro cells tile
  have htile : tile ∈ groupCells cells := by
    decide +kernel
  have hcells : ∀ cell ∈ subcells "9", cell ∈ cells := fun cell hcell =>
    List.mem_cons_of_mem _ (List.mem_cons_of_mem _ hcell)
  have hlasts : (lastsOf cells "9").all (· ∈ alphabet.toList) = true := by
    decide +kernel
  have halphabet : ∀ c, "9".push c ∈ cells → c ∈ alphabet.toList := fun c hc =>
    of_decide_eq_true (List.all_eq_true.mp hlasts c (mem_lastsOf.mpr hc))
  obtain ⟨hsound, hfound⟩ := complete_isTileOf_iff cells
  obtain ⟨parent, lasts, hnodup, hlength, hmembers, -⟩ := hsound tile htile rfl
  exact ⟨htile, rfl, ⟨parent, lasts, hnodup, hlength, hmembers⟩, hcells, halphabet,
    (hfound "9" hcells).mpr halphabet⟩

/-- A name with a character from elsewhere makes a complete group in place of a missing cell, and
breaks one as a further cell. -/
theorem foreign_cell_makes_and_breaks_tile :
    (¬ ∀ (cells : List String) (g : Group), g ∈ groupCells cells → g.complete = true →
        ∃ parent, g.IsTileOf parent) ∧
      ¬ ∀ (cells : List String) (parent : String), (∀ cell ∈ subcells parent, cell ∈ cells) →
        (groupCells cells).countP (·.IsTileOf parent) = 1 := by
  refine ⟨?_, ?_⟩
  · intro h
    -- The members are all the cells below `9q` but the last, and one that is no cell.
    have hgroup :
        { level := 3, complete := true, cells := sortedSet ("9qZ" :: (subcells "9q").dropLast) } ∈
          groupCells ("9qZ" :: (subcells "9q").dropLast) := by
      decide +kernel
    obtain ⟨parent, -, hperm⟩ := h _ _ hgroup rfl
    have hforeign : "9qZ" ∈ subcells parent := hperm.subset (by decide +kernel)
    obtain ⟨c, hc, hpush⟩ := List.mem_map.mp hforeign
    have hlast := getLast?_push parent c
    rw [hpush] at hlast
    obtain rfl : 'Z' = c := Option.some.inj hlast
    exact absurd hc (by decide)
  · intro h
    have hone := h ("9qZ" :: subcells "9q") "9q" fun cell hcell => List.mem_cons_of_mem _ hcell
    revert hone
    decide +kernel

end FacetedSearch.Geohash
