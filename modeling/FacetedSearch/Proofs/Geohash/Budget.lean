import FacetedSearch.Geohash.Clause
import FacetedSearch.Proofs.Text.Join

/-!
# The map clause within a budget

The running length that decides whether a cell is admitted is the length of the clause up to that
cell, if all levels are rendered. So cells are dropped only where the whole clause would be too
long, and the clause that is left exceeds the limit by its last cell and six bytes at most: a
separator in front of that cell, the parenthesis behind its level and the one behind the levels.
-/

namespace FacetedSearch.Geohash

open Text

/-! ## Cells of one level -/

/-- The bytes of the cells joined so far once the given cells have been added. -/
def joinedWith : Option Nat → List String → Nat
  | none, cells => size (separator.intercalate cells)
  | some joined, cells => joined + size (String.join (cells.map (separator ++ ·)))

theorem joinedWith_nil (joined : Option Nat) : joinedWith joined [] = joined.getD 0 := by
  cases joined <;> simp [joinedWith]

theorem joinedWith_cons (joined : Option Nat) (cell : String) (rest : List String) :
    joinedWith joined (cell :: rest) = joinedWith (some (joinedSize joined cell)) rest := by
  cases joined with
  | none =>
      simp only [joinedWith, joinedSize, intercalate_cons, size_append]
  | some n =>
      simp only [joinedWith, joinedSize, List.map_cons, String.join_cons,
        size_append]
      omega

theorem le_joinedSize (joined : Option Nat) (cell : String) :
    joined.getD 0 ≤ joinedSize joined cell := by
  cases joined with
  | none => exact Nat.zero_le _
  | some n =>
      simp only [joinedSize, Option.getD_some]
      omega

theorem joinedSize_le (joined : Option Nat) (cell : String) :
    joinedSize joined cell ≤ joined.getD 0 + size separator + size cell := by
  cases joined with
  | none =>
      simp only [joinedSize]
      omega
  | some n => exact Nat.le_refl _

theorem le_joinedWith (joined : Option Nat) (cells : List String) :
    joined.getD 0 ≤ joinedWith joined cells := by
  induction cells generalizing joined with
  | nil => exact Nat.le_of_eq (joinedWith_nil joined).symm
  | cons cell rest ih =>
      rw [joinedWith_cons]
      exact Nat.le_trans (le_joinedSize joined cell) (ih (some (joinedSize joined cell)))

theorem takeCells_isPrefix (budget : Option Budget) (before : Nat) (joined : Option Nat)
    (cells : List String) : (takeCells budget before joined cells).1 <+: cells := by
  induction cells generalizing joined with
  | nil => exact List.prefix_refl _
  | cons cell rest ih =>
      rw [takeCells]
      split
      · exact List.cons_prefix_cons.mpr ⟨rfl, ih _⟩
      · exact List.nil_prefix

/-- Without a dropped cell all cells are taken. -/
theorem takeCells_of_not_dropped {budget : Option Budget} {before : Nat} {joined : Option Nat}
    {cells : List String} (h : (takeCells budget before joined cells).2 = false) :
    takeCells budget before joined cells = (cells, false) := by
  induction cells generalizing joined with
  | nil => rfl
  | cons cell rest ih =>
      rw [takeCells] at h ⊢
      split at h
      · rename_i hadmits
        simp only [hadmits, if_true, ih h]
      · exact absurd h (by simp)

/-- No cell is dropped without a budget. -/
theorem takeCells_none (before : Nat) (joined : Option Nat) (cells : List String) :
    takeCells none before joined cells = (cells, false) := by
  induction cells generalizing joined with
  | nil => rfl
  | cons cell rest ih => simp only [takeCells, admits, if_true, ih]

/-- No cell is dropped while the joined cells stay within the limit. -/
theorem takeCells_of_fits {budget : Budget} {before : Nat} {joined : Option Nat}
    {cells : List String}
    (h : budget.offset + before + joinedWith joined cells ≤ budget.limit) :
    takeCells (some budget) before joined cells = (cells, false) := by
  induction cells generalizing joined with
  | nil => rfl
  | cons cell rest ih =>
      have hadmits : admits (some budget) (before + joined.getD 0) = true := by
        have hle := le_joinedWith joined (cell :: rest)
        simp only [admits, decide_eq_true_eq]
        omega
      rw [joinedWith_cons] at h
      simp only [takeCells, hadmits, if_true, ih h]

/-- The joined cells exceed the limit by the last of them and the separator in front of it at
most. -/
theorem takeCells_joined_le {budget : Budget} {before : Nat} {joined : Option Nat}
    {cells taken : List String} {last : String}
    (htaken : (takeCells (some budget) before joined cells).1 = taken)
    (hlast : taken.getLast? = some last) :
    budget.offset + before + joinedWith joined taken ≤
      budget.limit + size separator + size last := by
  induction cells generalizing joined taken with
  | nil =>
      subst htaken
      simp [takeCells] at hlast
  | cons cell rest ih =>
      rw [takeCells] at htaken
      split at htaken
      · rename_i hadmits
        simp only [admits, decide_eq_true_eq] at hadmits
        subst htaken
        rw [joinedWith_cons]
        cases hmore : (takeCells (some budget) before (some (joinedSize joined cell)) rest).1 with
        | nil =>
            simp only [hmore, List.getLast?_singleton, Option.some.injEq] at hlast
            have hsize := joinedSize_le joined cell
            rw [joinedWith_nil, Option.getD_some]
            subst hlast
            omega
        | cons next more =>
            refine ih hmore ?_
            simpa only [hmore, List.getLast?_cons_cons] using hlast
      · subst htaken
        simp at hlast

/-! ## Levels -/

/-- The parentheses of a list of which several members are rendered. -/
def groupMark {α : Type} (members : List α) : Nat :=
  if 1 < members.length then 1 else 0

theorem groupMark_le_one {α : Type} (members : List α) : groupMark members ≤ 1 := by
  rw [groupMark]
  split <;> omega

theorem groupMark_mono {α β : Type} {xs : List α} {ys : List β} (h : xs.length ≤ ys.length) :
    groupMark xs ≤ groupMark ys := by
  unfold groupMark
  split <;> split <;> omega

/-- The bytes of rendered levels, each with the separator behind it. -/
def levelsSize : List LevelCells → Nat
  | [] => 0
  | l :: levels => size l.render + size separator + levelsSize levels

@[simp] theorem levelsSize_nil : levelsSize [] = 0 := rfl

@[simp] theorem levelsSize_cons (l : LevelCells) (levels : List LevelCells) :
    levelsSize (l :: levels) = size l.render + size separator + levelsSize levels := rfl

/-- The bytes of a level: its field, its cells, and parentheses around several cells. -/
theorem size_render {l : LevelCells} (filled : l.cells ≠ []) :
    size l.render = size l.header + joinedWith none l.cells + 2 * groupMark l.cells := by
  rw [LevelCells.render]
  split
  · rename_i only honly
    simp [honly, joinedWith, groupMark]
  · rename_i hseveral
    have hlength : 1 < l.cells.length := by
      rcases hcells : l.cells with _ | ⟨first, _ | ⟨second, more⟩⟩
      · exact absurd hcells filled
      · exact absurd hcells (hseveral first)
      · simp
    have hopen : size "(" = 1 := rfl
    have hclose : size ")" = 1 := rfl
    simp only [joinedWith, groupMark, hlength, if_true, size_append, hopen, hclose]
    omega

theorem levelsSize_eq (levels : List LevelCells) :
    levelsSize levels =
      size (String.join ((levels.map LevelCells.render).map (· ++ separator))) := by
  induction levels with
  | nil => rfl
  | cons l levels ih =>
      rw [levelsSize_cons, ih, List.map_cons, List.map_cons, String.join_cons, size_append,
        size_append]

theorem size_renderLevels {levels : List LevelCells} (filled : levels ≠ []) :
    size (renderLevels levels) + size separator = levelsSize levels + 2 * groupMark levels := by
  rcases levels with _ | ⟨first, _ | ⟨second, more⟩⟩
  · exact absurd rfl filled
  · simp [renderLevels, groupMark]
  · have hmap : (first :: second :: more).map LevelCells.render ≠ [] := by simp
    have hjoined := congrArg size (intercalate_append_sep separator hmap)
    have hopen : size "(" = 1 := rfl
    have hclose : size ")" = 1 := rfl
    rw [← levelsSize_eq, size_append] at hjoined
    have hmark : groupMark (first :: second :: more) = 1 := by simp [groupMark]
    simp only [renderLevels, size_append, hopen, hclose, hmark]
    omega

/-- The bytes in front of the first cell of a level. -/
def bytesBefore (wrap built : Nat) (l : LevelCells) : Nat :=
  wrap + built + size l.header + groupMark l.cells

/-! The three ways in which a level is taken. -/

theorem takeLevels_cons_of_empty (budget : Option Budget) (wrap built : Nat) {l : LevelCells}
    (rest : List LevelCells) (h : l.cells = []) :
    takeLevels budget wrap built (l :: rest) = takeLevels budget wrap built rest := by
  simp [takeLevels, h, takeCells]

theorem takeLevels_cons_of_whole {budget : Option Budget} {wrap built : Nat} {l : LevelCells}
    (rest : List LevelCells) (filled : l.cells ≠ [])
    (h : takeCells budget (bytesBefore wrap built l) none l.cells = (l.cells, false)) :
    takeLevels budget wrap built (l :: rest) =
      (l :: (takeLevels budget wrap (built + size l.render + size separator) rest).1,
        (takeLevels budget wrap (built + size l.render + size separator) rest).2) := by
  have hcells : l.cells.isEmpty = false := by simpa using filled
  unfold bytesBefore groupMark at h
  simp only [takeLevels, h, hcells, Bool.false_eq_true, if_false]

theorem takeLevels_cons_of_cut {budget : Option Budget} {wrap built : Nat} {l : LevelCells}
    {taken : List String} (rest : List LevelCells)
    (h : takeCells budget (bytesBefore wrap built l) none l.cells = (taken, true)) :
    takeLevels budget wrap built (l :: rest) =
      (if taken.isEmpty then [] else [{ l with cells := taken }], true) := by
  unfold bytesBefore groupMark at h
  simp only [takeLevels, h, if_true]
  split <;> rfl

theorem takeCells_whole_or_cut (budget : Option Budget) (before : Nat) (joined : Option Nat)
    (cells : List String) :
    takeCells budget before joined cells = (cells, false) ∨
      ∃ taken, takeCells budget before joined cells = (taken, true) := by
  cases hdropped : (takeCells budget before joined cells).2 with
  | false => exact Or.inl (takeCells_of_not_dropped hdropped)
  | true => exact Or.inr ⟨_, Prod.ext rfl hdropped⟩

/-- Without a dropped cell every level is taken; a level without cells is left out. -/
theorem takeLevels_of_not_dropped {budget : Option Budget} {wrap built : Nat}
    {levels : List LevelCells} (h : (takeLevels budget wrap built levels).2 = false) :
    takeLevels budget wrap built levels = (levels.filter (!·.cells.isEmpty), false) := by
  induction levels generalizing built with
  | nil => rfl
  | cons l rest ih =>
      by_cases hcells : l.cells = []
      · rw [takeLevels_cons_of_empty budget wrap built rest hcells] at h ⊢
        rw [ih h, List.filter_cons_of_neg (by simp [hcells])]
      · rcases takeCells_whole_or_cut budget (bytesBefore wrap built l) none l.cells with
          hwhole | ⟨taken, hcut⟩
        · rw [takeLevels_cons_of_whole rest hcells hwhole] at h ⊢
          rw [ih h, List.filter_cons_of_pos (by simpa using hcells)]
        · rw [takeLevels_cons_of_cut rest hcut] at h
          exact absurd h (by simp)

/-- No cell is dropped without a budget. -/
theorem takeLevels_none (wrap built : Nat) (levels : List LevelCells) :
    takeLevels none wrap built levels = (levels.filter (!·.cells.isEmpty), false) := by
  apply takeLevels_of_not_dropped
  induction levels generalizing built with
  | nil => rfl
  | cons l rest ih =>
      by_cases hcells : l.cells = []
      · rw [takeLevels_cons_of_empty none wrap built rest hcells, ih]
      · rw [takeLevels_cons_of_whole rest hcells (takeCells_none _ _ _), ih]

/-- No cell is dropped while the rendered levels stay within the limit. The last separator has
nothing behind it. -/
theorem takeLevels_of_fits {budget : Budget} {wrap built : Nat} {levels : List LevelCells}
    (filled : ∀ l ∈ levels, l.cells ≠ [])
    (h : budget.offset + wrap + built + levelsSize levels ≤ budget.limit + size separator) :
    takeLevels (some budget) wrap built levels = (levels, false) := by
  induction levels generalizing built with
  | nil => rfl
  | cons l rest ih =>
      have hcells : l.cells ≠ [] := filled l List.mem_cons_self
      have hsize := size_render hcells
      rw [levelsSize_cons] at h
      have hwhole : takeCells (some budget) (bytesBefore wrap built l) none l.cells =
          (l.cells, false) := by
        apply takeCells_of_fits
        rw [bytesBefore]
        omega
      have hrest : takeLevels (some budget) wrap (built + size l.render + size separator) rest =
          (rest, false) :=
        ih (fun m hm => filled m (List.mem_cons_of_mem l hm)) (by omega)
      rw [takeLevels_cons_of_whole rest hcells hwhole, hrest]

/-! ## Rendered cells -/

/-- The cells of some levels, each with its level, in the order in which they are rendered. -/
def levelCells (levels : List LevelCells) : List (Nat × String) :=
  levels.flatMap fun l => l.cells.map (l.level, ·)

theorem takeLevels_length_le (budget : Option Budget) (wrap built : Nat)
    (levels : List LevelCells) :
    (takeLevels budget wrap built levels).1.length ≤ levels.length := by
  induction levels generalizing built with
  | nil => exact Nat.le_refl 0
  | cons l rest ih =>
      by_cases hcells : l.cells = []
      · rw [takeLevels_cons_of_empty budget wrap built rest hcells]
        exact Nat.le_succ_of_le (ih built)
      · rcases takeCells_whole_or_cut budget (bytesBefore wrap built l) none l.cells with
          hwhole | ⟨taken, hcut⟩
        · rw [takeLevels_cons_of_whole rest hcells hwhole]
          exact Nat.succ_le_succ (ih _)
        · rw [takeLevels_cons_of_cut rest hcut]
          split <;> simp

theorem takeLevels_filled (budget : Option Budget) (wrap built : Nat) (levels : List LevelCells) :
    ∀ l ∈ (takeLevels budget wrap built levels).1, l.cells ≠ [] := by
  induction levels generalizing built with
  | nil => simp [takeLevels]
  | cons l rest ih =>
      by_cases hcells : l.cells = []
      · rw [takeLevels_cons_of_empty budget wrap built rest hcells]
        exact ih built
      · rcases takeCells_whole_or_cut budget (bytesBefore wrap built l) none l.cells with
          hwhole | ⟨taken, hcut⟩
        · rw [takeLevels_cons_of_whole rest hcells hwhole]
          exact List.forall_mem_cons.mpr ⟨hcells, ih _⟩
        · rw [takeLevels_cons_of_cut rest hcut]
          cases taken with
          | nil => simp
          | cons cell more => simp

@[simp] theorem levelCells_nil : levelCells [] = [] := rfl

theorem levelCells_cons (l : LevelCells) (levels : List LevelCells) :
    levelCells (l :: levels) = l.cells.map (l.level, ·) ++ levelCells levels := rfl

theorem mem_levelCells_of_mem {levels : List LevelCells} {l : LevelCells} {cell : String}
    (hl : l ∈ levels) (hcell : cell ∈ l.cells) : (l.level, cell) ∈ levelCells levels :=
  List.mem_flatMap.mpr ⟨l, hl, List.mem_map_of_mem hcell⟩

/-- What is taken is an initial part of what there is. -/
theorem levelCells_takeLevels_isPrefix (budget : Option Budget) (wrap built : Nat)
    (levels : List LevelCells) :
    levelCells (takeLevels budget wrap built levels).1 <+: levelCells levels := by
  induction levels generalizing built with
  | nil => exact List.prefix_refl _
  | cons l rest ih =>
      by_cases hcells : l.cells = []
      · rw [takeLevels_cons_of_empty budget wrap built rest hcells, levelCells_cons, hcells,
          List.map_nil, List.nil_append]
        exact ih built
      · rcases takeCells_whole_or_cut budget (bytesBefore wrap built l) none l.cells with
          hwhole | ⟨taken, hcut⟩
        · rw [takeLevels_cons_of_whole rest hcells hwhole, levelCells_cons, levelCells_cons]
          exact (List.prefix_append_right_inj _).mpr (ih _)
        · have htaken := takeCells_isPrefix budget (bytesBefore wrap built l) none l.cells
          rw [hcut] at htaken
          rw [takeLevels_cons_of_cut rest hcut, levelCells_cons]
          split
          · exact List.nil_prefix
          · rw [levelCells_cons, levelCells_nil, List.append_nil]
            exact (htaken.map _).trans (List.prefix_append _ _)

theorem getLast?_levelCells_cons (l : LevelCells) (levels : List LevelCells) :
    (levelCells (l :: levels)).getLast? =
      (levelCells levels).getLast?.or (l.cells.getLast?.map (l.level, ·)) := by
  rw [levelCells_cons, List.getLast?_append, List.getLast?_map]

theorem levelCells_eq_nil {levels : List LevelCells} (filled : ∀ l ∈ levels, l.cells ≠ [])
    (h : levelCells levels = []) : levels = [] := by
  cases levels with
  | nil => rfl
  | cons l rest =>
      rw [levelCells_cons, List.append_eq_nil_iff, List.map_eq_nil_iff] at h
      exact absurd h.1 (filled l List.mem_cons_self)

/-- A level exceeds the limit by its last cell, the separator in front of it and the parenthesis
behind it at most. -/
theorem level_size_le {budget : Budget} {wrap built level : Nat} {l : LevelCells}
    {taken : List String} {last : String}
    (htaken : (takeCells (some budget) (bytesBefore wrap built l) none l.cells).1 = taken)
    (hlast : taken.getLast?.map (l.level, ·) = some (level, last)) :
    budget.offset + wrap + built + size { l with cells := taken }.render ≤
      budget.limit + size separator + size last + 1 := by
  obtain ⟨cell, hcell, hpair⟩ := Option.map_eq_some_iff.mp hlast
  obtain ⟨-, rfl⟩ := Prod.mk.inj hpair
  have hfilled : taken ≠ [] := by
    rintro rfl
    simp at hlast
  have hjoined := takeCells_joined_le htaken hcell
  have hpre := takeCells_isPrefix (some budget) (bytesBefore wrap built l) none l.cells
  rw [htaken] at hpre
  have hmark := groupMark_mono hpre.length_le
  have hone := groupMark_le_one taken
  have hsize : size { l with cells := taken }.render =
      size l.header + joinedWith none taken + 2 * groupMark taken :=
    size_render (l := { l with cells := taken }) hfilled
  rw [bytesBefore] at hjoined
  omega

/-- The levels exceed the limit by the last cell, the separator in front of it and the parenthesis
behind its level at most. The separator behind the last level is counted as well. -/
theorem takeLevels_size_le {budget : Budget} {wrap built level : Nat} {levels : List LevelCells}
    {last : String}
    (hlast : (levelCells (takeLevels (some budget) wrap built levels).1).getLast? =
      some (level, last)) :
    budget.offset + wrap + built + levelsSize (takeLevels (some budget) wrap built levels).1 ≤
      budget.limit + 2 * size separator + size last + 1 := by
  induction levels generalizing built with
  | nil => simp [takeLevels] at hlast
  | cons l rest ih =>
      by_cases hcells : l.cells = []
      · rw [takeLevels_cons_of_empty (some budget) wrap built rest hcells] at hlast ⊢
        exact ih hlast
      · rcases takeCells_whole_or_cut (some budget) (bytesBefore wrap built l) none l.cells with
          hwhole | ⟨taken, hcut⟩
        · rw [takeLevels_cons_of_whole rest hcells hwhole] at hlast ⊢
          rw [getLast?_levelCells_cons] at hlast
          cases hmore : (levelCells (takeLevels (some budget) wrap
              (built + size l.render + size separator) rest).1).getLast? with
          | some lastCell =>
              rw [hmore, Option.some_or, Option.some.injEq] at hlast
              have hrest := ih (hmore.trans (congrArg some hlast))
              rw [levelsSize_cons]
              omega
          | none =>
              have hnone := levelCells_eq_nil (takeLevels_filled (some budget) wrap _ rest)
                (List.getLast?_eq_none_iff.mp hmore)
              rw [hmore, Option.none_or] at hlast
              have hsize : budget.offset + wrap + built + size l.render ≤
                  budget.limit + size separator + size last + 1 :=
                level_size_le (congrArg Prod.fst hwhole) hlast
              rw [hnone, levelsSize_cons, levelsSize_nil]
              omega
        · rw [takeLevels_cons_of_cut rest hcut] at hlast ⊢
          cases htaken : taken.isEmpty with
          | true => simp [htaken] at hlast
          | false =>
              simp only [htaken, Bool.false_eq_true, if_false] at hlast ⊢
              rw [getLast?_levelCells_cons, levelCells_nil, List.getLast?_nil, Option.none_or]
                at hlast
              have hsize : budget.offset + wrap + built + size { l with cells := taken }.render ≤
                  budget.limit + size separator + size last + 1 :=
                level_size_le (congrArg Prod.fst hcut) hlast
              rw [levelsSize_cons, levelsSize_nil]
              omega

/-! ## The whole clause -/

/-- The cells that a map clause renders, each with its level, in the order of the text. -/
def renderedCells (groups : List Group) (budget : Option Budget) : List (Nat × String) :=
  levelCells (budgetedLevels groups budget).1

theorem budgetedLevels_eq (groups : List Group) (budget : Option Budget) :
    budgetedLevels groups budget =
      takeLevels budget (groupMark (queryLevels groups)) 0 (queryLevels groups) := rfl

theorem mapClause_eq (groups : List Group) (budget : Option Budget) :
    mapClause groups budget =
      { text := renderLevels (budgetedLevels groups budget).1
        truncated := (budgetedLevels groups budget).2 } := rfl

theorem truncated_mapClause_none (groups : List Group) :
    (mapClause groups none).truncated = false := by
  rw [mapClause_eq, budgetedLevels_eq, takeLevels_none]

theorem renderLevels_ne_empty {levels : List LevelCells} (h : levels ≠ []) :
    renderLevels levels ≠ "" := by
  have hrender : ∀ l : LevelCells, l.render ≠ "" := by
    intro l hl
    unfold LevelCells.render LevelCells.header at hl
    split at hl <;> simp [String.append_assoc] at hl
  cases levels with
  | nil => exact absurd rfl h
  | cons l rest =>
      cases rest with
      | nil => exact hrender l
      | cons m more => simp [renderLevels, String.append_assoc]

/-- A clause that is not empty has a last cell. -/
theorem exists_last_of_mapClause {groups : List Group} {budget : Option Budget}
    (h : (mapClause groups budget).text ≠ "") :
    ∃ level last, (renderedCells groups budget).getLast? = some (level, last) := by
  rw [mapClause_eq] at h
  have hfilled : ∀ l ∈ (budgetedLevels groups budget).1, l.cells ≠ [] := by
    rw [budgetedLevels_eq]
    exact takeLevels_filled budget _ 0 (queryLevels groups)
  have hcells : renderedCells groups budget ≠ [] := by
    intro hnil
    rw [levelCells_eq_nil hfilled hnil] at h
    exact h rfl
  obtain ⟨p, hp⟩ := Option.isSome_iff_exists.mp (List.getLast?_isSome.mpr hcells)
  exact ⟨p.1, p.2, hp⟩

/-- A clause from which nothing was dropped is the clause without a budget. -/
theorem mapClause_of_not_truncated {groups : List Group} {budget : Option Budget}
    (h : (mapClause groups budget).truncated = false) :
    mapClause groups budget = mapClause groups none := by
  rw [mapClause_eq, budgetedLevels_eq] at h
  rw [mapClause_eq, mapClause_eq, budgetedLevels_eq, budgetedLevels_eq, takeLevels_none,
    takeLevels_of_not_dropped h]

/-- Nothing is dropped when the whole clause fits. A level without cells would be counted in the
running length but not rendered. -/
theorem truncated_mapClause_of_fits {groups : List Group} {budget : Budget}
    (filled : ∀ l ∈ queryLevels groups, l.cells ≠ [])
    (h : budget.offset + size (mapClause groups none).text ≤ budget.limit) :
    (mapClause groups (some budget)).truncated = false := by
  have hall : (queryLevels groups).filter (!·.cells.isEmpty) = queryLevels groups :=
    List.filter_eq_self.mpr fun l hl => by simpa using filled l hl
  rw [mapClause_eq, budgetedLevels_eq, takeLevels_none, hall] at h
  rw [mapClause_eq, budgetedLevels_eq]
  cases hlevels : queryLevels groups with
  | nil => rfl
  | cons l rest =>
      rw [hlevels] at h filled
      have hsize := size_renderLevels (List.cons_ne_nil l rest)
      rw [takeLevels_of_fits filled]
      dsimp only at h
      omega

/-- The clause exceeds the limit by its last cell, the separator in front of it and two parentheses
at most. -/
theorem mapClause_size_le {groups : List Group} {budget : Budget} {level : Nat} {last : String}
    (hlast : (renderedCells groups (some budget)).getLast? = some (level, last)) :
    budget.offset + size (mapClause groups (some budget)).text ≤
      budget.limit + 6 + size last := by
  have hfilled : (budgetedLevels groups (some budget)).1 ≠ [] := by
    intro hnil
    rw [renderedCells, hnil] at hlast
    simp at hlast
  have hrender := size_renderLevels hfilled
  rw [mapClause_eq]
  rw [renderedCells, budgetedLevels_eq] at hlast
  rw [budgetedLevels_eq] at hrender ⊢
  have htaken := takeLevels_size_le hlast
  have hmark := groupMark_mono
    (takeLevels_length_le (some budget) (groupMark (queryLevels groups)) 0 (queryLevels groups))
  have hone := groupMark_le_one (queryLevels groups)
  have hseparator : size separator = 4 := rfl
  dsimp only
  omega

end FacetedSearch.Geohash
