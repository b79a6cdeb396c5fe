import FacetedSearch.Proofs.Clause.FormulaReading
import FacetedSearch.Proofs.Geohash.Budget

/-!
# Reading a map clause

A map clause of cells in the alphabet of geohashes says what it asks for. It is built like any other
clause: a level is a field, and its cells are the values of this field. So its text is read as a
formula, with the parentheses around its groups, and each level is that of the field in front of the
cells.
-/

namespace FacetedSearch.Geohash

open Text Clause

/-! ## The reader -/

/-- The field of a level. -/
def levelField (level : Nat) : String :=
  "geohash_" ++ toString level

/-- The level that a field is for. -/
def fieldLevel? (field : String) : Option Nat :=
  let level := Nat.ofDigitChars 10 (field.toList.drop "geohash_".length) 0
  if levelField level = field then some level else none

/-- The members of a combination in which any of them will do. -/
def alternatives? {α : Type} [DecidableEq α] (combination : Combination α) : Option (List α) :=
  if combination = .shown .or combination.members then some combination.members else none

/-- Read the cells that a field is asked for. -/
def readLevel? (formula : FieldFormula) : Option LevelCells := do
  let level ← fieldLevel? formula.field
  let cells ← alternatives? formula.values
  return { level, cells }

/-- Read the cells of a map clause, each with its level. -/
def readClause? (text : String) : Option (List (Nat × String)) := do
  let formula ← readFormula? text
  let fields ← alternatives? formula
  let levels ← fields.mapM readLevel?
  return levelCells levels

/-! ## Words -/

/-- The characters that a reader of clauses does not pass over. -/
def reserved : List Char :=
  '\\' :: '"' :: clauseMarks

theorem isWord_of_unreserved {text : String} (h : ∀ c ∈ reserved, c ∉ text.toList) :
    IsWord text := by
  refine isWordFrom_of_bareChars (h '"' (by decide)) ?_ (leavesOpen_of_not_mem (h '\\' (by decide)))
  intro c hbare hmark
  have hreserved : c ∈ reserved := List.mem_cons_of_mem _ (List.mem_cons_of_mem _ hmark)
  exact h c hreserved ((bareChars_sublist false text.toList).subset hbare)

theorem toList_levelField (level : Nat) :
    (levelField level).toList = "geohash_".toList ++ Nat.toDigits 10 level := by
  simp [levelField]

theorem isWord_levelField (level : Nat) : IsWord (levelField level) := by
  apply isWord_of_unreserved
  intro c hc
  rw [toList_levelField, List.mem_append, not_or]
  refine ⟨?_, ?_⟩
  · have hfield : reserved.all (· ∉ "geohash_".toList) = true := by
      decide
    exact of_decide_eq_true (List.all_eq_true.mp hfield c hc)
  · intro hmem
    have hnodigit : reserved.all (!·.isDigit) = true := by
      decide
    have hdigit : c.isDigit = true := Nat.isDigit_of_mem_toDigits (by decide) (by decide) hmem
    simpa [hdigit] using List.all_eq_true.mp hnodigit c hc

theorem fieldLevel?_levelField (level : Nat) : fieldLevel? (levelField level) = some level := by
  have hdigits : (levelField level).toList.drop "geohash_".length = Nat.toDigits 10 level := by
    rw [toList_levelField]
    exact List.drop_left' rfl
  rw [fieldLevel?]
  simp only [hdigits, Nat.ofDigitChars_ten_toDigits, if_true]

/-! ## The formula of a clause -/

/-- The formula of a level. -/
def LevelCells.formula (l : LevelCells) : FieldFormula where
  field := levelField l.level
  values := .shown .or l.cells

theorem toList_header (l : LevelCells) :
    l.header.toList = "geohash_".toList ++ Nat.toDigits 10 l.level ++ [':'] := by
  simp [LevelCells.header]

/-- A level is rendered as its formula. -/
theorem text_formula {l : LevelCells} (filled : l.cells ≠ []) : l.formula.text = l.render := by
  have htext : l.formula.text = l.header ++ group .or l.cells := by
    rw [FieldFormula.text, LevelCells.formula, Combination.write_shown, List.map_id]
    rfl
  rw [htext, LevelCells.render]
  rcases hcells : l.cells with _ | ⟨first, _ | ⟨second, rest⟩⟩
  · exact absurd hcells filled
  · rfl
  · have hgroup : group .or (first :: second :: rest) =
        "(" ++ separator.intercalate (first :: second :: rest) ++ ")" := rfl
    simp only [hgroup, String.append_assoc]

/-- The levels are rendered as their formula. -/
theorem renderLevels_eq {levels : List LevelCells} (filled : ∀ l ∈ levels, l.cells ≠ []) :
    renderLevels levels = Formula.text (.shown .or (levels.map LevelCells.formula)) := by
  have htexts : (levels.map LevelCells.formula).map FieldFormula.text =
      levels.map LevelCells.render := by
    rw [List.map_map]
    exact List.map_congr_left fun l hl => text_formula (filled l hl)
  rw [Formula.text, Combination.write_shown, htexts]
  rcases levels with _ | ⟨first, _ | ⟨second, rest⟩⟩ <;> rfl

/-- A name of a cell that can stand in a clause. -/
structure IsName (cell : String) : Prop where
  word : IsWord cell
  ne_empty : cell ≠ ""

theorem isReadable_formula {levels : List LevelCells}
    (named : ∀ l ∈ levels, ∀ cell ∈ l.cells, IsName cell) :
    Formula.IsReadable (.shown .or (levels.map LevelCells.formula)) where
  shown := isShown_shown _ _
  fields := List.forall_mem_map.mpr fun l hl => {
    field := isWord_levelField l.level
    shown := isShown_shown _ _
    values := fun cell hcell => (named l hl cell hcell).word
    filled := fun cell hcell => (named l hl cell hcell).ne_empty }

/-! ## Reading back -/

theorem alternatives?_shown {α : Type} [DecidableEq α] (members : List α) :
    alternatives? (Combination.shown .or members) = some members :=
  if_pos rfl

theorem readLevel?_formula (l : LevelCells) : readLevel? l.formula = some l := by
  rw [readLevel?, LevelCells.formula, fieldLevel?_levelField, alternatives?_shown]
  rfl

theorem mapM_readLevel?_formula (levels : List LevelCells) :
    (levels.map LevelCells.formula).mapM readLevel? = some levels := by
  induction levels with
  | nil => rfl
  | cons l levels ih =>
      rw [List.map_cons, List.mapM_cons, readLevel?_formula, ih]
      rfl

/-- The text of a clause is read back as the cells it was rendered from. -/
theorem readClause?_renderLevels {levels : List LevelCells}
    (filled : ∀ l ∈ levels, l.cells ≠ []) (named : ∀ l ∈ levels, ∀ cell ∈ l.cells, IsName cell) :
    readClause? (renderLevels levels) = some (levelCells levels) := by
  rw [readClause?, renderLevels_eq filled, readFormula?_text (isReadable_formula named)]
  simp only [Option.bind_eq_bind, Option.bind_some, alternatives?_shown, mapM_readLevel?_formula]
  rfl

/-- Cells of one level without their parentheses are no clause. -/
example : readClause? "(geohash_1:9 OR geohash_4:c2b2 OR d1b2)" = none := by
  decide +kernel

end FacetedSearch.Geohash
