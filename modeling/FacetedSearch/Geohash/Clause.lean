import FacetedSearch.Geohash.Group

/-!
# The map clause

Each level of the grid is a field of the index, so the cells to be asked for are listed by level,
and a level becomes `geohash_5:9q8yy` or `geohash_5:(9q8yy OR 9q8yz)`. A complete group
contributes its parent one level up.

Where the length of a query is limited, cells stop being added once the text before the next cell
is longer than the limit. What is left is an initial part of the cells, level by level.
-/

namespace FacetedSearch.Geohash

/-- The cells to be asked for at one level. -/
structure LevelCells where
  level : Nat
  cells : List String
  deriving DecidableEq, Repr

/-- What a group contributes, with its level: its parent cell, or its cells. -/
def Group.target (g : Group) : LevelCells :=
  match g.parent? with
  | some parent => { level := g.level - 1, cells := [parent] }
  | none => { level := g.level, cells := g.cells }

/-- The cells to be asked for, by level from the lowest, in ascending order within a level. -/
def queryLevels (groups : List Group) : List LevelCells :=
  let targets := groups.map Group.target
  (sortedSet (targets.map (·.level))).map fun level =>
    { level, cells := sortedSet ((targets.filter (·.level == level)).flatMap (·.cells)) }

/-- A limit on the length of a query. -/
structure Budget where
  /-- The number of bytes in front of the map clause. -/
  offset : Nat
  /-- No cell is added behind this many bytes. -/
  limit : Nat
  deriving DecidableEq, Repr

/-- A cell may be added behind `built` bytes of the map clause. Without a budget it always may. -/
def admits (budget : Option Budget) (built : Nat) : Bool :=
  match budget with
  | none => true
  | some b => b.offset + built ≤ b.limit

/-- What stands between two cells, and between two levels. -/
def separator : String := " OR "

/-- The bytes of the cells joined so far, when there are any. -/
def joinedSize : Option Nat → String → Nat
  | none, cell => Text.size cell
  | some joined, cell => joined + Text.size separator + Text.size cell

/-- Take cells while they are admitted, and say whether one was dropped. `before` counts the bytes
in front of the first cell, and `joined` the bytes of the cells already taken. -/
def takeCells (budget : Option Budget) (before : Nat) (joined : Option Nat) :
    List String → List String × Bool
  | [] => ([], false)
  | cell :: rest =>
    if admits budget (before + joined.getD 0) then
      let (taken, dropped) := takeCells budget before (some (joinedSize joined cell)) rest
      (cell :: taken, dropped)
    else ([], true)

/-- The field of a level, with the mark that ends it. -/
def LevelCells.header (l : LevelCells) : String :=
  "geohash_" ++ toString l.level ++ ":"

/-- The clause of one level. -/
def LevelCells.render (l : LevelCells) : String :=
  match l.cells with
  | [only] => l.header ++ only
  | cells => l.header ++ "(" ++ separator.intercalate cells ++ ")"

/-- Take levels while all their cells are admitted, and the admitted cells of the first level
where one is dropped. `built` counts the bytes of the levels already taken. A level left without a
cell is left out. -/
def takeLevels (budget : Option Budget) (wrap built : Nat) :
    List LevelCells → List LevelCells × Bool
  | [] => ([], false)
  | l :: rest =>
    let opening := if 1 < l.cells.length then 1 else 0
    let (cells, dropped) :=
      takeCells budget (wrap + built + Text.size l.header + opening) none l.cells
    let kept : LevelCells := { l with cells }
    if cells.isEmpty then
      if dropped then ([], true) else takeLevels budget wrap built rest
    else if dropped then ([kept], true)
    else
      let (more, cut) :=
        takeLevels budget wrap (built + Text.size kept.render + Text.size separator) rest
      (kept :: more, cut)

/-- The text of several levels: nothing, the only level, or all of them in parentheses. -/
def renderLevels : List LevelCells → String
  | [] => ""
  | [only] => only.render
  | levels => "(" ++ separator.intercalate (levels.map LevelCells.render) ++ ")"

/-- The text of a map clause, and whether cells were dropped. -/
structure MapClause where
  text : String
  truncated : Bool
  deriving DecidableEq, Repr

/-- The levels of a map clause within a budget, and whether cells were dropped. -/
def budgetedLevels (groups : List Group) (budget : Option Budget) : List LevelCells × Bool :=
  let levels := queryLevels groups
  takeLevels budget (if 1 < levels.length then 1 else 0) 0 levels

/-- The map clause of some groups, within a budget. -/
def mapClause (groups : List Group) (budget : Option Budget) : MapClause :=
  let (levels, truncated) := budgetedLevels groups budget
  { text := renderLevels levels, truncated }

end FacetedSearch.Geohash
