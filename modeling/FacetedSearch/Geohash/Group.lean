import FacetedSearch.SortedSet
import FacetedSearch.Text.Order

/-!
# Groups of geohash cells

A cell of the geohash grid splits into 32 cells one level down, whose names add one character to
its own. The cells in view are grouped by parent: a parent with all of its 32 cells in view is a
*complete* group and can be asked for by its own name; the cells of all other parents make up one
group that comes first.

Cells are taken as strings of any kind. The level of a group is the number of bytes of its first
cell.
-/

namespace FacetedSearch.Geohash

/-- The number of cells that a cell splits into. -/
def branching : Nat := 32

/-- The characters of geohashes, in the order of the grid. -/
def alphabet : String := "0123456789bcdefghjkmnpqrstuvwxyz"

/-- The cell one level up: the name without its last character. -/
def parentCell (cell : String) : String :=
  String.ofList cell.toList.dropLast

/-- Cells that are asked for together. -/
structure Group where
  /-- The precision of the cells. -/
  level : Nat
  /-- The cells are all the cells of one parent. -/
  complete : Bool
  /-- The cells, in ascending order. -/
  cells : List String
  deriving DecidableEq, Repr

namespace Group

/-- The level as text. -/
def key (g : Group) : String :=
  toString g.level

/-- The cell that stands for a complete group. Cells of the first level have no parent. -/
def parent? (g : Group) : Option String :=
  if g.complete && 2 ≤ g.level then g.cells.head?.map parentCell else none

end Group

/-- The cells that share a parent. -/
structure Family where
  parent : String
  members : List String
  deriving DecidableEq, Repr

namespace Family

/-- All the cells of the parent are there. -/
def isTile (f : Family) : Bool :=
  f.members.length == branching

end Family

/-- The distinct cells in ascending order; an empty name is no cell. -/
def cellSet (cells : List String) : List String :=
  sortedSet (cells.filter fun cell => !cell.isEmpty)

/-- The families of cells, in the order of their parents. -/
def families (cells : List String) : List Family :=
  let keyed := (cellSet cells).map fun cell => (parentCell cell, cell)
  (sortedSet (keyed.map (·.1))).map fun parent =>
    { parent, members := (keyed.filter (·.1 == parent)).map (·.2) }

/-- The group of the given cells, at the level of the first. -/
def groupOf (complete : Bool) : List String → Option Group
  | [] => none
  | cells@(first :: _) => some { level := Text.size first, complete, cells }

/-- Group cells: the cells that form no complete group, then the complete groups. -/
def groupCells (cells : List String) : List Group :=
  let fams := families cells
  let rest := (fams.filter (!·.isTile)).flatMap (·.members)
  let tiles := (fams.filter (·.isTile)).map (·.members)
  (groupOf false rest).toList ++ tiles.filterMap (groupOf true)

/-- The group of cells that form no complete group. -/
def incomplete? (groups : List Group) : Option Group :=
  groups.find? (!·.complete)

/-- The complete groups. -/
def completeGroups (groups : List Group) : List Group :=
  groups.filter (·.complete)

/-- The distinct levels of the groups, lowest first. -/
def levelKeys (groups : List Group) : List String :=
  (sortedSet (groups.map (·.level))).map toString

end FacetedSearch.Geohash
