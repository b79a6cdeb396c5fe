import FacetedSearch.Text.Columns

/-!
# Boxed tables

A table drawn with box characters for a terminal: a header, a double line below it, and then the
rows without lines between them. A column is as wide as its widest line, with a space on either
side. A cell with newlines takes several lines, and its row is as high as its highest cell.
-/

namespace FacetedSearch.Text

/-- A table of texts. Every row has as many cells as the header. -/
structure BoxedTable where
  header : List String
  rows : List (List String)

/-- The characters of a horizontal line: its ends, what it is made of, and its crossings. -/
structure RuleStyle where
  left : String
  fill : Char
  crossing : String
  right : String

namespace RuleStyle

/-- The line above the header. -/
def top : RuleStyle := ⟨"┌", '─', "┬", "┐"⟩

/-- The line below the header. -/
def belowHeader : RuleStyle := ⟨"╞", '═', "╪", "╡"⟩

/-- The line below the rows. -/
def bottom : RuleStyle := ⟨"└", '─', "┴", "┘"⟩

/-- The line over columns of the given widths. -/
def draw (style : RuleStyle) (widths : List Nat) : String :=
  let parts := widths.map fun width => String.ofList (List.replicate (width + 2) style.fill)
  style.left ++ style.crossing.intercalate parts ++ style.right

end RuleStyle

namespace BoxedTable

/-- The lines of a cell. -/
def cellLines (cell : String) : List String :=
  (cell.toList.splitOn '\n').map String.ofList

/-- The width of the widest line of a cell. -/
def cellWidth (cell : String) : Nat :=
  ((cellLines cell).map columns).foldl max 0

/-- The width of each column, which is one at least. -/
def columnWidths (t : BoxedTable) : List Nat :=
  t.rows.foldl (fun widths row => List.zipWith max widths (row.map cellWidth))
    (t.header.map fun cell => max 1 (cellWidth cell))

/-- The height of a row: that of its highest cell. -/
def rowHeight (row : List String) : Nat :=
  (row.map fun cell => (cellLines cell).length).foldl max 0

/-- A line of a row, from what each cell shows on it. -/
def drawLine (widths : List Nat) (shown : List String) : String :=
  "│" ++ "┆".intercalate ((widths.zip shown).map fun (width, s) => " " ++ padTo width s ++ " ")
    ++ "│"

/-- The lines of a row. -/
def drawRow (widths : List Nat) (row : List String) : List String :=
  (List.range (rowHeight row)).map fun i =>
    drawLine widths (row.map fun cell => (cellLines cell)[i]?.getD "")

/-- The lines of the table. -/
def lines (t : BoxedTable) : List String :=
  let widths := t.columnWidths
  RuleStyle.top.draw widths :: drawRow widths t.header
    ++ RuleStyle.belowHeader.draw widths :: t.rows.flatMap (drawRow widths)
    ++ [RuleStyle.bottom.draw widths]

/-- The table as a text, without a newline at the end. -/
def draw (t : BoxedTable) : String :=
  "\n".intercalate t.lines

end BoxedTable

end FacetedSearch.Text
