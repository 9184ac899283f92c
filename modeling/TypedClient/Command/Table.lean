import TypedClient.Text.Split
import TypedClient.Text.Width

/-!
# Tables

Text in columns. Every column is as wide as its widest cell and has a space on both
sides; rules stand above the header, below it and below the last row.
-/

namespace TypedClient.Command

open Text

/-- On which side of a column its cells stand. -/
inductive Alignment where
  | left
  | right
  deriving DecidableEq, Repr

/-- A cell may have several lines. -/
structure Cell where
  lines : List (List Char)
  alignment : Alignment
  deriving DecidableEq, Repr

namespace Cell

def ofText (alignment : Alignment) (text : String) : Cell :=
  ⟨splitAtChar '\n' text.toList, alignment⟩

def width (cell : Cell) : Nat :=
  (cell.lines.map Text.width).foldl max 0

/-- A line of a cell, filled up to the width of its column. -/
def fill (columns : Nat) (alignment : Alignment) (line : List Char) : List Char :=
  let blanks := List.replicate (columns - Text.width line) ' '
  match alignment with
  | .left => line ++ blanks
  | .right => blanks ++ line

/-- One of the lines of a cell, with a space on both sides. Below its last line a cell
is empty. -/
def lineAt (columns index : Nat) (cell : Cell) : List Char :=
  ' ' :: fill columns cell.alignment (cell.lines.getD index []) ++ [' ']

end Cell

/-- A header and rows, all with the same number of cells. -/
structure Table where
  header : List Cell
  rows : List (List Cell)
  deriving DecidableEq, Repr

namespace Table

/-- The greater one of each two widths. -/
def widest (widths : List Nat) (row : List Cell) : List Nat :=
  List.zipWith max widths (row.map Cell.width)

def columnWidths (table : Table) : List Nat :=
  table.rows.foldl widest (table.header.map Cell.width)

/-- The pieces of a line, which are one space apart. -/
def joined (pieces : List (List Char)) : List Char :=
  List.intercalate [' '] pieces

/-- A rule with a gap between the columns. -/
def rule (widths : List Nat) : List Char :=
  joined (widths.map fun columns => List.replicate (columns + 2) '─')

/-- A rule without gaps. -/
def unbrokenRule (widths : List Nat) : List Char :=
  List.replicate (rule widths).length '─'

/-- The lines of a row, as many as its highest cell has. -/
def rowLines (widths : List Nat) (row : List Cell) : List (List Char) :=
  (List.range ((row.map fun cell => cell.lines.length).foldl max 0)).map fun index =>
    joined (List.zipWith (fun columns cell => Cell.lineAt columns index cell) widths row)

def lines (table : Table) : List (List Char) :=
  let widths := table.columnWidths
  rule widths :: rowLines widths table.header ++
    unbrokenRule widths :: table.rows.flatMap (rowLines widths) ++ [rule widths]

/-- The text of a table, without an ending of the last line. -/
def render (table : Table) : String :=
  String.intercalate "\n" (table.lines.map String.ofList)

end Table

end TypedClient.Command
