import Rebuild.Text.Style
import Rebuild.Text.Width

/-!
# Tables in boxes

A table has a header and rows of as many cells. It is drawn with rules around and between its
columns, each as wide as its widest cell, unless the lines would not fit: then the widest columns
are narrowed, and the cells that no longer fit are cut.
-/

namespace Rebuild

/-- A header and the rows below it. -/
structure Table where
  /-- The names of the columns. -/
  headers : List String
  /-- The rows, each with one cell for a column. -/
  rows : List (List String) := []
deriving DecidableEq, Repr

namespace Table

/-- Puts a row at the end. A row with another number of cells than there are columns is left
out. -/
def addRow (table : Table) (row : List String) : Table :=
  if row.length = table.headers.length then { table with rows := table.rows ++ [row] } else table

/-- A table with the given columns and those of the rows that fit them. -/
def ofRows (headers : List String) (rows : List (List String)) : Table :=
  rows.foldl addRow { headers }

/-- Whether the table has no rows. -/
def isEmpty (table : Table) : Bool :=
  table.rows.isEmpty

/-! ### Widths of the columns -/

/-- A cell on one line: line ends and tabs are shown as blanks. -/
def flatten (cell : String) : List Char :=
  cell.toList.map fun c ↦ if c == '\n' || c == '\r' || c == '\t' then ' ' else c

/-- The widths at which no cell has to be cut. -/
def naturalWidths (table : Table) : List Nat :=
  table.rows.foldl
    (fun widths row ↦
      List.zipWith (fun width cell ↦ max width (Text.displayWidth (flatten cell))) widths row)
    (table.headers.map fun header ↦ Text.displayWidth header.toList)

/-- Columns are not narrowed below this width. -/
def leastWidth : Nat := 8

/-- Takes one column of width from the widest column, the last one if there are several. No
column becomes narrower than `leastWidth`. -/
def narrowOnce (widths : List Nat) : Option (List Nat) :=
  let widest := widths.foldl max 0
  if widest ≤ leastWidth then none
  else some (narrowLast widest widths.reverse).reverse
where
  /-- Narrows the first column of the given width. -/
  narrowLast (widest : Nat) : List Nat → List Nat
    | [] => []
    | width :: widths =>
      if width = widest then (width - 1) :: widths else width :: narrowLast widest widths

/-- The sum of widths. -/
def total (widths : List Nat) : Nat :=
  widths.foldr (· + ·) 0

/-- Narrows columns one step at a time, for at most `steps` steps, until the widths sum to no more
than `available`. -/
def narrow (available : Nat) : Nat → List Nat → List Nat
  | 0, widths => widths
  | steps + 1, widths =>
    if total widths ≤ available then widths
    else
      match narrowOnce widths with
      | none => widths
      | some narrower => narrow available steps narrower

/-- The columns of a line that hold no cell: the indent, and a rule and two blanks per cell. -/
def overhead (columns : Nat) : Nat :=
  3 + 3 * columns

/-- The widths at which the lines take at most `maxWidth` columns, as far as `leastWidth`
allows. Each step takes one from the sum, so there are no more steps than the sum. -/
def widths (table : Table) (maxWidth : Nat) : List Nat :=
  let natural := table.naturalWidths
  narrow (maxWidth - overhead natural.length) (total natural) natural

/-! ### Lines -/

/-- A horizontal rule. -/
def rule (left mid right : String) (widths : List Nat) : String :=
  let segments := widths.map fun width ↦ String.ofList (List.replicate (width + 2) '─')
  "  " ++ left ++ String.intercalate mid segments ++ right ++ "\n"

/-- A cell cut to the width of its column and padded to it. -/
def cell (width : Nat) (cs : List Char) : List Char :=
  let shown := Text.truncate cs width "...".toList
  ' ' :: shown ++ List.replicate (width - Text.displayWidth shown) ' ' ++ " │".toList

/-- A line of cells. -/
def line (widths : List Nat) (cells : List (List Char)) : String :=
  String.ofList ("  │".toList ++ (List.zipWith cell widths cells).flatten ++ ['\n'])

/-- The table in at most `maxWidth` columns, with bold headers on a terminal that shows
styles. A table without columns is empty text. -/
def render (table : Table) (coloured : Bool) (maxWidth : Nat) : String :=
  if table.headers.isEmpty then ""
  else
    let widths := table.widths maxWidth
    let header := table.headers.map fun h ↦ (Text.Style.strong.apply coloured h).toList
    rule "┌" "┬" "┐" widths ++ line widths header ++ rule "├" "┼" "┤" widths ++
      String.join (table.rows.map fun row ↦ line widths (row.map flatten)) ++
      rule "└" "┴" "┘" widths

end Table

end Rebuild
