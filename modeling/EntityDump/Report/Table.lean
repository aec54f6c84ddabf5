import EntityDump.Text.Blank
/-!
# Tables

Rows of cells under headers, with a rule between, each column as wide as its widest cell. Numbers stand on
the right of their column and texts on the left; blanks at the end of a line are left out.
-/

namespace EntityDump.Report

/-- The side of its column on which a cell stands. -/
inductive Alignment where
  | left
  | right
  deriving DecidableEq, Repr

/-- A table. -/
structure Table where
  /-- The header of each column and how its cells stand. -/
  columns : List (String × Alignment)
  rows : List (List String)

namespace Table

/-- The number of characters of a cell. -/
def cellWidth (cell : String) : Nat :=
  cell.length

/-- The width of the widest cell of each column. -/
def widths (t : Table) : List Nat :=
  let headers := t.columns.map fun column => cellWidth column.1
  t.rows.foldl (fun widths row => widths.zipWith max (row.map cellWidth)) headers

/-- A cell filled up to a width. -/
def padded (alignment : Alignment) (width : Nat) (cell : String) : String :=
  let blanks := String.ofList (List.replicate (width - cellWidth cell) ' ')
  match alignment with
  | .left => cell ++ blanks
  | .right => blanks ++ cell

/-- A line of cells. -/
def line (alignments : List Alignment) (widths : List Nat) (cells : List String) : String :=
  let parts := (alignments.zip widths).zipWith (fun column cell => padded column.1 column.2 cell) cells
  String.ofList (Text.trimEnd ("  ".intercalate parts).toList) ++ "\n"

/-- The text of a table. -/
def text (t : Table) : String :=
  let alignments := t.columns.map (·.2)
  let headers := t.columns.map (·.1)
  let rule := t.widths.map fun width => String.ofList (List.replicate width '-')
  String.join ((headers :: rule :: t.rows).map (line alignments t.widths))

end Table

end EntityDump.Report
