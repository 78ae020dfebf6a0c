import SourceMutation.Text.Lines
import SourceMutation.Text.Paragraph
import SourceMutation.Value.Real

/-!
# Tables

A table drawn with lines: a title over it, a heading for each column, and rows of cells.  A column
is as wide as its widest cell or heading, unless the table would be wider than the display; then the
widest columns are narrowed.  The title is centred over the table, and goes on in further lines if
it is wider than that.
-/

namespace SourceMutation

/-- A column of a table. -/
structure Column where
  /-- The text over the column. -/
  heading : String
  /-- Whether cells stand at the right edge of the column. -/
  atRight : Bool

/-- A table with a title. -/
structure Table where
  title : String
  columns : List Column
  rows : List (List String)

namespace Table

/-! ## Widths -/

/-- The width of a cell: that of the widest of its lines. -/
def cellWidth (text : String) : Nat :=
  (Lines.split (Paragraph.dropControls text.toList)).foldl
    (fun widest line => max widest (Columns.count line)) 0

/-- The widths of the columns, if they are as wide as `widths` at least. -/
def widen (widths : List Nat) (row : List String) : List Nat :=
  List.zipWith (fun width cell => max width (cellWidth cell)) widths row

/-- The room beside a column's cells: a blank on each side. -/
def margin : Nat := 2

/-- The room that the upright lines of a table take. -/
def uprights (table : Table) : Nat := table.columns.length + 1

/-- The widths that the columns of a table would have on a display without an end, with margins. -/
def naturalWidths (table : Table) : List Nat :=
  (table.rows.foldl widen (table.columns.map fun column => cellWidth column.heading)).map
    (· + margin)

/-- Takes an excess away from the `parts` widths that are `widest`, in equal shares as far as they
come out even, but at most `most` from each. -/
def narrowWidest (widest most : Nat) : (excess parts : Nat) → List Nat → List Nat
  | _, _, [] => []
  | excess, parts, width :: rest =>
    if width = widest then
      let taken := min most (Rounding.nearest excess parts)
      (width - taken) :: narrowWidest widest most (excess - taken) (parts - 1) rest
    else width :: narrowWidest widest most excess parts rest

/--
Narrows columns until they fit into `limit` together.  Each of the `fuel` rounds narrows the widest
ones at most to the width of the next widest.
-/
def narrow (limit : Nat) : (fuel : Nat) → List Nat → List Nat
  | 0, widths => widths
  | fuel + 1, widths =>
    let excess := widths.foldr (· + ·) 0 - limit
    if excess = 0 then widths
    else
      let widest := widths.foldr max 0
      let next := (widths.filter (· != widest)).foldr max 0
      let most := min excess (widest - next)
      narrow limit fuel
        (narrowWidest widest most excess (widths.filter (· == widest)).length widths)

/-- The widths of the columns on a display. -/
def widths (display : Nat) (table : Table) : List Nat :=
  let limit := display - table.uprights
  let natural := table.naturalWidths.map (min limit)
  (narrow limit (natural.foldr (· + ·) 0) natural).map (· - margin)

/-- The width of a table: its columns with their margins, and the lines around them. -/
def totalWidth (widths : List Nat) : Nat := (widths.map (· + (margin + 1))).foldr (· + ·) 1

/-! ## Parts -/

/-- Blanks. -/
def blanks (n : Nat) : String := String.ofList (List.replicate n ' ')

/-- A text filled up to a width, at the right or at the left edge. -/
def fill (width : Nat) (atRight : Bool) (text : String) : String :=
  let space := blanks (width - Columns.count text.toList)
  if atRight then space ++ text else text ++ space

/-- A text in the middle of a width; of an odd space the larger half stands after it. -/
def centre (width : Nat) (text : String) : String :=
  let text := String.ofList (dropBlankEnd text.toList)
  let space := width - Columns.count text.toList
  blanks (space / 2) ++ text ++ blanks (space - space / 2)

/-- A horizontal line, from the characters at its left end, along it, between columns, and at its
right end. -/
def rule (left along between right : Char) (widths : List Nat) : String :=
  let runs := widths.map fun width => String.ofList (List.replicate (width + margin) along)
  String.singleton left ++ (String.singleton between).intercalate runs ++ String.singleton right

/-- One line of cells between upright lines. -/
def line (upright : Char) (columns : List Column) (widths : List Nat) (cells : List String) :
    String :=
  let bar := String.singleton upright
  let filled := List.zipWith (fun (column, width) cell => fill width column.atRight cell)
    (columns.zip widths) cells
  bar ++ String.join (filled.map fun cell => " " ++ cell ++ " " ++ bar)

/-- The lines of a row: as many as its highest cell has. -/
def rowLines (upright : Char) (columns : List Column) (widths : List Nat) (cells : List String) :
    List String :=
  let laid := List.zipWith (fun width cell => Paragraph.lines width .ellipsis cell) widths cells
  let height := laid.foldl (fun height lines => max height lines.length) 0
  (List.range height).map fun n =>
    line upright columns widths (laid.map fun lines => lines.getD n "")

/-! ## The whole table -/

/-- The lines of a table on a display, title first. -/
def lines (display : Nat) (table : Table) : List String :=
  let widths := table.widths display
  let width := totalWidth widths
  (Paragraph.lines width .fold table.title).map (centre width)
    ++ [rule '┏' '━' '┳' '┓' widths]
    ++ rowLines '┃' table.columns widths (table.columns.map (·.heading))
    ++ [rule '┡' '━' '╇' '┩' widths]
    ++ table.rows.flatMap (rowLines '│' table.columns widths)
    ++ [rule '└' '─' '┴' '┘' widths]

end Table

end SourceMutation
