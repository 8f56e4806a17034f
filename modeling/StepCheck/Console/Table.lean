import StepCheck.Console.Line
import StepCheck.Console.Markup

/-!
# Tables on a console

A table has a title, a heading over each column, and rows of cells. Every column is as wide as its
widest cell, and a cell with several lines makes its row higher. A grid has rows alone, without
lines around them.

* `Table.shown`, `Grid.shown` — what is seen of the cells;
* `Table.laidOut` — a table as it is shown;
* `Grid.laidOut` — a grid as it is shown.
-/

namespace StepCheck

open Console

/-- **A column** of a table. -/
structure Column where
  /-- What stands over it, without markup. -/
  heading : Text
  side : Side := .left
deriving DecidableEq

/-- **A table.** Title and cells are marked up. -/
structure Table where
  title : Text
  columns : List Column
  rows : List (List Text)

namespace Table

/-- The characters of which the lines around a row are made: at its left end, within the columns,
between them, and at its right end. -/
structure Rule where
  left : Char
  fill : Char
  divider : Char
  right : Char

/-- The line at the top. -/
def top : Rule := ⟨'┏', '━', '┳', '┓'⟩

/-- Around the headings. -/
def head : Rule := ⟨'┃', ' ', '┃', '┃'⟩

/-- The line below the headings. -/
def underHead : Rule := ⟨'┡', '━', '╇', '┩'⟩

/-- Around the cells. -/
def body : Rule := ⟨'│', ' ', '│', '│'⟩

/-- The line at the bottom. -/
def bottom : Rule := ⟨'└', '─', '┴', '┘'⟩

/-- A line over columns of the given widths. -/
def Rule.across (r : Rule) (widths : List Nat) : Text :=
  CodePoint.ofChar r.left
    :: Text.join [CodePoint.ofChar r.divider]
        (widths.map fun w => List.replicate (w + 2) (CodePoint.ofChar r.fill))
    ++ [CodePoint.ofChar r.right]

/-- Cells of one line, each with a blank on either side, between the characters of a rule. -/
def Rule.around (r : Rule) (cells : List Text) : Text :=
  CodePoint.ofChar r.left
    :: Text.join [CodePoint.ofChar r.divider]
        (cells.map fun c => CodePoint.ofChar ' ' :: c ++ [CodePoint.ofChar ' '])
    ++ [CodePoint.ofChar r.right]

/-- The lines of a row whose cells have several lines each, those of lower cells being filled up
with blank ones. -/
def stacked (widths : List Nat) (cells : List (List Text)) : List (List Text) :=
  let height := greatest (cells.map List.length)
  (List.range height).map fun i =>
    (widths.zip cells).map fun (w, lines) =>
      (lines[i]?).getD (List.replicate w (CodePoint.ofChar ' '))

/-- The widths of columns of cells; each is the greatest in its column. -/
def widthsOf (count : Nat) (rows : List (List Text)) : List Nat :=
  (List.range count).map fun i =>
    greatest (rows.map fun row => widthOf ((row[i]?).getD []))

/-- The lines of a row within the widths of its columns. -/
def rowLines (r : Rule) (columns : List Column) (widths : List Nat) (row : List Text) : List Text :=
  let cells := ((columns.zip widths).zip row).map fun ((column, width), cell) =>
    fitted column.side true width cell
  (stacked widths cells).map r.around

/-- What is seen of the title and of the cells. -/
def shown (t : Table) : Except Markup.MarkupError (Text × List (List Text)) := do
  let title ← Markup.shown t.title
  let rows ← t.rows.mapM fun row => row.mapM Markup.shown
  return (title, rows)

/-- **A table as it is shown**, line by line, with a title and rows of which the marks are gone. The
title stands over the middle of the table. -/
def laidOut (t : Table) (title : Text) (rows : List (List Text)) : List Text :=
  let headings := t.columns.map Column.heading
  let widths := widthsOf t.columns.length (headings :: rows)
  let total := widths.foldl (fun n width => n + (width + 3)) 1
  fitted .center true total title
    ++ [top.across widths]
    ++ rowLines head t.columns widths headings
    ++ [underHead.across widths]
    ++ rows.flatMap (rowLines body t.columns widths)
    ++ [bottom.across widths]

end Table

/-- **A grid**: rows of cells with a blank between columns. Cells are marked up and keep their
lines. -/
structure Grid where
  rows : List (List Text)

namespace Grid

/-- The number of columns. -/
def columnCount (g : Grid) : Nat := greatest (g.rows.map List.length)

/-- What is seen of the cells. -/
def shown (g : Grid) : Except Markup.MarkupError (List (List Text)) :=
  g.rows.mapM fun row => row.mapM Markup.shown

/-- **A grid as it is shown**, line by line, with rows of which the marks are gone. -/
def laidOut (g : Grid) (rows : List (List Text)) : List Text :=
  let widths := Table.widthsOf g.columnCount rows
  rows.flatMap fun row =>
    (Table.stacked widths ((widths.zip row).map fun (width, cell) =>
      fitted .left false width cell)).map (Text.join [CodePoint.ofChar ' '])

end Grid

end StepCheck
