/-
  Tables with ruled borders.

  A cell may have several lines, and a column is as wide as its widest line.
  Cells have a space on either side and columns one more between them; only the
  outer border and the line under the header are drawn.
-/
import SignGloss.Text.Pieces

namespace SignGloss.Command

/-- The lines of a cell. -/
abbrev Cell := List (List Char)

/-- The cell with a text. -/
def Cell.of (s : String) : Cell := Text.pieces '\n' s.toList

/-- The length of the longest line. -/
def Cell.width (c : Cell) : Nat := (c.map List.length).foldl max 0

/-- The widths of columns that hold these rows. -/
def columnWidths (columns : Nat) (rows : List (List Cell)) : List Nat :=
  rows.foldl (fun ws r => List.zipWith max ws (r.map Cell.width)) (List.replicate columns 0)

/-- A line of a cell, filled up to the width of its column. -/
def padded (width : Nat) (line : List Char) : List Char :=
  [' '] ++ line ++ List.replicate (width - line.length) ' ' ++ [' ']

/-- The line of a row with a number, counted from 0; a cell that has no such line
    is blank there. -/
def rowLine (widths : List Nat) (row : List Cell) (i : Nat) : List Char :=
  ['│'] ++ [' '].intercalate (List.zipWith (fun w c => padded w (c.getD i [])) widths row) ++ ['│']

/-- The lines of a row. -/
def rowLines (widths : List Nat) (row : List Cell) : List (List Char) :=
  (List.range ((row.map List.length).foldl max 0)).map (rowLine widths row)

/-- The width of the space inside the border. -/
def innerWidth : List Nat → Nat
  | [] => 0
  | [w] => w + 2
  | w :: ws => w + 3 + innerWidth ws

/-- A line across the table. -/
def ruleLine (left middle right : Char) (widths : List Nat) : List Char :=
  [left] ++ List.replicate (innerWidth widths) middle ++ [right]

/-- A table with a header, without a line feed at its end. -/
def ruledTable (header : List String) (rows : List (List String)) : String :=
  let head := header.map Cell.of
  let body := rows.map (·.map Cell.of)
  let widths := columnWidths header.length (head :: body)
  let all := [ruleLine '┌' '─' '┐' widths] ++ rowLines widths head
    ++ [ruleLine '╞' '═' '╡' widths] ++ body.flatMap (rowLines widths)
    ++ [ruleLine '└' '─' '┘' widths]
  String.ofList (['\n'].intercalate all)

end SignGloss.Command
