import Spreadsheet.Reference.Shift

/-!
# Tilings

A block is copied onto another by pairing each cell that is written with the cell that it is copied
from.  If the destination has more cells than the source, the source is repeated over it; otherwise
the source as a whole is laid out from the first cell of the destination.  Cells outside the sheet
are left out; their coordinates are words, so a row or column beyond the last word comes round to the
first ones.
-/

namespace Spreadsheet

/-- The cells that a source is laid out on, each with the cell that it takes its contents from,
column by column.  The bounds are those of the sheet of the destination. -/
def tiling (bounds : Bounds) (source destination : BoundRange) : List (CellId × CellId) :=
  let repeated := source.area < destination.area
  let (rows, cols) :=
    if repeated then (destination.rowCount, destination.colCount)
    else (source.rowCount, source.colCount)
  (List.range cols).flatMap fun i =>
    (List.range rows).filterMap fun j =>
      let row := wrap (destination.top + j)
      let col := wrap (destination.left + i)
      if row ≤ bounds.rows ∧ col ≤ bounds.cols then
        some (⟨destination.sheet, row, col⟩,
          ⟨source.sheet, source.top + j % source.height, source.left + i % source.width⟩)
      else none

end Spreadsheet
