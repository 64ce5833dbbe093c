import Spreadsheet.Reference.Basic

/-!
# Moving references

Moving a reference adds a distance to its row and to its column and then brings each axis back into
the sheet.  A pinned axis can be told to stay.  The sums are those of signed 64-bit integers.
-/

namespace Spreadsheet

/-- A natural number below `2 ^ 64` read as a signed 64-bit integer. -/
def signed (n : Nat) : Int := Int.bmod n UInt64.size

/-- A distance in rows and columns. -/
structure Distance where
  rows : Int
  cols : Int
deriving DecidableEq, Repr

def Distance.zero : Distance := ⟨0, 0⟩

def Distance.between (source target : CellId) : Distance :=
  ⟨Int.bmod (signed target.row - signed source.row) UInt64.size,
    Int.bmod (signed target.col - signed source.col) UInt64.size⟩

/-- The number of rows and of columns of a sheet. -/
structure Bounds where
  rows : Nat
  cols : Nat
deriving DecidableEq, Repr

/-- Brings a coordinate into `1 … bound` and says whether that changed it.  A bound of zero counts
as one. -/
def clampAxis (value : Int) (bound : Nat) : Nat × Bool :=
  let bound := max bound 1
  if value < 1 then (1, true)
  else if signed bound < value then (bound, true)
  else (value.toNat, false)

/-- The coordinate after a move, before it is brought into the sheet. -/
def movedAxis (coordinate : Nat) (distance : Int) (stays : Bool) : Int :=
  if stays then signed coordinate else Int.bmod (signed coordinate + distance) UInt64.size

/-- Moves a reference and says whether it had to be brought back into the sheet.  With `honorFixed`
a pinned axis does not move.  The zero distance leaves any reference as it is, even one outside the
sheet. -/
def Reference.shift {S : Type} (r : Reference S) (d : Distance) (honorFixed : Bool)
    (bounds : Bounds) : Reference S × Bool :=
  if d = Distance.zero then (r, false)
  else
    let (row, rowClamped) :=
      clampAxis (movedAxis r.row d.rows (honorFixed && r.fixedRow)) bounds.rows
    let (col, colClamped) :=
      clampAxis (movedAxis r.col d.cols (honorFixed && r.fixedCol)) bounds.cols
    ({ r with row, col }, rowClamped || colClamped)

end Spreadsheet
