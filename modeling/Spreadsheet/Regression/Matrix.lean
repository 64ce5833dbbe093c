import Spreadsheet.Number.Binary

/-!
# Matrices

Matrices of doubles as lists of rows.  A product adds up each entry from the left, and `inverse?`
eliminates with the row whose pivot is largest, so that every entry is one definite double.
-/

namespace Spreadsheet

/-- A matrix by its rows, each with `width` entries. -/
structure Matrix where
  width : Nat
  rows : List (List Float)

namespace Matrix

def height (m : Matrix) : Nat := m.rows.length

def zeros (height width : Nat) : Matrix :=
  ⟨width, List.replicate height (List.replicate width (Number.ofNat 0))⟩

def identity (n : Nat) : Matrix :=
  ⟨n, (List.range n).map fun r =>
    (List.range n).map fun c => Number.ofNat (if r = c then 1 else 0)⟩

/-- The matrix with the given columns.  The first one sets the height: longer columns are cut, and
shorter ones filled up with zeros. -/
def ofColumns (columns : List (List Float)) : Matrix :=
  ⟨columns.length, (List.range (columns.head?.getD []).length).map fun r =>
    columns.map fun column => column.getD r (Number.ofNat 0)⟩

def column (m : Matrix) (c : Nat) : List Float := m.rows.map (·.getD c (Number.ofNat 0))

def transpose (m : Matrix) : Matrix := ⟨m.height, (List.range m.width).map m.column⟩

/-- The sum of the products of corresponding entries, which starts at `-0`. -/
def dot (xs ys : List Float) : Float :=
  (List.zipWith (· * ·) xs ys).foldl (· + ·) (Number.ofPattern true 0)

def mul? (a b : Matrix) : Option Matrix :=
  if a.width = b.height then
    some ⟨b.width, a.rows.map fun row => (List.range b.width).map fun c => dot row (b.column c)⟩
  else none

abbrev Elimination := List Float × List Float

def entry (row : Elimination) (c : Nat) : Float := row.1.getD c (Number.ofNat 0)

def leastPivot : Float := 1e-12

/-- The index of the row with the largest magnitude in a column; of equals, the last. -/
def pivotIndex (rows : List Elimination) (c : Nat) : Nat :=
  let better := fun (best : Nat × Float) (next : Float × Nat) =>
    if Number.totalOrder best.2 next.1 == .gt then best else (next.2, next.1)
  ((rows.map fun row => (entry row c).abs).zipIdx.foldl better (0, Number.ofNat 0)).1

def divide (row : Elimination) (p : Float) : Elimination := (row.1.map (· / p), row.2.map (· / p))

/-- Subtracts from a row the multiple of the pivot row that makes its entry in a column zero. -/
def reduce (pivotRow : Elimination) (c : Nat) (row : Elimination) : Elimination :=
  let factor := entry row c
  if factor == Number.ofNat 0 then row
  else
    let less := List.zipWith fun x p => x - factor * p
    (less row.1 pivotRow.1, less row.2 pivotRow.2)

/-- Eliminates a column: the best of the rows from `c` on comes to place `c`, is divided by its
pivot, and its multiples are taken from all other rows. -/
def eliminate (rows : List Elimination) (c : Nat) : Option (List Elimination) := do
  let settled := rows.take c
  let remaining := rows.drop c
  let i := pivotIndex remaining c
  let pivotRow ← remaining[i]?
  let first ← remaining.head?
  let magnitude := (entry pivotRow c).abs
  if magnitude.isNaN || magnitude ≤ leastPivot then none
  let unit := divide pivotRow (entry pivotRow c)
  let others := (remaining.set i first).drop 1
  return settled.map (reduce unit c) ++ unit :: others.map (reduce unit c)

def inverse? (m : Matrix) : Option Matrix := do
  if m.height ≠ m.width then none
  let rows ← (List.range m.width).foldlM eliminate (m.rows.zip (identity m.width).rows)
  return ⟨m.width, rows.map (·.2)⟩

end Matrix

end Spreadsheet
