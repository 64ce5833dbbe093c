import Std.Data.ExtTreeMap
import Std.Data.ExtTreeSet
import Spreadsheet.Reference.Column

/-!
# Cells, references and ranges

A cell is named by the index of its sheet and by its row and column, both counted from 1.  A
reference is what a formula writes: a row and a column, each possibly pinned by a `$`, and a sheet.
`Reference` takes the kind of sheet as a parameter: the name that is written, if any, in a
`WrittenReference`, and the index of a sheet in a `BoundReference`.

Cells are ordered by sheet, then row, then column.  `CellSet` and `CellMap` are finite sets and maps
in this order in which equal contents mean equality.
-/

namespace Spreadsheet

/-- The place of a cell. -/
structure CellId where
  sheet : Nat
  row : Nat
  col : Nat
deriving DecidableEq, Repr, Inhabited

namespace CellId

instance : Ord CellId where
  compare a b :=
    (compare a.sheet b.sheet).then ((compare a.row b.row).then (compare a.col b.col))

instance : Std.TransOrd CellId :=
  inferInstanceAs (Std.TransCmp (compareLex (compareOn CellId.sheet)
    (compareLex (compareOn CellId.row) (compareOn CellId.col))))

instance : Std.LawfulEqOrd CellId where
  eq_of_compare {a b} h := by
    have parts : (compare a.sheet b.sheet).then
        ((compare a.row b.row).then (compare a.col b.col)) = .eq := h
    rw [Ordering.then_eq_eq, Ordering.then_eq_eq, Nat.compare_eq_eq, Nat.compare_eq_eq,
      Nat.compare_eq_eq] at parts
    obtain ⟨s, r, c⟩ := a
    obtain ⟨s', r', c'⟩ := b
    obtain ⟨rfl, rfl, rfl⟩ := parts
    rfl

def a1 (id : CellId) : String := String.ofList (columnLetters id.col ++ Nat.toDigits 10 id.row)

def text (id : CellId) : String := toString id.sheet ++ "!" ++ id.a1

end CellId

abbrev CellSet := Std.ExtTreeSet CellId

abbrev CellMap (α : Type) := Std.ExtTreeMap CellId α

/-- A reference to one cell as a formula writes it, on a sheet of the given kind. -/
structure Reference (Sheet : Type) where
  sheet : Sheet
  row : Nat
  col : Nat
  /-- Is there a `$` before the row? -/
  fixedRow : Bool := false
  /-- Is there a `$` before the column? -/
  fixedCol : Bool := false
deriving DecidableEq, Repr

/-- A reference whose sheet is the name in front of it, if there is one. -/
abbrev WrittenReference := Reference (Option String)

abbrev BoundReference := Reference Nat

namespace Reference

def onSheet {S T : Type} (r : Reference S) (sheet : T) : Reference T :=
  { sheet, row := r.row, col := r.col, fixedRow := r.fixedRow, fixedCol := r.fixedCol }

/-- The letters and the row of a reference with its `$` signs. -/
def a1Chars {S : Type} (r : Reference S) : List Char :=
  (if r.fixedCol then ['$'] else []) ++ columnLetters r.col ++
    ((if r.fixedRow then ['$'] else []) ++ Nat.toDigits 10 r.row)

/-- `a1Chars` as a string. -/
def a1 {S : Type} (r : Reference S) : String := String.ofList r.a1Chars

def cell (r : BoundReference) : CellId := ⟨r.sheet, r.row, r.col⟩

end Reference

def CellId.reference (id : CellId) : BoundReference := { sheet := id.sheet, row := id.row, col := id.col }

/-- A natural number as a word of 64 bits, in which the sums and products of coordinates are taken. -/
def wrap (n : Nat) : Nat := n % coordinateLimit

theorem wrap_of_lt {n : Nat} (fits : n < coordinateLimit) : wrap n = n := Nat.mod_eq_of_lt fits

theorem wrap_le (n : Nat) : wrap n ≤ n := Nat.mod_le n coordinateLimit

theorem wrap_lt (n : Nat) : wrap n < coordinateLimit := Nat.mod_lt n (by decide)

/-- Two corners of a rectangle of cells, as they are written. -/
structure Range (Sheet : Type) where
  start : Reference Sheet
  stop : Reference Sheet
deriving DecidableEq, Repr

/-- A range whose sheet is the name in front of it, if there is one. -/
abbrev WrittenRange := Range (Option String)

abbrev BoundRange := Range Nat

namespace Range

variable {S : Type} (r : Range S)

def top : Nat := min r.start.row r.stop.row

def left : Nat := min r.start.col r.stop.col

def bottom : Nat := max r.start.row r.stop.row

def right : Nat := max r.start.col r.stop.col

def rowCount : Nat := r.bottom - r.top + 1

def colCount : Nat := r.right - r.left + 1

def height : Nat := wrap r.rowCount

def width : Nat := wrap r.colCount

def area : Nat := wrap (r.height * r.width)

def a1 : String := r.start.a1 ++ ":" ++ r.stop.a1

def onSheet {T : Type} (sheet : T) : Range T := ⟨r.start.onSheet sheet, r.stop.onSheet sheet⟩

end Range

namespace Range

def sheet (r : BoundRange) : Nat := r.start.sheet

def block (sheet top left bottom right : Nat) : BoundRange :=
  ⟨{ sheet, row := top, col := left }, { sheet, row := bottom, col := right }⟩

def single (id : CellId) : BoundRange := ⟨id.reference, id.reference⟩

def cells (r : BoundRange) : List CellId :=
  (List.range' r.left r.colCount).flatMap fun col =>
    (List.range' r.top r.rowCount).map fun row => ⟨r.sheet, row, col⟩

def contains (r : BoundRange) (id : CellId) : Bool :=
  id.sheet == r.sheet && r.top ≤ id.row && id.row ≤ r.bottom && r.left ≤ id.col && id.col ≤ r.right

end Range

end Spreadsheet
