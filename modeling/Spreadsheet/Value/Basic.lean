import Spreadsheet.Number.Double
import Spreadsheet.Number.Shortest
import Spreadsheet.Text.Quoted

/-!
# Values of cells

A cell caches the value of its formula.  Between a write and the next recomputation the value is
`pending`.  A formula that fills the cells beside it is evaluated once, and its own cell keeps a
status text.  Every value that is not pending can be written as a literal formula.
-/

namespace Spreadsheet

def boolText (b : Bool) : String := if b then "TRUE" else "FALSE"

/-- What a cell stores beside its formula. -/
inductive CellValue
  /-- The formula has not been evaluated yet. -/
  | pending (formula : String)
  | number (value : Double)
  | text (value : String)
  | bool (value : Bool)
  /-- The state of a formula that has filled the cells beside it. -/
  | status (value : String)
deriving DecidableEq

instance : Inhabited CellValue := ⟨.text ""⟩

namespace CellValue

def display : CellValue → String
  | pending _ => ""
  | number x => Number.text x
  | text s | status s => s
  | bool b => boolText b

def literal : CellValue → String
  | pending _ => ""
  | number x => Number.text x
  | text s | status s => Text.quote s
  | bool b => boolText b

/-- Is the second value the same to a reader of the cell?  Numbers are compared as numbers, so `0`
and `-0` are the same, and the value that is not a number differs from itself. -/
def same : CellValue → CellValue → Bool
  | pending f, pending g => f == g
  | number x, number y => x.toFloat == y.toFloat
  | text s, text t => s == t
  | bool b, bool c => b == c
  | status s, status t => s == t
  | _, _ => false

end CellValue

end Spreadsheet
