import Spreadsheet.Reference.Basic
import Spreadsheet.Value.Basic

/-!
# Cells

A cell holds a formula, the value that was computed from it, and its edges: the cells that its
formula reads, and the cells whose formulas read it.  Literals are formulas too, so the value of a
cell always comes from evaluating its formula.
-/

namespace Spreadsheet

/-- The contents of a place in the grid. -/
structure Cell where
  /-- The formula without a leading `=`; empty for a blank cell. -/
  formula : String := ""
  value : CellValue := .text ""
  /-- The cells that the formula reads. -/
  precedents : CellSet := ∅
  /-- The cells whose formulas read this one. -/
  readers : CellSet := ∅

namespace Cell

def blank : Cell := {}

instance : Inhabited Cell := ⟨blank⟩

def ofFormula (formula : String) : Cell := { formula, value := .pending formula }

def filling (formula status : String) : Cell := { formula, value := .status status }

def isFilling (c : Cell) : Bool :=
  match c.value with
  | .status _ => true
  | _ => false

def isBlank (c : Cell) : Bool := c.formula.toList.all (· == '"')

end Cell

end Spreadsheet
