import Spreadsheet.Grid.Edit

/-!
# Events

A viewer of a grid is told which cells have changed, or that it has to read everything again.
-/

namespace Spreadsheet

/-- A cell as a viewer sees it. -/
structure ChangedCell where
  /-- The letters and the row of the cell. -/
  reference : String
  display : String
  /-- The formula with a leading `=`; empty for a blank cell. -/
  formula : String
  sheet : Nat
deriving DecidableEq, Repr

def Grid.viewed (g : Grid) (id : CellId) : ChangedCell :=
  let formula := g.formula id
  ⟨id.a1, g.display id, if formula.isEmpty then "" else "=" ++ formula, id.sheet⟩

/-- What a viewer is told. -/
inductive Event
  | changed (cells : List ChangedCell)
  /-- Everything has to be read again. -/
  | invalidate
  | progress (progress : Progress)
  /-- The answer to a question about a cell. -/
  | cell (cell : ChangedCell)
  /-- The grid is saved under this name. -/
  | saved (path : String)
  | error (message : String)
deriving DecidableEq, Repr

def Outcome.event (o : Outcome) (g : Grid) : Event :=
  if o.invalidate || g.options.changeThreshold ≤ o.changed.length then .invalidate
  else .changed (o.changed.map g.viewed)

end Spreadsheet
