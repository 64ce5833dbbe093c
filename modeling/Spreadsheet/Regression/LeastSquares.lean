import Spreadsheet.Reference.Shift
import Spreadsheet.Regression.Matrix
import Spreadsheet.Value.Term

/-!
# Least squares

The regression of one series on others, with an intercept.  Its result is laid out in a block of
cells to the right of the cell that asks for it:

    (r, c)    (r, c+1)   (r, c+2)    (r, c+3)   (r, c+4)
    status    y hat      residuals   beta 1     intercept
              fitted 1   residual 1  beta 2     coefficient
              fitted 2   residual 2  …          …

What falls outside the sheet is left out, after rows and columns have come round in words of 64 bits.
-/

namespace Spreadsheet

/-- The result of a regression. -/
structure Regression where
  /-- The intercept and then a coefficient for each series. -/
  coefficients : List Float
  fitted : List Float
  residuals : List Float
  /-- The coefficients are not determined; all numbers are none. -/
  singular : Bool

/-- Why the arguments allow no regression. -/
inductive RegressionError
  | tooFewArguments
  | notARange
  | unequalLengths
deriving DecidableEq, Repr

def RegressionError.message : RegressionError → String
  | tooFewArguments => "OLS requires a y range and at least one x range"
  | notARange => "OLS arguments must be ranges"
  | unequalLengths => "OLS ranges must have equal length"

/-- A cell beside the formula and the value that is written into it. -/
structure Output where
  cell : CellId
  value : CellValue

namespace Regression

def status (r : Regression) : String :=
  if r.singular then "OLS Regression: singular matrix" else "OLS Regression"

def undetermined (size parameters : Nat) : Regression :=
  let nan := Number.ofPattern false Number.notANumber
  ⟨List.replicate parameters nan, List.replicate size nan, List.replicate size nan, true⟩

def coefficients? (x : Matrix) (y : List Float) : Option (List Float) := do
  let transposed := x.transpose
  let inverse ← (← transposed.mul? x).inverse?
  let moments ← transposed.mul? (Matrix.ofColumns [y])
  return (← inverse.mul? moments).column 0

/-- The regression of `y` on some series of its length. -/
def fit (y : List Float) (series : List (List Float)) : Regression :=
  let x := Matrix.ofColumns (List.replicate y.length (Number.ofNat 1) :: series)
  match coefficients? x y with
  | none => undetermined y.length x.width
  | some coefficients =>
    let fitted := x.rows.map (Matrix.dot · coefficients)
    ⟨coefficients, fitted, List.zipWith (· - ·) y fitted, false⟩

def seriesOf : Term → Except RegressionError (List Float)
  | .range b => .ok (b.values.map (·.toNumber))
  | _ => .error .notARange

def ofArguments (arguments : List Term) : Except RegressionError Regression :=
  match arguments with
  | y :: x :: xs => do
    let y ← seriesOf y
    let series ← (x :: xs).mapM seriesOf
    if series.any (·.length != y.length) then .error .unequalLengths
    return fit y series
  | _ => .error .tooFewArguments

def block (origin : CellId) (r : Regression) : List Output :=
  let place := fun row col value =>
    Output.mk ⟨origin.sheet, wrap (origin.row + row), wrap (origin.col + col)⟩ value
  [place 0 1 (.text "y hat"), place 0 2 (.text "residuals")] ++
    (r.fitted.zip r.residuals).zipIdx.flatMap (fun ((fitted, residual), i) =>
      [place (i + 1) 1 (.number fitted), place (i + 1) 2 (.number residual)]) ++
    r.coefficients.zipIdx.flatMap fun (beta, i) =>
      [place i 3 (.text ("beta " ++ toString (i + 1))), place i 4 (.number beta)]

/-- The cells that a regression fills beside its origin, in a sheet of the given size. -/
def outputs (origin : CellId) (r : Regression) (bounds : Bounds) : List Output :=
  (r.block origin).filter fun o => o.cell.row ≤ bounds.rows && o.cell.col ≤ bounds.cols

end Regression

end Spreadsheet
