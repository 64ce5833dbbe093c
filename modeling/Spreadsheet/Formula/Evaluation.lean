import Spreadsheet.Formula.Expr
import Spreadsheet.Regression.LeastSquares
import Spreadsheet.Sheet
import Spreadsheet.Value.Function

/-!
# Evaluation

The value of a formula depends on the formula, on the cell it stands in, and on the cells around it,
which it sees through a `CellView`.  An `OLS` call gives the status of its regression as its value;
the cells that the regression fills are listed by `outputs`.
-/

namespace Spreadsheet.Formula

/-- The random number that each call gives.  A call has a place in the formula of a cell: the
positions of the arguments and operands in which it stands, from the inside out. -/
abbrev Draws := CellId → List Nat → Float

def Draws.zero : Draws := fun _ _ => Number.ofNat 0

/-- What a formula sees of the cells. -/
structure CellView extends Directory where
  /-- The current term of a cell; the empty text where nothing is stored. -/
  term : CellId → Term
  draw : Draws

def isFilling (name : String) : Bool := Text.capitals name.toList == "OLS".toList

/-- Does the text call a function that fills the cells beside it?  Any place counts where the name
stands in front of a parenthesis. -/
def mentionsFilling (formula : String) : Bool :=
  Text.contains "OLS(".toList (Text.capitals formula.toList)

def Operator.apply (op : Operator) (left right : Term) : Term :=
  let order := left.compare? right
  match op with
  | power => .number (left.toNumber.map₂ Float.pow right.toNumber)
  | times => .number (left.toNumber.map₂ (· * ·) right.toNumber)
  | divide => .number (left.toNumber.map₂ (· / ·) right.toNumber)
  | plus => .number (left.toNumber.map₂ (· + ·) right.toNumber)
  | minus => .number (left.toNumber.map₂ (· - ·) right.toNumber)
  | greater => .bool (order == some .gt)
  | less => .bool (order == some .lt)
  | greaterEqual => .bool (order != some .lt)
  | lessEqual => .bool (order != some .gt)
  | equal => .bool (order != some .lt && order != some .gt)
  | different | notEqual => .bool (order == some .lt || order == some .gt)

def unresolved (reference : String) : Term := .text ("#REF: " ++ reference)

/-- The term of a reference in a formula of the cell `origin`. -/
def cellTerm (view : CellView) (origin : CellId) (r : WrittenReference) : Term :=
  match r.bind? origin.sheet view.toDirectory with
  | some bound => view.term bound.cell
  | none => unresolved r.text

/-- The term of a range in a formula of the cell `origin`. -/
def rangeTerm (view : CellView) (origin : CellId) (r : WrittenRange) : Term :=
  match r.bind? origin.sheet view.toDirectory with
  | some bound => .range ⟨bound.height, bound.width, bound.cells.map view.term⟩
  | none => unresolved r.text

def callTerm (view : CellView) (origin : CellId) (place : List Nat) (name : String)
    (arguments : List Term) : Term :=
  if isFilling name then
    match Regression.ofArguments arguments with
    | .ok r => .text r.status
    | .error e => .text e.message
  else
    match Function.ofName? name with
    | some f => f.apply (view.draw origin place) arguments
    | none => .number (Number.ofNat 0)

def callOutputs (view : CellView) (origin : CellId) (name : String) (arguments : List Term) :
    List Output :=
  if isFilling name then
    match Regression.ofArguments arguments with
    | .ok r => r.outputs origin ((view.bounds? origin.sheet).getD ⟨origin.row, origin.col⟩)
    | .error _ => []
  else []

mutual

/-- The term of an expression in the cell `origin`, which stands in a place of its formula. -/
def Expr.eval (view : CellView) (origin : CellId) (place : List Nat) : Expr → Term
  | empty => .text ""
  | number x => .number x
  | text s => .text s
  | bool b => .bool b
  | cell r => cellTerm view origin r
  | range r => rangeTerm view origin r
  | call name arguments => callTerm view origin place name (evalAll view origin place 0 arguments)
  | binary op left right =>
    op.apply (left.eval view origin (0 :: place)) (right.eval view origin (1 :: place))

/-- The terms of some expressions, which are arguments from the position `i` on. -/
def Expr.evalAll (view : CellView) (origin : CellId) (place : List Nat) (i : Nat) :
    List Expr → List Term
  | [] => []
  | e :: es => e.eval view origin (i :: place) :: evalAll view origin place (i + 1) es

end

mutual

/-- The cells that the calls in an expression fill, in the order of the calls. -/
def Expr.outputs (view : CellView) (origin : CellId) (place : List Nat) : Expr → List Output
  | call name arguments =>
    outputsAll view origin place 0 arguments ++
      callOutputs view origin name (Expr.evalAll view origin place 0 arguments)
  | binary _ left right =>
    left.outputs view origin (0 :: place) ++ right.outputs view origin (1 :: place)
  | _ => []

def Expr.outputsAll (view : CellView) (origin : CellId) (place : List Nat) (i : Nat) :
    List Expr → List Output
  | [] => []
  | e :: es => e.outputs view origin (i :: place) ++ outputsAll view origin place (i + 1) es

end

/-- The term of a formula in the cell `origin`.  A formula without an expression says so, and a range
alone has no value. -/
def evaluate (view : CellView) (origin : CellId) (formula : String) : Term :=
  match parse formula with
  | .error _ => .text ("Error in formula: " ++ formula)
  | .ok e =>
    match e.eval view origin [] with
    | .range _ => .text Term.valueError
    | t => t

/-- The cells that a formula in the cell `origin` fills. -/
def outputs (view : CellView) (origin : CellId) (formula : String) : List Output :=
  match parse formula with
  | .error _ => []
  | .ok e => e.outputs view origin []

end Spreadsheet.Formula
