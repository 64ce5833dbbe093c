import Spreadsheet.Value.Basic
import Spreadsheet.Text.Character

/-!
# Terms

Evaluation works on terms: numbers, texts, truth values, and blocks of terms that come from ranges.
Each kind of operation takes its own view of a term, and every term has all views.  Two orders
compare terms: `compare?` is the one of the comparison operators, which leaves some pairs unordered,
and `sortOrder` is total and arranges the rows of a sort.
-/

namespace Spreadsheet

/-- A rectangle of values, column by column. -/
structure Block (α : Type) where
  height : Nat
  width : Nat
  values : List α

namespace Block

variable {α : Type} (b : Block α)

/-- The value in a row and a column counted from 0. -/
def get? (row col : Nat) : Option α :=
  if row < b.height ∧ col < b.width then b.values[col * b.height + row]? else none

/-- The values of a column counted from 0. -/
def column (col : Nat) : List α := (b.values.drop (col * b.height)).take b.height

end Block

/-- A value during evaluation. -/
inductive Term
  | number (value : Double)
  | text (value : String)
  | bool (value : Bool)
  | range (block : Block Term)

instance : Inhabited Term := ⟨.text ""⟩

namespace Term

def valueError : String := "#VALUE!"

/-- The view as a number: truth values are 1 and 0, text counts if it is a number, and all else
is 0. -/
def toNumber : Term → Double
  | number x => x
  | bool b => Number.ofNat b.toNat
  | text s => (Double.read? (Text.trim s.toList)).getD (Number.ofNat 0)
  | range _ => Number.ofNat 0

def toText : Term → String
  | number x => Number.text x
  | text s => s
  | bool b => boolText b
  | range _ => valueError

def toBool : Term → Bool
  | bool b => b
  | number x => x.toFloat != Number.ofNat 0
  | text s => !s.isEmpty
  | range _ => false

/-- The order of the comparison operators.  A text is above every number.  A truth value beside
something else, a range, and a number that is none have no place in it. -/
def compare? : Term → Term → Option Ordering
  | text s, text t => some (compare s t)
  | text _, number _ => some .gt
  | number _, text _ => some .lt
  | number x, number y =>
    if x.toFloat < y.toFloat then some .lt
    else if y.toFloat < x.toFloat then some .gt
    else if x.toFloat == y.toFloat then some .eq
    else none
  | bool b, bool c => some (compare b c)
  | _, _ => none

def rank : Term → Nat
  | number _ => 0
  | text _ => 1
  | bool _ => 2
  | range _ => 3

/-- The order of a sort: numbers, then texts, then truth values. -/
def sortOrder : Term → Term → Ordering
  | number x, number y => x.totalOrder y
  | text s, text t => compare s t
  | bool b, bool c => compare b c
  | s, t => compare s.rank t.rank

def ofValue : CellValue → Term
  | .number x => .number x
  | .bool b => .bool b
  | .text s | .status s => .text s
  | .pending _ => .text ""

def toValue : Term → CellValue
  | number x => .number x
  | text s => .text s
  | bool b => .bool b
  | range _ => .text valueError

def flatten (terms : List Term) : List Term :=
  terms.flatMap fun
    | range b => b.values
    | t => [t]

end Term

end Spreadsheet
