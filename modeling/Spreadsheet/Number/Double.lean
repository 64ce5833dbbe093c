import Spreadsheet.Number.Decimal

/-!
# Doubles with all their signs

A `Float` has one value that is not a number.  The doubles of a machine have two, with and without the
sign, and the total order tells them apart: the one with the sign comes before every number, and the
other one after.  A machine makes the one with the sign where an operation has no result.
-/

namespace Spreadsheet

/-- A double; the value that is not a number is `plain` only without the sign. -/
inductive Double
  | plain (value : Float)
  | minusNaN
deriving DecidableEq

namespace Double

def toFloat : Double → Float
  | plain x => x
  | minusNaN => Number.ofPattern false Number.notANumber

instance : Coe Float Double := ⟨plain⟩

instance : Coe Double Float := ⟨toFloat⟩

instance {n : Nat} : OfNat Double n := ⟨plain (OfNat.ofNat n)⟩

instance : Inhabited Double := ⟨0⟩

def isNaN (x : Double) : Bool := Number.infinite < Number.patternOf x

/-- The double that an operation gives which has the result `x`: if this is not a number, the first
operand that is none, and where all are numbers the one with the sign. -/
def result (operands : List Double) (x : Float) : Double :=
  if isNaN x then (operands.find? isNaN).getD minusNaN else x

def map (f : Float → Float) (x : Double) : Double := result [x] (f x)

def map₂ (f : Float → Float → Float) (x y : Double) : Double := result [x, y] (f x y)

def abs (x : Double) : Double := plain (Float.abs x)

def read? (cs : List Char) : Option Double :=
  (Number.read? cs).map fun x => if isNaN x && cs.head? == some '-' then minusNaN else x

def orderKey : Double → Int
  | plain x => Number.orderKey x
  | minusNaN => -(Number.notANumber : Int) - 1

/-- The total order of doubles. -/
def totalOrder (x y : Double) : Ordering := compare (orderKey x) (orderKey y)

end Double

end Spreadsheet
