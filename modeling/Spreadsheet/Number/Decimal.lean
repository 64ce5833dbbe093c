import Spreadsheet.Number.Binary
import Spreadsheet.Text.Character

/-!
# Numbers from decimal text

Two notations are read.  A literal of a formula is a row of digits with at most one point among
them.  The text of a cell that is used as a number may also have a sign and an exponent, or be one
of the words for infinity and for the value that is not a number.  Both give the double nearest to
the decimal fraction that is written.
-/

namespace Spreadsheet.Number

def powerOfTen (n : Nat) : Nat := Nat.pow 10 n

/-- The magnitude pattern nearest to `coefficient * 10 ^ exponent`.  The first two cases only save
work: beyond them the answer is zero or infinity. -/
def ofDecimal (coefficient : Nat) (exponent : Int) : Nat :=
  let size := (Nat.toDigits 10 coefficient).length + exponent
  if coefficient = 0 ∨ size < -400 then 0
  else if 400 < size then infinite
  else if 0 ≤ exponent then nearest (coefficient * powerOfTen exponent.toNat) 1
  else nearest coefficient (powerOfTen (-exponent).toNat)

/-- A row of digits with at most one point, as a coefficient and the number of digits after the
point. -/
structure Mantissa where
  coefficient : Nat
  places : Nat

def Mantissa.ofChars? (cs : List Char) : Option Mantissa :=
  let whole := cs.takeWhile Char.isDigit
  match cs.dropWhile Char.isDigit with
  | [] =>
    if whole.isEmpty then none else some ⟨Nat.ofDigitChars 10 whole 0, 0⟩
  | c :: fraction =>
    if c == '.' && fraction.all Char.isDigit && !(whole.isEmpty && fraction.isEmpty) then
      some ⟨Nat.ofDigitChars 10 (whole ++ fraction) 0, fraction.length⟩
    else none

def Mantissa.pattern (m : Mantissa) (exponent : Int) : Nat :=
  ofDecimal m.coefficient (exponent - m.places)

def readLiteral? (cs : List Char) : Option Nat :=
  (Mantissa.ofChars? cs).map (·.pattern 0)

def readExponent? (cs : List Char) : Option Int :=
  let (negative, ds) := match cs with
    | '-' :: ds => (true, ds)
    | '+' :: ds => (false, ds)
    | ds => (false, ds)
  if ds.isEmpty || !ds.all Char.isDigit then none
  else
    let n : Int := Nat.ofDigitChars 10 ds 0
    some (if negative then -n else n)

/-- Reads a magnitude with an optional exponent, or one of the words for special values, in any
case of letters. -/
def readMagnitude? (cs : List Char) : Option Nat :=
  let word := String.ofList (Text.capitals cs)
  if word == "INF" || word == "INFINITY" then some infinite
  else if word == "NAN" then some notANumber
  else
    let isMark := fun c => c == 'e' || c == 'E'
    let mantissa := Mantissa.ofChars? (cs.takeWhile (!isMark ·))
    match cs.dropWhile (!isMark ·) with
    | [] => mantissa.map (·.pattern 0)
    | _ :: exponent => do (← mantissa).pattern (← readExponent? exponent)

def read? (cs : List Char) : Option Float :=
  match cs with
  | '-' :: ds => (readMagnitude? ds).map (ofPattern true)
  | '+' :: ds => (readMagnitude? ds).map (ofPattern false)
  | ds => (readMagnitude? ds).map (ofPattern false)

end Spreadsheet.Number
