import Spreadsheet.Number.Decimal

/-!
# Numbers as decimal text

A number is written with the fewest significant digits that read back to it.  On the grid of
decimals with `n` digits only the two neighbours of the number can be nearest to it, so for
`n = 1, 2, …` both are tried; of two that read back the nearer is taken, and the upper one when both
are equally near.  The text is always positional.
-/

namespace Spreadsheet.Number

/-- The decimal fraction `coefficient * 10 ^ exponent`. -/
structure Decimal where
  coefficient : Nat
  exponent : Int
deriving DecidableEq, Repr

def Decimal.carried (d : Decimal) : Decimal :=
  if d.coefficient = 10 then ⟨1, d.exponent + 1⟩ else d

def Decimal.pattern (d : Decimal) : Nat := ofDecimal d.coefficient d.exponent

def fractionOf (pattern : Nat) : Nat × Nat :=
  let (m, k) := unpack pattern
  if 1074 ≤ k then (m <<< (k - 1074), 1) else (m, 1 <<< (1074 - k))

/-- The exponent `e` with `10 ^ (e - 1) ≤ num / den < 10 ^ e`. -/
def decimalExponent (num den : Nat) : Int :=
  if den ≤ num then (Nat.toDigits 10 (num / den)).length
  else 1 - (Nat.toDigits 10 ((den - 1) / num)).length

/-- The two neighbours of `num / den` among the multiples of `10 ^ exponent`, the nearer one
first, and the upper one first when both are equally near. -/
def neighbours (num den : Nat) (exponent : Int) : List Decimal :=
  let (num, den) :=
    if 0 ≤ exponent then (num, den * powerOfTen exponent.toNat)
    else (num * powerOfTen (-exponent).toNat, den)
  let lower := num / den
  if 2 * (num % den) < den then [⟨lower, exponent⟩, ⟨lower + 1, exponent⟩]
  else [⟨lower + 1, exponent⟩, ⟨lower, exponent⟩]

def exactDecimal (pattern : Nat) : Decimal :=
  let (m, k) := unpack pattern
  if 1074 ≤ k then ⟨m <<< (k - 1074), 0⟩ else ⟨m * Nat.pow 5 (1074 - k), (k : Int) - 1074⟩

/-- The first neighbour with `n`, `n + 1`, … digits that reads back, of `fuel` many; failing all,
the exact magnitude. -/
def shortestFrom (pattern : Nat) (fuel n : Nat) : Decimal :=
  match fuel with
  | 0 => exactDecimal pattern
  | fuel + 1 =>
    let (num, den) := fractionOf pattern
    let candidates := (neighbours num den (decimalExponent num den - n)).map Decimal.carried
    match candidates.find? (·.pattern == pattern) with
    | some d => d
    | none => shortestFrom pattern fuel (n + 1)

/-- The decimal with the fewest digits that reads back to a finite magnitude.  Seventeen digits
always suffice. -/
def shortest (pattern : Nat) : Decimal :=
  if pattern = 0 then ⟨0, 0⟩ else shortestFrom pattern 17 1

def dropTrailingZeros (cs : List Char) : List Char :=
  (cs.reverse.dropWhile (· == '0')).reverse

/-- The decimal in positional notation, with a point only where a digit follows it. -/
def Decimal.chars (d : Decimal) : List Char :=
  let ds := Nat.toDigits 10 d.coefficient
  if 0 ≤ d.exponent then
    if d.coefficient = 0 then ['0'] else ds ++ List.replicate d.exponent.toNat '0'
  else
    let places := (-d.exponent).toNat
    let padded := List.replicate (places + 1 - ds.length) '0' ++ ds
    let whole := padded.take (padded.length - places)
    let fraction := dropTrailingZeros (padded.drop (padded.length - places))
    if fraction.isEmpty then whole else whole ++ '.' :: fraction

/-- The text of a number: shortest digits, never an exponent, with words for the special values. -/
def chars (x : Float) : List Char :=
  let pattern := patternOf x
  if infinite < pattern then "NaN".toList
  else if pattern = infinite then (if isNegative x then "-Inf" else "+Inf").toList
  else
    let magnitude := (shortest pattern).chars
    if isNegative x then '-' :: magnitude else magnitude

def text (x : Float) : String := String.ofList (chars x)

def plainText (x : Float) : String :=
  if patternOf x = infinite then (if isNegative x then "-inf" else "inf") else text x

end Spreadsheet.Number
