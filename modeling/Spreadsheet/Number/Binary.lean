/-!
# Binary floating point by patterns

The magnitude of a double is kept as its bit pattern without the sign, a natural number.  The
patterns below `infinite` stand for the finite magnitudes in increasing order: `unpack` reads a
pattern as `m * 2 ^ k` steps of the smallest positive magnitude `2 ^ -1074`, and `nearest` finds the
pattern whose magnitude is nearest to a fraction, a tie going to the even pattern.  All arithmetic
is exact arithmetic of natural numbers.
-/

namespace Spreadsheet.Number

/-- The pattern of infinity: one more than that of the largest finite magnitude. -/
def infinite : Nat := 0x7FF0000000000000

def notANumber : Nat := 0x7FF8000000000000

def signBit : Nat := 0x8000000000000000

def fractionSize : Nat := 0x10000000000000

/-- The significand and the scale of a finite pattern: the magnitude is `m * 2 ^ k` steps of
`2 ^ -1074`. -/
def unpack (pattern : Nat) : Nat × Nat :=
  let field := pattern / fractionSize
  let fraction := pattern % fractionSize
  if field = 0 then (fraction, 0) else (fractionSize + fraction, field - 1)

def roundDiv (num den : Nat) : Nat :=
  let q := num / den
  let r := num % den
  if 2 * r < den ∨ (2 * r = den ∧ q % 2 = 0) then q else q + 1

/-- The pattern of the magnitude nearest to `num / den`; from half a step above the largest finite
magnitude on, infinity. -/
def nearest (num den : Nat) : Nat :=
  let steps := num <<< 1074
  let k := (steps / den).log2 - 52
  min (k * fractionSize + roundDiv steps (den <<< k)) infinite

def ofPattern (negative : Bool) (pattern : Nat) : Float :=
  Float.ofBits ((if negative then signBit else 0) + pattern).toUInt64

def patternOf (x : Float) : Nat := x.toBits.toNat % signBit

def isNegative (x : Float) : Bool := signBit ≤ x.toBits.toNat

def ofNat (n : Nat) : Float := ofPattern false (nearest n 1)

/-- A key that grows along the total order of doubles: negative numbers, `-0`, `0`, positive
numbers, infinity, and last the value that is not a number. -/
def orderKey (x : Float) : Int :=
  if isNegative x then -(patternOf x : Int) - 1 else patternOf x

/-- The total order of doubles, in which `-0` comes before `0`. -/
def totalOrder (x y : Float) : Ordering := compare (orderKey x) (orderKey y)

end Spreadsheet.Number
