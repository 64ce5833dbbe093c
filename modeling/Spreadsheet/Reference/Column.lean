/-!
# Column letters

Columns are numbered from 1 and written in bijective base 26: `A` to `Z`, then `AA`, `AB` and so on.
There is no digit for zero, so column 0 has no letters.  Reading fails for a column that does not
fit 64 bits.
-/

namespace Spreadsheet

/-- Coordinates written in a text have to be below this bound. -/
def coordinateLimit : Nat := UInt64.size

/-- The capital letter with a value from 0 to 25. -/
def letterOf (n : Nat) : Char := Char.ofNat ('A'.toNat + n)

/-- The value of a letter, from 1 to 26, in either case. -/
def letterValue (c : Char) : Nat := c.toUpper.toNat - 'A'.toNat + 1

def columnLetters (column : Nat) : List Char :=
  if column = 0 then []
  else columnLetters ((column - 1) / 26) ++ [letterOf ((column - 1) % 26)]

def appendLetter (column : Nat) (c : Char) : Option Nat :=
  if c.isAlpha && column * 26 + letterValue c < coordinateLimit then
    some (column * 26 + letterValue c)
  else none

def columnOfLetters? (cs : List Char) : Option Nat :=
  if cs.isEmpty then none else cs.foldlM appendLetter 0

end Spreadsheet
