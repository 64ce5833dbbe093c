import Spreadsheet.Number.Decimal
import Spreadsheet.Toml.Basic

/-!
# Words in TOML

A value that is not a text, an array or a table is a word: a truth value or a number.  The digits of a
number may have single underscores between them.  Integers fit 64 bits with a sign and may be
written to base 16, 8 or 2; floats have a fraction, an exponent or both, or are `inf` or `nan`.  A
float beyond the greatest double is refused, and one below the least is minus infinity.
-/

namespace Spreadsheet.Toml

/-- Is every underscore between two other characters?  `mayCome` says whether one may come here. -/
def underscoresAreInner (mayCome : Bool) : List Char → Bool
  | [] => mayCome
  | c :: cs => if c == '_' then mayCome && underscoresAreInner false cs else underscoresAreInner true cs

def digits? (isDigit : Char → Bool) (cs : List Char) : Option (List Char) :=
  if underscoresAreInner false cs && cs.all fun c => c == '_' || isDigit c then
    some (cs.filter (· != '_'))
  else none

def wholeDigits? (cs : List Char) : Option (List Char) := do
  let ds ← digits? Char.isDigit cs
  if ds.head? == some '0' && ds.length != 1 then none else some ds

def splitSign : List Char → Bool × List Char
  | '-' :: cs => (true, cs)
  | '+' :: cs => (false, cs)
  | cs => (false, cs)

def signedValue (negative : Bool) (n : Nat) : Int := if negative then -(n : Int) else n

def fitting? (n : Int) : Option Toml :=
  if Int64.minValue.toInt ≤ n ∧ n ≤ Int64.maxValue.toInt then some (.integer n) else none

def digitBelow? (base : Nat) (c : Char) : Option Nat := (Text.hexDigit? c).filter (· < base)

def integerToBase? (base : Nat) (cs : List Char) : Option Toml := do
  let ds ← digits? (fun c => (digitBelow? base c).isSome) cs
  let n : Nat := ds.foldl (fun n c => n * base + (digitBelow? base c).getD 0) 0
  fitting? n

def readInteger? (cs : List Char) : Option Toml :=
  match cs with
  | '0' :: 'x' :: cs => integerToBase? 16 cs
  | '0' :: 'o' :: cs => integerToBase? 8 cs
  | '0' :: 'b' :: cs => integerToBase? 2 cs
  | cs => do
    let (negative, cs) := splitSign cs
    fitting? (signedValue negative (Nat.ofDigitChars 10 (← wholeDigits? cs) 0))

def beginsExponent (c : Char) : Bool := c == 'e' || c == 'E'

def exponent? : List Char → Option Int
  | [] => some 0
  | _ :: cs => do
    let (negative, cs) := splitSign cs
    return signedValue negative (Nat.ofDigitChars 10 (← digits? Char.isDigit cs) 0)

def fraction? : List Char → Option (List Char)
  | [] => some []
  | _ :: cs => digits? Char.isDigit cs

def readFloat? (cs : List Char) : Option Toml := do
  let (negative, cs) := splitSign cs
  if cs == "inf".toList then return .float (Number.ofPattern negative Number.infinite)
  if cs == "nan".toList then return .float (Number.ofPattern negative Number.notANumber)
  if cs.all fun c => c != '.' && !beginsExponent c then none
  let mantissa := cs.takeWhile (!beginsExponent ·)
  let whole ← wholeDigits? (mantissa.takeWhile (· != '.'))
  let fraction ← fraction? (mantissa.dropWhile (· != '.'))
  let exponent ← exponent? (cs.dropWhile (!beginsExponent ·))
  let pattern := Number.ofDecimal (Nat.ofDigitChars 10 (whole ++ fraction) 0)
    (exponent - fraction.length)
  if pattern < Number.infinite || negative then some (.float (Number.ofPattern negative pattern))
  else none

def readWord? (cs : List Char) : Option Toml :=
  if cs == "true".toList then some (.bool true)
  else if cs == "false".toList then some (.bool false)
  else (readInteger? cs).or (readFloat? cs)

def isWordChar (c : Char) : Bool := c.isAlphanum || c == '_' || c == '+' || c == '-' || c == '.'

end Spreadsheet.Toml
