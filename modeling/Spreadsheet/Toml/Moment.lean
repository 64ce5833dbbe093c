import Spreadsheet.Toml.Basic

/-!
# Dates and times in TOML

A date is a year of four digits, a month and a day that the month has.  A time of day has hours,
minutes and seconds, of which there may be 60, and perhaps a fraction.  After a date with a time there
may be an offset from universal time.
-/

namespace Spreadsheet.Toml

/-- Takes a number of `n` digits off the front. -/
def takeDigits? (n : Nat) (cs : List Char) : Option (Nat × List Char) :=
  let ds := cs.take n
  if ds.length = n && ds.all Char.isDigit then some (Nat.ofDigitChars 10 ds 0, cs.drop n) else none

def takeBetween? (least most : Nat) (cs : List Char) : Option (List Char) := do
  let (n, rest) ← takeDigits? 2 cs
  if least ≤ n ∧ n ≤ most then some rest else none

def takeAny? (allowed : List Char) : List Char → Option (List Char)
  | c :: cs => if allowed.contains c then some cs else none
  | [] => none

/-- Is there a 29th of February in the year? -/
def isLeapYear (year : Nat) : Bool := year % 4 == 0 && (year % 100 != 0 || year % 400 == 0)

def daysIn (year month : Nat) : Nat :=
  if month = 2 then if isLeapYear year then 29 else 28
  else if [4, 6, 9, 11].contains month then 30
  else 31

def takeDate? (cs : List Char) : Option (List Char) := do
  let (year, cs) ← takeDigits? 4 cs
  let (month, cs) ← takeDigits? 2 (← takeAny? ['-'] cs)
  if month = 0 ∨ 12 < month then none
  takeBetween? 1 (daysIn year month) (← takeAny? ['-'] cs)

def dropFraction : List Char → List Char
  | '.' :: c :: cs => if c.isDigit then cs.dropWhile Char.isDigit else '.' :: c :: cs
  | cs => cs

def takeTime? (cs : List Char) : Option (List Char) := do
  let cs ← takeAny? [':'] (← takeBetween? 0 23 cs)
  let cs ← takeAny? [':'] (← takeBetween? 0 59 cs)
  return dropFraction (← takeBetween? 0 60 cs)

def takeOffset? (cs : List Char) : Option (List Char) := do
  match takeAny? ['Z', 'z'] cs with
  | some rest => some rest
  | none => takeBetween? 0 59 (← takeAny? [':'] (← takeBetween? 0 23 (← takeAny? ['+', '-'] cs)))

def takeTimeOfDate? (cs : List Char) : Option (List Char) := do
  let rest ← takeTime? (← takeAny? ['T', 't', ' '] cs)
  return (takeOffset? rest).getD rest

def takeMoment? (cs : List Char) : Option (List Char) :=
  match takeDate? cs with
  | some rest => some ((takeTimeOfDate? rest).getD rest)
  | none => takeTime? cs

end Spreadsheet.Toml
