import Spreadsheet.Reference.Basic

/-!
# The text of references

A reference is written as `$?letters$?digits` after an optional sheet, and a range as two of these
around a colon after one sheet.  The sheet stands in front of a `!`, plain if it is a letter followed
by letters, digits, `_` and `.`, and otherwise in apostrophes, with every apostrophe of the name
doubled.
-/

namespace Spreadsheet

/-- Why the text of a reference has no meaning. -/
inductive ReferenceError
  /-- The text is not a reference. -/
  | malformed (text : String)
  /-- One corner of the range is a bare row number and the other is a cell. -/
  | mixedRange (text : String)
  /-- There is no sheet of the written name. -/
  | unknownSheet (text : String)
deriving DecidableEq, Repr

def ReferenceError.message : ReferenceError → String
  | malformed text => "malformed reference: " ++ text
  | mixedRange text => "wrong reference range: " ++ text
  | unknownSheet text => "unknown sheet: " ++ text

def isPlainName : List Char → Bool
  | [] => false
  | c :: cs => c.isAlpha && cs.all fun d => d.isAlphanum || d == '_' || d == '.'

def doubleApostrophes : List Char → List Char
  | [] => []
  | c :: cs =>
    if c == '\'' then '\'' :: '\'' :: doubleApostrophes cs else c :: doubleApostrophes cs

/-- A sheet name as it stands in front of a `!`. -/
def writtenName (name : List Char) : List Char :=
  if isPlainName name then name else '\'' :: doubleApostrophes name ++ ['\'']

def sheetPart : Option String → List Char
  | none => []
  | some name => writtenName name.toList ++ ['!']

/-- Reads a name in apostrophes, from after the first of them to the last of them; gives the name
and what follows. -/
def readQuotedName? : List Char → Option (List Char × List Char)
  | [] => none
  | '\'' :: '\'' :: cs => (readQuotedName? cs).map fun (name, rest) => ('\'' :: name, rest)
  | '\'' :: cs => some ([], cs)
  | c :: cs => (readQuotedName? cs).map fun (name, rest) => (c :: name, rest)

/-- Cuts a text at its last `!`. -/
def splitAtLastMark? (cs : List Char) : Option (List Char × List Char) :=
  let reversed := cs.reverse
  match reversed.dropWhile (· != '!') with
  | [] => none
  | _ :: before => some (before.reverse, (reversed.takeWhile (· != '!')).reverse)

def splitSheet? (cs : List Char) : Option (Option String × List Char) :=
  match cs with
  | '\'' :: quoted =>
    match readQuotedName? quoted with
    | some (name, '!' :: rest) => some (some (String.ofList name), rest)
    | _ => none
  | _ =>
    match splitAtLastMark? cs with
    | none => some (none, cs)
    | some (name, rest) => if isPlainName name then some (some (String.ofList name), rest) else none

/-- Takes one `$` off the front. -/
def splitPin : List Char → Bool × List Char
  | '$' :: cs => (true, cs)
  | cs => (false, cs)

/-- Reads a row: digits for a number from 1 on that fits. -/
def readRow? (cs : List Char) : Option Nat :=
  let row := Nat.ofDigitChars 10 cs 0
  if !cs.isEmpty && cs.all Char.isDigit && 0 < row && row < coordinateLimit then some row else none

/-- Reads coordinates, `$?letters$?digits`. -/
def readCoordinates? (cs : List Char) : Option (Reference Unit) := do
  let (fixedCol, cs) := splitPin cs
  let col ← columnOfLetters? (cs.takeWhile Char.isAlpha)
  let (fixedRow, cs) := splitPin (cs.dropWhile Char.isAlpha)
  let row ← readRow? cs
  return { sheet := (), row, col, fixedRow, fixedCol }

namespace Reference

def ofChars (cs : List Char) : Except ReferenceError WrittenReference :=
  match splitSheet? cs with
  | none => .error (.malformed (String.ofList cs))
  | some (sheet, rest) =>
    match readCoordinates? rest with
    | none => .error (.malformed (String.ofList cs))
    | some r => .ok (r.onSheet sheet)

/-- The text of a reference. -/
def chars (r : WrittenReference) : List Char := sheetPart r.sheet ++ r.a1Chars

def text (r : WrittenReference) : String := String.ofList r.chars

end Reference

def isRowNumber (cs : List Char) : Bool :=
  let ds := cs.filter (· != '$')
  !ds.isEmpty && ds.all Char.isDigit

namespace Range

def ofChars (cs : List Char) : Except ReferenceError WrittenRange :=
  let malformed := ReferenceError.malformed (String.ofList cs)
  match splitSheet? cs with
  | none => .error malformed
  | some (sheet, rest) =>
    match rest.dropWhile (· != ':') with
    | [] => .error malformed
    | _ :: second =>
      let first := rest.takeWhile (· != ':')
      if isRowNumber first != isRowNumber second then .error (.mixedRange (String.ofList cs))
      else
        match readCoordinates? first, readCoordinates? second with
        | some start, some stop => .ok ⟨start.onSheet sheet, stop.onSheet sheet⟩
        | _, _ => .error malformed

/-- The text of a range. -/
def chars (r : WrittenRange) : List Char :=
  sheetPart r.start.sheet ++ (r.start.a1Chars ++ ':' :: r.stop.a1Chars)

def text (r : WrittenRange) : String := String.ofList r.chars

end Range

end Spreadsheet
