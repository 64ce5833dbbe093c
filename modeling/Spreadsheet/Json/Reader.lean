import Spreadsheet.Json.Basic
import Spreadsheet.Text.Character

/-!
# Reading JSON

A text is one value with blanks around it.  The reader takes characters off the front; its fuel is
twice the length of the text, because of any two steps at least one takes a character.
-/

namespace Spreadsheet.Json

def skipBlanks (cs : List Char) : List Char :=
  cs.dropWhile fun c => c == ' ' || c == '\n' || c == '\t' || c == '\r'

def hexUnit? (a b c d : Char) : Option Nat := do
  return ((← Text.hexDigit? a) * 16 + (← Text.hexDigit? b)) * 256 + (← Text.hexDigit? c) * 16 + (← Text.hexDigit? d)

def escaped? (c : Char) : Option Char :=
  if c == '"' || c == '\\' || c == '/' then some c
  else if c == 'b' then some (Char.ofNat 8)
  else if c == 'f' then some (Char.ofNat 12)
  else if c == 'n' then some '\n'
  else if c == 'r' then some '\r'
  else if c == 't' then some '\t'
  else none

/-- Is the number the first half of a character that is written in two halves? -/
def isFirstHalf (n : Nat) : Bool := 0xD800 ≤ n && n < 0xDC00

/-- Is the number the second half of a character that is written in two halves? -/
def isSecondHalf (n : Nat) : Bool := 0xDC00 ≤ n && n < 0xE000

def wholeCharacter? (n : Nat) : Option Char :=
  if isFirstHalf n || isSecondHalf n then none else some (Char.ofNat n)

def prepend (c : Option Char) (read : Option (List Char) × List Char) :
    Option (List Char) × List Char :=
  ((c.bind fun c => read.1.map (c :: ·)), read.2)

/-- Reads a text from after its first quote; gives the text and what follows its last quote.  There is
no text if half a character stands in it. -/
def readString : List Char → Option (Option (List Char) × List Char)
  | [] => none
  | '"' :: cs => some (some [], cs)
  | '\\' :: 'u' :: a :: b :: c :: d :: '\\' :: 'u' :: a' :: b' :: c' :: d' :: cs => do
    let first ← hexUnit? a b c d
    let second ← hexUnit? a' b' c' d'
    if isFirstHalf first && isSecondHalf second then
      let n := 0x10000 + (first - 0xD800) * 0x400 + (second - 0xDC00)
      return prepend (Char.ofNat n) (← readString cs)
    else
      let rest ← readString ('\\' :: 'u' :: a' :: b' :: c' :: d' :: cs)
      return prepend (wholeCharacter? first) rest
  | '\\' :: 'u' :: a :: b :: c :: d :: cs => do
    let n ← hexUnit? a b c d
    return prepend (wholeCharacter? n) (← readString cs)
  | '\\' :: c :: cs => do
    let e ← escaped? c
    return prepend e (← readString cs)
  | c :: cs =>
    if c == '\\' || c.toNat < 32 then none
    else (readString cs).map (prepend c)

def ofReadString (text : Option (List Char)) : Json :=
  text.elim unreadable fun cs => string (String.ofList cs)

def ofReadFields (fields : List (Option (List Char) × Json)) : Json :=
  match fields.mapM fun (name, v) => name.map (String.ofList ·, v) with
  | some fields => object fields
  | none => unreadable

def readDigits? (cs : List Char) : Option (List Char × List Char) :=
  let ds := cs.takeWhile Char.isDigit
  if ds.isEmpty then none else some (ds, cs.dropWhile Char.isDigit)

def readExponent? (cs : List Char) : Option (Option Int × List Char) :=
  match cs with
  | c :: cs' =>
    if c == 'e' || c == 'E' then do
      let (negative, cs') := match cs' with
        | '-' :: ds => (true, ds)
        | '+' :: ds => (false, ds)
        | ds => (false, ds)
      let (ds, rest) ← readDigits? cs'
      let n : Int := Nat.ofDigitChars 10 ds 0
      return (some (if negative then -n else n), rest)
    else some (none, cs)
  | [] => some (none, cs)

def readFraction? (cs : List Char) : Option (List Char × List Char) :=
  match cs with
  | '.' :: ds => readDigits? ds
  | _ => some ([], cs)

def readUnsigned? (negative : Bool) (cs : List Char) : Option (Numeral × List Char) := do
  let (whole, cs) ← readDigits? cs
  if 1 < whole.length && whole.head? == some '0' then none
  let (fraction, cs) ← readFraction? cs
  let (exponent, cs) ← readExponent? cs
  let coefficient := Nat.ofDigitChars 10 (whole ++ fraction) 0
  if !negative && fraction.isEmpty && exponent.isNone then return (.natural coefficient, cs)
  else return (.decimal negative ⟨coefficient, exponent.getD 0 - fraction.length⟩, cs)

def readNumeral? (cs : List Char) : Option (Numeral × List Char) :=
  match cs with
  | '-' :: ds => readUnsigned? true ds
  | ds => readUnsigned? false ds

def expect? (word : String) (cs : List Char) : Option (List Char) :=
  if word.toList.isPrefixOf cs then some (cs.drop word.length) else none

mutual

def readValue : Nat → List Char → Option (Json × List Char)
  | 0, _ => none
  | fuel + 1, cs =>
    match cs with
    | '"' :: cs => (readString cs).map fun (text, rest) => (ofReadString text, rest)
    | '[' :: cs =>
      match skipBlanks cs with
      | ']' :: rest => some (array [], rest)
      | cs => (readItems fuel cs).map fun (items, rest) => (array items, rest)
    | '{' :: cs =>
      match skipBlanks cs with
      | '}' :: rest => some (object [], rest)
      | cs => (readFields fuel cs).map fun (fields, rest) => (ofReadFields fields, rest)
    | 'n' :: _ => (expect? "null" cs).map (null, ·)
    | 't' :: _ => (expect? "true" cs).map (bool true, ·)
    | 'f' :: _ => (expect? "false" cs).map (bool false, ·)
    | _ => (readNumeral? cs).map fun (n, rest) => (number n, rest)

def readItems : Nat → List Char → Option (List Json × List Char)
  | 0, _ => none
  | fuel + 1, cs => do
    let (v, rest) ← readValue fuel cs
    match skipBlanks rest with
    | ',' :: rest =>
      let (vs, rest) ← readItems fuel (skipBlanks rest)
      return (v :: vs, rest)
    | ']' :: rest => return ([v], rest)
    | _ => none

def readFields : Nat → List Char → Option (List (Option (List Char) × Json) × List Char)
  | 0, _ => none
  | fuel + 1, cs => do
    let .some ('"', afterQuote) := cs.head?.map (·, cs.drop 1) | none
    let (name, rest) ← readString afterQuote
    let ':' :: rest := skipBlanks rest | none
    let (v, rest) ← readValue fuel (skipBlanks rest)
    match skipBlanks rest with
    | ',' :: rest =>
      let (fields, rest) ← readFields fuel (skipBlanks rest)
      return ((name, v) :: fields, rest)
    | '}' :: rest => return ([(name, v)], rest)
    | _ => none

end

def ofText? (text : String) : Option Json := do
  let cs := text.toList
  let (v, rest) ← readValue (2 * cs.length + 2) (skipBlanks cs)
  if (skipBlanks rest).isEmpty then some v else none

end Spreadsheet.Json
