import Spreadsheet.Json.Basic

/-!
# JSON text

Values are written without any space.  A decimal fraction always has a point or an exponent; it is
written positionally if its first digit stands less than six places after the point and at most
sixteen places before it.  An exponent always has a sign.
-/

namespace Spreadsheet.Json

def escapedChar (c : Char) : List Char :=
  if c == '"' || c == '\\' then ['\\', c]
  else if c == '\n' then ['\\', 'n']
  else if c == '\r' then ['\\', 'r']
  else if c == '\t' then ['\\', 't']
  else if c.toNat == 8 then ['\\', 'b']
  else if c.toNat == 12 then ['\\', 'f']
  else if c.toNat < 32 then
    let ds := Nat.toDigits 16 c.toNat
    '\\' :: 'u' :: List.replicate (4 - ds.length) '0' ++ ds
  else [c]

def quoted (s : String) : List Char := '"' :: s.toList.flatMap escapedChar ++ ['"']

def exponentChars (e : Int) : List Char :=
  'e' :: (if e < 0 then '-' else '+') :: Nat.toDigits 10 e.natAbs

def decimalChars (d : Number.Decimal) : List Char :=
  let ds := Nat.toDigits 10 d.coefficient
  let point : Int := ds.length + d.exponent
  if d.coefficient = 0 then ['0', '.', '0']
  else if 0 ≤ d.exponent ∧ point ≤ 16 then
    ds ++ List.replicate d.exponent.toNat '0' ++ ['.', '0']
  else if 0 < point ∧ point ≤ 16 then ds.take point.toNat ++ '.' :: ds.drop point.toNat
  else if -5 < point ∧ point ≤ 0 then
    '0' :: '.' :: List.replicate (-point).toNat '0' ++ ds
  else
    let exponent := exponentChars (point - 1)
    match ds with
    | [digit] => digit :: exponent
    | ds => ds.take 1 ++ '.' :: ds.drop 1 ++ exponent

def numeralChars : Numeral → List Char
  | .natural n => Nat.toDigits 10 n
  | .decimal negative d => (if negative then ['-'] else []) ++ decimalChars d

mutual

/-- The text of a value. -/
def chars : Json → List Char
  | null | unreadable => "null".toList
  | bool b => (if b then "true" else "false").toList
  | number n => numeralChars n
  | string s => quoted s
  | array items => '[' :: itemChars items ++ [']']
  | object fields => '{' :: fieldChars fields ++ ['}']

def itemChars : List Json → List Char
  | [] => []
  | [v] => v.chars
  | v :: vs => v.chars ++ ',' :: itemChars vs

def fieldChars : List (String × Json) → List Char
  | [] => []
  | [(name, v)] => quoted name ++ ':' :: v.chars
  | (name, v) :: fields => quoted name ++ ':' :: v.chars ++ ',' :: fieldChars fields

end

def text (v : Json) : String := String.ofList v.chars

end Spreadsheet.Json
