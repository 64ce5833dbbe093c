import Spreadsheet.Number.Shortest

/-!
# JSON values

The values of JSON, with objects as lists of fields in the order in which they are written.  A number
without sign, fraction and exponent is kept as a natural number and every other one as a decimal
fraction, so a reader decides how much of a number it accepts.
-/

namespace Spreadsheet

/-- A number as it is written. -/
inductive Numeral
  | natural (n : Nat)
  | decimal (negative : Bool) (magnitude : Number.Decimal)
deriving DecidableEq, Repr

/-- The JSON values.  A text may be written with half a character in it.  Then there is no value that
is meant, but what is written is still well formed and can be passed over. -/
inductive Json
  | null
  | bool (value : Bool)
  | number (value : Numeral)
  | string (value : String)
  | array (items : List Json)
  | object (fields : List (String × Json))
  /-- A text with half a character in it, or an object with such a field name. -/
  | unreadable

/-- A library that writes values as texts and reads texts as values. -/
structure Json.Library where
  text : Json → String
  ofText? : String → Option Json

def finiteDouble? (negative : Bool) (pattern : Nat) : Option Float :=
  if pattern < Number.infinite then some (Number.ofPattern negative pattern) else none

namespace Numeral

def toFloat? : Numeral → Option Float
  | natural n => finiteDouble? false (Number.ofDecimal n 0)
  | decimal negative d => finiteDouble? negative d.pattern

def ofFloat (x : Float) : Numeral :=
  decimal (Number.isNegative x) (Number.shortest (Number.patternOf x))

end Numeral

namespace Json

def nat (n : Nat) : Json := number (.natural n)

mutual

def isReadable : Json → Bool
  | number n => n.toFloat?.isSome
  | array items => areReadable items
  | object fields => haveReadableValues fields
  | unreadable => false
  | _ => true

def areReadable : List Json → Bool
  | [] => true
  | v :: vs => v.isReadable && areReadable vs

def haveReadableValues : List (String × Json) → Bool
  | [] => true
  | (_, v) :: fields => v.isReadable && haveReadableValues fields

end

mutual

def depth : Json → Nat
  | array items => depthOfItems items + 1
  | object fields => depthOfFields fields + 1
  | _ => 0

def depthOfItems : List Json → Nat
  | [] => 0
  | v :: vs => max v.depth (depthOfItems vs)

def depthOfFields : List (String × Json) → Nat
  | [] => 0
  | (_, v) :: fields => max v.depth (depthOfFields fields)

end

/-- The value as a natural number that fits 64 bits. -/
def toNat? : Json → Option Nat
  | number (.natural n) => if n < UInt64.size then some n else none
  | _ => none

def toString? : Json → Option String
  | string s => some s
  | _ => none

def toBool? : Json → Option Bool
  | bool b => some b
  | _ => none

/-- The value as a list of values that `read` accepts. -/
def toList? {α : Type} (read : Json → Option α) : Json → Option (List α)
  | array items => items.mapM read
  | _ => none

/-- The name of a choice without content: the name alone, or the only field of an object with nothing
as its value. -/
def toName? : Json → Option String
  | string name => some name
  | object [(name, null)] => some name
  | _ => none

/-- The members of a record with the given field names: an object in which none of the names occurs
twice and other names are ignored, or an array with the members in order, of which the last may be
missing. -/
def members? (names : List String) : Json → Option (List (Option Json))
  | object fields =>
    if names.any fun name => 1 < (fields.filter (·.1 == name)).length then none
    else some (names.map fun name => fields.lookup name)
  | array items =>
    if names.length < items.length then none
    else some (items.map some ++ List.replicate (names.length - items.length) none)
  | _ => none

end Json

end Spreadsheet
