/-!
# TOML values

The values of TOML, and the rules by which the lines of a text add to a table.  Every table remembers
how it came about, because that decides what may still be added to it: nothing to a table in braces;
to a table with a header only what comes under that header; and to a table that only stands in the
middle of a longer name, a header of its own.  No key is given twice.
-/

namespace Spreadsheet

/-- How a table came about. -/
inductive TableKind
  /-- It is written in braces. -/
  | inline
  /-- It has a header. -/
  | header
  /-- Its name is part of the header of another table. -/
  | implicit
  /-- Its name is part of a dotted key. -/
  | dotted
deriving DecidableEq, Repr

/-- The TOML values. -/
inductive Toml
  | string (value : String)
  | integer (value : Int)
  | float (value : Float)
  | bool (value : Bool)
  /-- A date, a time of day, or both.  Nothing depends on which. -/
  | moment
  | array (items : List Toml)
  | table (kind : TableKind) (fields : List (String × Toml))
  /-- Tables that share one header, written in double brackets. -/
  | tables (items : List (List (String × Toml)))

namespace Toml

abbrev Fields := List (String × Toml)

def setField (key : String) (v : Toml) : Fields → Fields
  | [] => [(key, v)]
  | (k, w) :: fields => if k == key then (k, v) :: fields else (k, w) :: setField key v fields

/-- May a path go through a table of this kind?  A dotted key may not go through a table that has a
header. -/
def TableKind.isOpen (dotted : Bool) : TableKind → Bool
  | .inline => false
  | .header => !dotted
  | .implicit | .dotted => true

/-- The kind of a table that is made because a path goes through it. -/
def madeKind (dotted : Bool) : TableKind := if dotted then .dotted else .implicit

/-- Changes the table at the end of a path, which is part of a dotted key or of a header.  Of tables
with a common header the last one is meant.  The change is told the kind of the table; the table
where the path begins counts as one with a header. -/
def changeAt (dotted : Bool) (change : TableKind → Fields → Option Fields) (kind : TableKind)
    (fields : Fields) : List String → Option Fields
  | [] => change kind fields
  | key :: path =>
    match fields.lookup key with
    | none => do
      let made := madeKind dotted
      return setField key (.table made (← changeAt dotted change made [] path)) fields
    | some (.table kind inner) => do
      if !TableKind.isOpen dotted kind then none
      return setField key (.table kind (← changeAt dotted change kind inner path)) fields
    | some (.tables items) => do
      let last ← items.getLast?
      return setField key
        (.tables (items.dropLast ++ [← changeAt dotted change .header last path])) fields
    | some _ => none

/-- Adds a key to a table.  Only a table that was made by a dotted key is added to by a dotted key. -/
def addKey (isDotted : Bool) (key : String) (v : Toml) (kind : TableKind) (fields : Fields) :
    Option Fields :=
  if (kind == .dotted) != isDotted || (fields.lookup key).isSome then none
  else some (fields ++ [(key, v)])

def addEntry (fields : Fields) (keys : List String) (v : Toml) : Option Fields := do
  let key ← keys.getLast?
  let path := keys.dropLast
  changeAt true (addKey (!path.isEmpty) key v) .header fields path

def addTable (fields : Fields) (keys : List String) : Option Fields := do
  let key ← keys.getLast?
  changeAt false (fun _ inner =>
    match inner.lookup key with
    | none => some (inner ++ [(key, .table .header [])])
    | some (.table .implicit known) => some (setField key (.table .header known) inner)
    | some _ => none) .header fields keys.dropLast

def addToTables (fields : Fields) (keys : List String) : Option Fields := do
  let key ← keys.getLast?
  changeAt false (fun _ inner =>
    match inner.lookup key with
    | none => some (inner ++ [(key, .tables [[]])])
    | some (.tables items) => some (setField key (.tables (items ++ [[]])) inner)
    | some _ => none) .header fields keys.dropLast

def toNat? : Toml → Option Nat
  | integer (.ofNat n) => some n
  | _ => none

def toString? : Toml → Option String
  | string s => some s
  | _ => none

/-- The value as a list of values that `read` accepts. -/
def toList? {α : Type} (read : Toml → Option α) : Toml → Option (List α)
  | array items => items.mapM read
  | tables items => items.mapM fun fields => read (.table .header fields)
  | _ => none

def TableKind.weight : TableKind → Nat
  | .inline => 1
  | _ => 0

mutual

def depth : Toml → Nat
  | array items => depthOfItems items + 1
  | table kind fields => depthOfFields fields + TableKind.weight kind
  | _ => 0

def depthOfItems : List Toml → Nat
  | [] => 0
  | v :: vs => max v.depth (depthOfItems vs)

def depthOfFields : Fields → Nat
  | [] => 0
  | (_, v) :: fields => max v.depth (depthOfFields fields)

end

/-- The members of a record with the given keys: a table, in which other keys are ignored, or an array
with the members in order, in which more items are ignored.  A moment has no members. -/
def members? (keys : List String) (v : Toml) : Option (List (Option Toml)) :=
  match v with
  | table _ fields => some (keys.map fun key => fields.lookup key)
  | moment => some (keys.map fun _ => none)
  | v => do
    let items ← v.toList? some
    return (List.range keys.length).map fun i => items[i]?

end Toml

end Spreadsheet
