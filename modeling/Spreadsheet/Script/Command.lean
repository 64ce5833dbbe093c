import Spreadsheet.Grid.Edit
import Spreadsheet.Json.Reader

/-!
# Commands

A command is one JSON value on a line: an object whose field `op` names the command and whose other
fields are its parts, or an array of the name and the parts in order.  Cells and ranges are texts,
which are resolved on the sheet of the command, the first one if none is given.  Fields that the
command does not have are ignored.
-/

namespace Spreadsheet

/-- An edit whose cells and ranges are texts. -/
inductive Request
  | set (cell text : String)
  | batch (cells texts : List String)
  | copy (source destination : String)
  | cut (source destination : String)
  | copyValues (source destination : String)
  | sort (range : String) (column : Nat) (ascending : Bool)
  | resize (rows cols : Nat)
  | addSheet (name : String)
  | removeSheet
  | line (kind : LineKind) (edit : LineEdit) (cell : String)
  | clear (range : String)
deriving DecidableEq, Repr

/-- What can be asked of a session. -/
inductive Command
  | edit (request : Request) (sheet : Nat)
  /-- Fills a sheet with literals. -/
  | importRows (rows : List (List String)) (sheet : Nat)
  /-- Shows a cell. -/
  | get (cell : String) (sheet : Nat)
  /-- Writes the grid into a file. -/
  | save (path : String)
deriving DecidableEq, Repr

/-- The edit that is requested, with its texts resolved on the sheet `home`.  The first text that
names nothing is the error. -/
def Request.resolve (g : Grid) (home : Nat) : Request → Except EditError Edit
  | set cell text => do return .set (← g.resolveCell cell home) text
  | batch cells texts => do return .batch (← cells.mapM (g.resolveCell · home)) texts
  | copy source destination => do
    return .copy (← g.resolveRange source home) (← g.resolveRange destination home)
  | cut source destination => do
    return .cut (← g.resolveRange source home) (← g.resolveRange destination home)
  | copyValues source destination => do
    return .copyValues (← g.resolveRange source home) (← g.resolveRange destination home)
  | sort range column ascending => do return .sort (← g.resolveRange range home) column ascending
  | resize rows cols => .ok (.resize home rows cols)
  | addSheet name => .ok (.addSheet name)
  | removeSheet => .ok (.removeSheet home)
  | line kind edit cell => do return .line kind edit (← g.resolveCell cell home)
  | clear range => do return .clear (← g.resolveRange range home)

def Json.toChoice? : Json → Option String
  | .object [(name, .object [])] => some name
  | j => j.toName?

def LineKind.ofJson? (j : Json) : Option LineKind := do
  [("row", row), ("column", column)].lookup (← j.toChoice?)

def LineEdit.ofJson? (j : Json) : Option LineEdit := do
  [("insert_before", insertBefore), ("insert_after", insertAfter), ("delete", delete)].lookup
    (← j.toChoice?)

/-- Takes the name of a command off: the field `op` of an object, which has to occur once, or the
first item of an array. -/
def Json.untag? : Json → Option (String × Json)
  | .object fields =>
    match fields.filter (·.1 == "op") with
    | [(_, .string op)] => some (op, .object (fields.filter (·.1 != "op")))
    | _ => none
  | .array (.string op :: items) => some (op, .array items)
  | _ => none

namespace Command

/-- Reads the number of a sheet, 0 if there is none. -/
def sheet? (member : Option Json) : Option Nat := member.elim (some 0) Json.toNat?

def texts? : Json → Option (List String) := Json.toList? Json.toString?

def transfer? (request : String → String → Request) (parts : Json) : Option Command := do
  let [source, destination, sheet] ← parts.members? ["source", "destination", "sheet"] | none
  return .edit (request (← (← source).toString?) (← (← destination).toString?)) (← sheet? sheet)

def ofParts? (op : String) (parts : Json) : Option Command :=
  match op with
  | "set" => do
    let [cell, text, sheet] ← parts.members? ["cell", "text", "sheet"] | none
    return .edit (.set (← (← cell).toString?) (← (← text).toString?)) (← sheet? sheet)
  | "batch" => do
    let [cells, texts, sheet] ← parts.members? ["cells", "texts", "sheet"] | none
    return .edit (.batch (← texts? (← cells)) (← texts? (← texts))) (← sheet? sheet)
  | "copy" => transfer? .copy parts
  | "cut" => transfer? .cut parts
  | "copy_values" => transfer? .copyValues parts
  | "sort" => do
    let [range, column, ascending, sheet] ←
      parts.members? ["range", "column", "ascending", "sheet"] | none
    return .edit (.sort (← (← range).toString?) (← (← column).toNat?)
      (← ascending.elim (some true) Json.toBool?)) (← sheet? sheet)
  | "resize" => do
    let [sheet, rows, cols] ← parts.members? ["sheet", "rows", "cols"] | none
    return .edit (.resize (← (← rows).toNat?) (← (← cols).toNat?)) (← (← sheet).toNat?)
  | "add_sheet" => do
    let [name] ← parts.members? ["name"] | none
    return .edit (.addSheet (← (← name).toString?)) 0
  | "remove_sheet" => do
    let [sheet] ← parts.members? ["sheet"] | none
    return .edit .removeSheet (← (← sheet).toNat?)
  | "line" => do
    let [kind, action, cell, sheet] ← parts.members? ["kind", "edit", "cell", "sheet"] | none
    return .edit (.line (← LineKind.ofJson? (← kind)) (← LineEdit.ofJson? (← action))
      (← (← cell).toString?)) (← sheet? sheet)
  | "clear" => do
    let [range, sheet] ← parts.members? ["range", "sheet"] | none
    return .edit (.clear (← (← range).toString?)) (← sheet? sheet)
  | "import" => do
    let [rows, sheet] ← parts.members? ["rows", "sheet"] | none
    return .importRows (← (← rows).toList? texts?) (← sheet? sheet)
  | "get" => do
    let [cell, sheet] ← parts.members? ["cell", "sheet"] | none
    return .get (← (← cell).toString?) (← sheet? sheet)
  | "save" => do
    let [path] ← parts.members? ["path"] | none
    return .save (← (← path).toString?)
  | _ => none

/-- How deep the arrays and objects of a command may be nested. -/
def maxDepth : Nat := 127

/-- Reads a command.  Everything in it has to be readable, also where it is ignored. -/
def ofText? (text : String) : Option Command := do
  let j ← Json.ofText? text
  if maxDepth < j.depth || !j.isReadable then none
  let (op, parts) ← j.untag?
  ofParts? op parts

end Command

end Spreadsheet
