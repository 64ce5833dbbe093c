import Spreadsheet.Json.Reader
import Spreadsheet.Json.Writer
import Spreadsheet.Snapshot.Basic

/-!
# Snapshots as JSON

A snapshot is written as an object with its sheets and its cells.  A number that is not finite is
written as the text that a cell shows for it.  A reader ignores fields that it does not know, and a
cell without edges may leave them out.
-/

namespace Spreadsheet

namespace CellId

def toJson (id : CellId) : Json :=
  .object [("sheet", .nat id.sheet), ("row", .nat id.row), ("col", .nat id.col)]

def ofJson? (j : Json) : Option CellId := do
  let [sheet, row, col] ← j.members? ["sheet", "row", "col"] | none
  return ⟨← (← sheet).toNat?, ← (← row).toNat?, ← (← col).toNat?⟩

end CellId

namespace Sheet

def toJson (s : Sheet) : Json :=
  .object [("name", .string s.name), ("rows", .nat s.rows), ("cols", .nat s.cols)]

def ofJson? (j : Json) : Option Sheet := do
  let [name, rows, cols] ← j.members? ["name", "rows", "cols"] | none
  return ⟨← (← name).toString?, ← (← rows).toNat?, ← (← cols).toNat?⟩

end Sheet

/-- The value of a double: a number if it is finite, and otherwise the text that it is shown as. -/
def doubleToJson (x : Float) : Json :=
  if Number.patternOf x < Number.infinite then .number (.ofFloat x) else .string (Number.text x)

def doubleOfJson? : Json → Option Float
  | .number n => n.toFloat?
  | .string s =>
    if s == "NaN" then some (Number.ofPattern false Number.notANumber)
    else if s == "+Inf" then some (Number.ofPattern false Number.infinite)
    else if s == "-Inf" then some (Number.ofPattern true Number.infinite)
    else none
  | _ => none

namespace CellValue

def content : CellValue → String × Json
  | pending f => ("Formula", .string f)
  | number x => ("Number", doubleToJson x)
  | text s => ("String", .string s)
  | bool b => ("Bool", .bool b)
  | status s => ("ExplosiveFormula", .string s)

def ofContent? (kind : String) (content : Json) : Option CellValue :=
  if kind == "Formula" then content.toString?.map pending
  else if kind == "Number" then (doubleOfJson? content).map (number ·)
  else if kind == "String" then content.toString?.map text
  else if kind == "Bool" then content.toBool?.map bool
  else if kind == "ExplosiveFormula" then content.toString?.map status
  else none

def toJson (v : CellValue) : Json :=
  .object [("type", .string v.content.1), ("value", v.content.2)]

def ofJson? (j : Json) : Option CellValue := do
  let [kind, content] ← j.members? ["type", "value"] | none
  ofContent? (← (← kind).toName?) (← content)

end CellValue

def edgesToJson (ids : CellSet) : Json := .array (ids.toList.map CellId.toJson)

def edgesOfJson? (j : Json) : Option CellSet := (j.toList? CellId.ofJson?).map (Std.ExtTreeSet.ofList ·)

namespace Cell

def toJson (c : Cell) : Json :=
  .object [("formula", .string c.formula), ("value", c.value.toJson),
    ("depend_in", edgesToJson c.precedents), ("depend_out", edgesToJson c.readers)]

def ofJson? (j : Json) : Option Cell := do
  let [formula, value, precedents, readers] ←
    j.members? ["formula", "value", "depend_in", "depend_out"] | none
  return {
    formula := ← (← formula).toString?
    value := ← CellValue.ofJson? (← value)
    precedents := ← precedents.elim (some ∅) edgesOfJson?
    readers := ← readers.elim (some ∅) edgesOfJson? }

end Cell

namespace Snapshot

def entryToJson (entry : CellId × Cell) : Json :=
  .object [("id", entry.1.toJson), ("cell", entry.2.toJson)]

def entryOfJson? (j : Json) : Option (CellId × Cell) := do
  let [id, cell] ← j.members? ["id", "cell"] | none
  return (← CellId.ofJson? (← id), ← Cell.ofJson? (← cell))

def toJson (s : Snapshot) : Json :=
  .object [("sheets", .array (s.sheets.map Sheet.toJson)),
    ("cells", .array (s.cells.map entryToJson))]

def ofJson? (j : Json) : Option Snapshot := do
  let [sheets, cells] ← j.members? ["sheets", "cells"] | none
  return ⟨← (← sheets).toList? Sheet.ofJson?, ← (← cells).toList? entryOfJson?⟩

end Snapshot

namespace Grid

def text (g : Grid) (library : Json.Library := ⟨Json.text, Json.ofText?⟩) : String :=
  library.text g.snapshot.toJson

def ofText (options : Options) (text : String)
    (library : Json.Library := ⟨Json.text, Json.ofText?⟩) : Except SnapshotError Grid :=
  match (library.ofText? text).bind Snapshot.ofJson? with
  | none => .error .malformed
  | some s => (ofSnapshot options s).mapError .inconsistent

end Grid

end Spreadsheet
