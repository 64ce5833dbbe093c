import Spreadsheet.Grid.Basic
import Spreadsheet.Toml.Reader

/-!
# Settings

The options of new grids are kept in a TOML text with a section for the layout of a grid, one for events
and one for recomputation.  A setting that is missing has its default, and a text that is malformed or
has a setting of the wrong type gives all defaults.
-/

namespace Spreadsheet.Settings

def gridOfToml? (o : Options) (v : Toml) : Option Options := do
  let [rows, columns, sheets] ←
    v.members? ["default_rows", "default_columns", "default_sheets"] | none
  return { o with
    defaultRows := ← rows.elim (some o.defaultRows) Toml.toNat?
    defaultCols := ← columns.elim (some o.defaultCols) Toml.toNat?
    defaultSheets := ← sheets.elim (some o.defaultSheets) (Toml.toList? Toml.toString?) }

def eventsOfToml? (o : Options) (v : Toml) : Option Options := do
  let [threshold] ← v.members? ["change_threshold"] | none
  return { o with changeThreshold := ← threshold.elim (some o.changeThreshold) Toml.toNat? }

def recomputationOfToml? (o : Options) (v : Toml) : Option Options := do
  let [minCells, every] ← v.members? ["progress_min_cells", "progress_every"] | none
  return { o with
    progressMinCells := ← minCells.elim (some o.progressMinCells) Toml.toNat?
    progressEvery := ← every.elim (some o.progressEvery) Toml.toNat? }

def ofToml? (v : Toml) : Option Options := do
  let [grid, events, recomputation] ← v.members? ["grid", "events", "recalc"] | none
  let o ← grid.elim (some {}) (gridOfToml? {})
  let o ← events.elim (some o) (eventsOfToml? o)
  recomputation.elim (some o) (recomputationOfToml? o)

def ofText (text : String) : Options := ((Toml.ofText? text).bind ofToml?).getD {}

def natText (n : Nat) : String := String.ofList (Nat.toDigits 10 n)

def listText (texts : List String) : String :=
  let items := texts.map fun s => String.ofList (Toml.textChars s.toList)
  if items.length ≤ 1 then "[" ++ String.join items ++ "]"
  else "[\n" ++ String.join (items.map fun item => "    " ++ item ++ ",\n") ++ "]"

def sectionText (name : String) (settings : List (String × String)) : String :=
  "[" ++ name ++ "]\n" ++ String.join (settings.map fun (key, v) => key ++ " = " ++ v ++ "\n")

def text (o : Options) : String :=
  "\n".intercalate [
    sectionText "grid" [("default_rows", natText o.defaultRows),
      ("default_columns", natText o.defaultCols), ("default_sheets", listText o.defaultSheets)],
    sectionText "events" [("change_threshold", natText o.changeThreshold)],
    sectionText "recalc" [("progress_min_cells", natText o.progressMinCells),
      ("progress_every", natText o.progressEvery)]]

end Spreadsheet.Settings
