import Spreadsheet.Formula.Evaluation
import Spreadsheet.Grid.Cell
import Spreadsheet.Text.Quoted

/-!
# The grid

A grid is a list of sheets and a map of the cells that are stored on them.  Cells are stored when
they are first written and stay from then on; a cell that is not stored reads as the empty text.
`dirty` holds the cells whose values are out of date, and `waiting` the formulas that fill other
cells and have been written but not yet run.
-/

namespace Spreadsheet

/-- How a grid is set up. -/
structure Options where
  defaultRows : Nat := 100
  defaultCols : Nat := 15
  defaultSheets : List String := ["Sheet1", "Sheet2"]
  /-- From this number of changed cells on, an edit tells a viewer to read everything again. -/
  changeThreshold : Nat := 100
  /-- Recomputations of more cells than this report how far they have come. -/
  progressMinCells : Nat := 1000
  /-- The number of cells between two such reports. -/
  progressEvery : Nat := 1000
deriving DecidableEq, Repr

/-- Sheets, cells, and what is left to do. -/
structure Grid where
  sheets : List Sheet
  cells : CellMap Cell := ∅
  dirty : CellSet := ∅
  waiting : List (CellId × String) := []
  options : Options

/-- Why an edit is refused. -/
inductive EditError
  | noSuchSheet (index : Nat)
  | duplicateSheet (name : String)
  | invalidSheetName (name : String)
  | lastSheet
  | batchMismatch (references texts : Nat)
  | outOfBounds (place : String)
  | reference (error : ReferenceError)
deriving DecidableEq, Repr

def EditError.message : EditError → String
  | noSuchSheet index => "sheet " ++ toString index ++ " does not exist"
  | duplicateSheet name => "a sheet named " ++ Text.describe name ++ " already exists"
  | invalidSheetName name => Text.describe name ++ " is not a valid sheet name"
  | lastSheet => "cannot remove the last sheet"
  | batchMismatch references texts =>
    "batch has " ++ toString references ++ " references but " ++ toString texts ++ " values"
  | outOfBounds place => place ++ " lies outside its sheet"
  | reference error => error.message

namespace Grid

def freshSheet (options : Options) (name : String) : Sheet :=
  ⟨name, options.defaultRows, options.defaultCols⟩

/-- The names with which a new grid begins: the valid ones among the default names, each once, or
`Sheet1` if there are none. -/
def firstNames (options : Options) : List String :=
  let names := options.defaultSheets.foldl (fun names name =>
    if Sheet.isValidName name && !names.contains name then names ++ [name] else names) []
  if names.isEmpty then ["Sheet1"] else names

def new (options : Options) : Grid :=
  { sheets := (firstNames options).map (freshSheet options), options }

variable (g : Grid)

def directory : Directory := .ofSheets g.sheets

def view (draws : Formula.Draws := .zero) : Formula.CellView where
  toDirectory := g.directory
  term id := (g.cells[id]?).elim (.text "") fun c => .ofValue c.value
  draw := draws

def cell (id : CellId) : Cell := g.cells.getD id .blank

def value (id : CellId) : CellValue := (g.cell id).value

def formula (id : CellId) : String := (g.cell id).formula

def display (id : CellId) : String := (g.value id).display

def sheet (index : Nat) : Except EditError Sheet :=
  match g.sheets[index]? with
  | some s => .ok s
  | none => .error (.noSuchSheet index)

/-- Refuses a cell outside its sheet; `place` names it in the error. -/
def checkInside (id : CellId) (place : String) : Except EditError Unit := do
  let s ← g.sheet id.sheet
  if s.contains id.row id.col then return else throw (.outOfBounds place)

def checkCell (id : CellId) : Except EditError Unit := g.checkInside id id.text

def checkRange (r : BoundRange) : Except EditError Unit := do
  let s ← g.sheet r.sheet
  if s.contains r.top r.left && s.contains r.bottom r.right then return
  else throw (.outOfBounds r.a1)

/-- The cell that a text names.  Without a sheet in front it is on the sheet `home`. -/
def resolveCell (text : String) (home : Nat) : Except EditError CellId := do
  let written ← (Reference.ofChars text.toList).mapError .reference
  match written.bind? home g.directory with
  | none => throw (.reference (.unknownSheet text))
  | some bound =>
    g.checkInside bound.cell text
    return bound.cell

def resolveRange (text : String) (home : Nat) : Except EditError BoundRange := do
  if text.toList.contains ':' then
    let written ← (Range.ofChars text.toList).mapError .reference
    match written.bind? home g.directory with
    | none => throw (.reference (.unknownSheet text))
    | some bound =>
      g.checkInside bound.start.cell text
      g.checkInside bound.stop.cell text
      return bound
  else
    return .single (← g.resolveCell text home)

/-- The last row and the last column that hold content on a sheet at or beyond a row and a column,
and no less than these. -/
def extent (sheet top left : Nat) : Nat × Nat :=
  g.cells.foldl (fun (rows, cols) id c =>
    if id.sheet == sheet && top ≤ id.row && left ≤ id.col && !c.isBlank then
      (max rows id.row, max cols id.col)
    else (rows, cols)) (top, left)

def boundingSize (sheet : Nat) : Nat × Nat := g.extent sheet 0 0

def growSheet (index rows cols : Nat) : Grid :=
  { g with sheets := g.sheets.modify index (·.grow rows cols) }

end Grid

end Spreadsheet
