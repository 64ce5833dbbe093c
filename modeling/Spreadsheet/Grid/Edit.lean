import Spreadsheet.Formula.Relocation
import Spreadsheet.Grid.Input
import Spreadsheet.Grid.Recomputation
import Spreadsheet.Grid.Tiling

/-!
# Edits

An edit is checked first and refused as a whole if anything is wrong with it.  Then it writes its
cells, the dirty cells are recomputed, and the formulas that fill other cells are run, followed by a
second pass if there were any.  An edit of a block looks at everything it needs before it writes
anything, so source and destination may overlap.
-/

namespace Spreadsheet

/-- A line of a sheet. -/
inductive LineKind
  | row
  | column
deriving DecidableEq, Repr

/-- What is done to a line. -/
inductive LineEdit
  | insertBefore
  | insertAfter
  | delete
deriving DecidableEq, Repr

/-- The edits of a grid. -/
inductive Edit
  /-- Sets a cell from what is typed. -/
  | set (cell : CellId) (text : String)
  /-- Sets some cells at once. -/
  | batch (cells : List CellId) (texts : List String)
  | copy (source destination : BoundRange)
  | cut (source destination : BoundRange)
  /-- Copies values as literals. -/
  | copyValues (source destination : BoundRange)
  /-- Arranges the rows of a range by the values in one column of the sheet. -/
  | sort (range : BoundRange) (column : Nat) (ascending : Bool)
  | resize (sheet rows cols : Nat)
  | addSheet (name : String)
  | removeSheet (sheet : Nat)
  | line (kind : LineKind) (edit : LineEdit) (cell : CellId)
  | clear (range : BoundRange)

/-- What an edit has done. -/
structure Outcome where
  /-- The cells that were written and those whose values have changed, each once. -/
  changed : List CellId
  report : Report
  /-- Has the layout of the sheets changed? -/
  invalidate : Bool

/-- A formula that is to be written into a cell, and whether it fills other cells. -/
structure Update where
  cell : CellId
  formula : String
  filling : Bool

namespace Grid

/-- Writes a formula that fills other cells.  It is run later. -/
def enqueue (g : Grid) (id : CellId) (formula : String) : Grid :=
  let g := g.store id (.filling formula "")
  { g with waiting := g.waiting ++ [(id, formula)] }

def update (g : Grid) (u : Update) : Grid :=
  if u.filling then g.enqueue u.cell u.formula else g.store u.cell (.ofFormula u.formula)

/-- Writes some formulas and lists their cells. -/
def updateAll (g : Grid) (us : List Update) : Grid × List CellId :=
  (us.foldl update g, us.map Update.cell)

def enter (g : Grid) (id : CellId) (text : String) : Grid :=
  match Input.ofText text with
  | .filling formula => g.enqueue id formula
  | input => g.store id (.ofFormula input.stored)

def clearAll (g : Grid) (ids : List CellId) : Grid × List CellId :=
  (ids.foldl (fun g id => g.store id .blank) g, ids)

/-- The pairs of cells of a copy, as far as they are inside the sheet of the destination. -/
def mapping (g : Grid) (source destination : BoundRange) : List (CellId × CellId) :=
  match g.sheets[destination.sheet]? with
  | none => []
  | some s => tiling s.bounds source destination

def copied (g : Grid) (source target : CellId) : Update :=
  let c := g.cell source
  ⟨target, Formula.relocate source target false g.directory c.formula, c.isFilling⟩

def copyBlock (g : Grid) (source destination : BoundRange) : Grid × List CellId :=
  g.updateAll ((g.mapping source destination).map fun (target, source) => g.copied source target)

def copyBlockValues (g : Grid) (source destination : BoundRange) : Grid × List CellId :=
  g.updateAll ((g.mapping source destination).map fun (target, source) =>
    ⟨target, (g.value source).literal, false⟩)

/-- The cut that a mapping amounts to.  The distance is that of the first pair, and a cell that is
laid out several times goes where it is laid out first. -/
def cutOf (source destination : BoundRange) (mapping : List (CellId × CellId)) : Formula.Cut where
  moved := mapping.foldl (fun moved (target, source) => moved.insertIfNew source target) ∅
  source
  targetSheet := destination.sheet
  distance := mapping.head?.elim .zero fun (target, source) => .between source target

def moved (g : Grid) (cut : Formula.Cut) (source target : CellId) : Update :=
  let c := g.cell source
  ⟨target, Formula.retarget source.sheet target.sheet cut g.directory c.formula, c.isFilling⟩

/-- The cells that read a moved cell and are neither moved nor overwritten. -/
def followers (g : Grid) (cut : Formula.Cut) (targets : CellSet) : CellSet :=
  cut.moved.foldl (fun found source _ =>
    (g.cell source).readers.foldl (fun found reader =>
      if cut.moved.contains reader || targets.contains reader then found
      else found.insert reader) found) ∅

/-- Moves a block.  Formulas that move and formulas that read moved cells are written so that they
read the same as before; cells of the block that nothing is moved onto become blank. -/
def cutBlock (g : Grid) (source destination : BoundRange) : Grid × List CellId :=
  let mapping := g.mapping source destination
  if mapping.isEmpty then (g, [])
  else
    let cut := cutOf source destination mapping
    let targets : CellSet := .ofList (mapping.map (·.1))
    let moves := mapping.map fun (target, source) => g.moved cut source target
    let follows := ((g.followers cut targets).toList.map fun id => g.moved cut id id).filter
      fun u => u.formula != g.formula u.cell
    let (g, written) := g.updateAll (moves ++ follows)
    let (g, cleared) := g.clearAll (source.cells.filter (!targets.contains ·))
    (g, written ++ cleared)

/-- The rows of a range in the order of the values in a column.  Rows with equal values keep their
order. -/
def sortedRows (g : Grid) (range : BoundRange) (column : Nat) (ascending : Bool) : List Nat :=
  let key := fun row => Term.ofValue (g.value ⟨range.sheet, row, column⟩)
  let inOrder := fun (a b : Nat × Term) =>
    if ascending then a.2.sortOrder b.2 != .gt else a.2.sortOrder b.2 != .lt
  (((List.range' range.top range.rowCount).map fun row => (row, key row)).mergeSort inOrder).map (·.1)

def sortBlock (g : Grid) (range : BoundRange) (column : Nat) (ascending : Bool) :
    Grid × List CellId :=
  g.updateAll ((g.sortedRows range column ascending).zipIdx.flatMap fun (row, i) =>
    (List.range' range.left range.colCount).map fun col =>
      g.copied ⟨range.sheet, row, col⟩ ⟨range.sheet, range.top + i, col⟩)

/-- Inserts a line, by moving all that comes after it, or deletes one, by making it blank and moving
back all that comes after it. -/
def editLine (g : Grid) (kind : LineKind) (edit : LineEdit) (id : CellId) (size : Bounds) :
    Grid × List CellId :=
  let sheet := id.sheet
  match edit with
  | .delete =>
    match kind with
    | .row =>
      let (g, cleared) := g.clearAll (Range.block sheet id.row 1 id.row size.cols).cells
      if id.row < size.rows then
        let (g, written) := g.cutBlock (.block sheet (id.row + 1) 1 size.rows size.cols)
          (.block sheet id.row 1 id.row 1)
        (g, cleared ++ written)
      else (g, cleared)
    | .column =>
      let (g, cleared) := g.clearAll (Range.block sheet 1 id.col size.rows id.col).cells
      if id.col < size.cols then
        let (g, written) := g.cutBlock (.block sheet 1 (id.col + 1) size.rows size.cols)
          (.block sheet 1 id.col 1 id.col)
        (g, cleared ++ written)
      else (g, cleared)
  | _ =>
    let after := if edit = .insertAfter then 1 else 0
    match kind with
    | .row =>
      let g := g.growSheet sheet (wrap (size.rows + 1)) size.cols
      let first := wrap (id.row + after)
      let (lastRow, lastCol) := g.extent sheet first 1
      g.cutBlock (.block sheet first 1 lastRow lastCol)
        (.block sheet (wrap (first + 1)) 1 (wrap (lastRow + 1)) lastCol)
    | .column =>
      let g := g.growSheet sheet size.rows (wrap (size.cols + 1))
      let first := wrap (id.col + after)
      let (lastRow, lastCol) := g.extent sheet 1 first
      g.cutBlock (.block sheet 1 first lastRow lastCol)
        (.block sheet 1 (wrap (first + 1)) lastRow (wrap (lastCol + 1)))

def addSheet (g : Grid) (name : String) : Except EditError Grid :=
  if !Sheet.isValidName name then .error (.invalidSheetName name)
  else if g.sheets.any (·.name == name) then .error (.duplicateSheet name)
  else .ok { g with sheets := g.sheets ++ [freshSheet g.options name] }

/-- The cell after the sheet with an index is removed; none on that sheet. -/
def withoutSheet? (index : Nat) (id : CellId) : Option CellId :=
  if id.sheet < index then some id
  else if id.sheet = index then none
  else some { id with sheet := id.sheet - 1 }

def setWithoutSheet (index : Nat) (ids : CellSet) : CellSet :=
  .ofList (ids.toList.filterMap (withoutSheet? index))

def cellWithoutSheet (index : Nat) (c : Cell) : Cell :=
  { c with
    precedents := setWithoutSheet index c.precedents
    readers := setWithoutSheet index c.readers }

/-- The grid without a sheet and its cells.  Later sheets move up by one. -/
def dropSheet (g : Grid) (index : Nat) : Grid :=
  { g with
    sheets := g.sheets.eraseIdx index
    cells := .ofList (g.cells.toList.filterMap fun (id, c) =>
      (withoutSheet? index id).map (·, cellWithoutSheet index c))
    dirty := setWithoutSheet index g.dirty }

/-- The cells that read a sheet, after it is removed. -/
def orphans (g : Grid) (index : Nat) : List CellId :=
  (g.cells.toList.filter (·.1.sheet == index)).flatMap fun (_, c) =>
    c.readers.toList.filterMap (withoutSheet? index)

/-- The grid without a sheet, whose readers are out of date. -/
def sheetRemoved (g : Grid) (index : Nat) : Grid :=
  (g.orphans index).foldl markDirty (g.dropSheet index)

def removeSheet (g : Grid) (index : Nat) : Except EditError Grid := do
  let _ ← g.sheet index
  if g.sheets.length = 1 then throw .lastSheet
  return g.sheetRemoved index

/-- Writes the cells of an edit, or refuses it.  Gives the grid, the cells that were written, and
whether the layout of the sheets has changed. -/
def write (g : Grid) : Edit → Except EditError ((Grid × List CellId) × Bool)
  | .set id text => do
    g.checkCell id
    return ((g.enter id text, [id]), false)
  | .batch ids texts => do
    if ids.length ≠ texts.length then throw (.batchMismatch ids.length texts.length)
    ids.forM g.checkCell
    return (((ids.zip texts).foldl (fun g (id, text) => g.enter id text) g, ids), false)
  | .copy source destination => do
    g.checkRange source
    g.checkRange destination
    return (g.copyBlock source destination, false)
  | .cut source destination => do
    g.checkRange source
    g.checkRange destination
    return (g.cutBlock source destination, false)
  | .copyValues source destination => do
    g.checkRange source
    g.checkRange destination
    return (g.copyBlockValues source destination, false)
  | .sort range column ascending => do
    g.checkRange range
    if column < range.left ∨ range.right < column then
      throw (.outOfBounds ("sort column " ++ toString column ++ " of " ++ range.a1))
    return (g.sortBlock range column ascending, false)
  | .resize index rows cols => do
    let _ ← g.sheet index
    return ((g.growSheet index rows cols, []), true)
  | .addSheet name => do
    return ((← g.addSheet name, []), true)
  | .removeSheet index => do
    return ((← g.removeSheet index, []), true)
  | .line kind edit id => do
    g.checkCell id
    return (g.editLine kind edit id (← g.sheet id.sheet).bounds, true)
  | .clear range => do
    g.checkRange range
    return (g.clearAll range.cells, false)

/-- Runs the formulas that fill other cells and are still where they were written, each with its
draws.  Gives the cells that they fill. -/
def runWaiting (g : Grid) (draws : Nat → Formula.Draws := fun _ => .zero) : Grid × List CellId :=
  g.waiting.zipIdx.foldl (fun (g, filled) ((id, formula), turn) =>
    let c := g.cell id
    if c.isFilling && c.formula == formula then
      let (g, more) := g.fill id formula (draws turn)
      (g, filled ++ more)
    else (g, filled)) ({ g with waiting := [] }, [])

/-- The list with each cell only where it first occurs. -/
def distinct (ids : List CellId) : List CellId :=
  (ids.foldl (fun ((seen, kept) : CellSet × Array CellId) id =>
    if seen.contains id then (seen, kept) else (seen.insert id, kept.push id)) (∅, #[])).2.toList

/-- Recomputes what the writes of an edit have put out of date. -/
def finish (g : Grid) (hooks : Hooks) (written : List CellId) (invalidate : Bool) : Grid × Outcome :=
  let (g, report) := g.recompute hooks
  if g.waiting.isEmpty then
    (g, ⟨distinct (written ++ report.changed.toList), report, invalidate⟩)
  else
    let turns := g.waiting.length
    let (g, filled) := g.runWaiting fun turn => hooks.draws (turn + 1)
    let (g, second) := g.recompute { draws := fun _ => hooks.draws (turns + 1) }
    let report := report.followedBy second
    (g, ⟨distinct (written ++ filled ++ report.changed.toList), report, invalidate⟩)

def apply (g : Grid) (hooks : Hooks) (edit : Edit) : Except EditError (Grid × Outcome) := do
  let ((g, written), invalidate) ← g.write edit
  return g.finish hooks written invalidate

/-- The literals that rows of texts are written as, from the first cell of a sheet on.  The texts are
trimmed, and none of them is a formula. -/
def importUpdates (index : Nat) (rows : List (List String)) : List Update :=
  rows.zipIdx.flatMap fun (row, r) => row.zipIdx.map fun (text, c) =>
    let trimmed := String.ofList (Text.trim text.toList)
    ⟨⟨index, r + 1, c + 1⟩, literalFormula trimmed, false⟩

/-- Fills a sheet from its first cell on with rows of texts.  The sheet grows as needed. -/
def importRows (g : Grid) (index : Nat) (rows : List (List String))
    (draws : Nat → Formula.Draws := fun _ => .zero) : Except EditError (Grid × Outcome) := do
  let _ ← g.sheet index
  let width := (rows.map List.length).foldl max 0
  let (g, written) := (g.growSheet index rows.length width).updateAll (importUpdates index rows)
  return g.finish { draws } written true

end Grid

end Spreadsheet
