import Spreadsheet.Grid.Edit

/-!
# Edits in place

A grid that is kept is edited where it is.  An edit looks at the grid and writes into it step by step,
and each look may refuse the edit.  Nothing is taken back then, so whatever was written before stays
written.
-/

namespace Spreadsheet

/-- What is done to a grid that is kept.  If it is refused, the grid stays as it is at that time. -/
abbrev InPlace := ExceptT EditError (StateM Grid)

namespace InPlace

variable {α : Type}

def on (m : InPlace α) (g : Grid) : Except EditError α × Grid := StateT.run (ExceptT.run m) g

def look (f : Grid → Except EditError α) : InPlace α := do
  match f (← get) with
  | .ok a => return a
  | .error e => throw e

def write (f : Grid → Grid × α) : InPlace α := modifyGet fun g => ((f g).2, (f g).1)

def resizeSheet (index rows cols : Nat) : InPlace Unit := do
  let _ ← look (·.sheet index)
  modify (·.growSheet index rows cols)

def addSheet (name : String) : InPlace Unit := do
  if !Sheet.isValidName name then throw (.invalidSheetName name)
  if (← get).sheets.any (·.name == name) then throw (.duplicateSheet name)
  modify fun g => { g with sheets := g.sheets ++ [Grid.freshSheet g.options name] }

def removeSheet (index : Nat) : InPlace Unit := do
  let _ ← look (·.sheet index)
  if (← get).sheets.length = 1 then throw .lastSheet
  modify (·.sheetRemoved index)

/-- Inserts a line, by moving all that comes after it, or deletes one, by making it blank and moving
back all that comes after it. -/
def editLine (kind : LineKind) (edit : LineEdit) (id : CellId) : InPlace (List CellId) := do
  let sheet := id.sheet
  let size := (← look (·.sheet sheet)).bounds
  match edit with
  | .delete =>
    match kind with
    | .row =>
      let cleared ← write (·.clearAll (Range.block sheet id.row 1 id.row size.cols).cells)
      if id.row < size.rows then
        return cleared ++ (← write (·.cutBlock (.block sheet (id.row + 1) 1 size.rows size.cols)
          (.block sheet id.row 1 id.row 1)))
      else return cleared
    | .column =>
      let cleared ← write (·.clearAll (Range.block sheet 1 id.col size.rows id.col).cells)
      if id.col < size.cols then
        return cleared ++ (← write (·.cutBlock (.block sheet 1 (id.col + 1) size.rows size.cols)
          (.block sheet 1 id.col 1 id.col)))
      else return cleared
  | _ =>
    let after := if edit = .insertAfter then 1 else 0
    match kind with
    | .row =>
      resizeSheet sheet (wrap (size.rows + 1)) size.cols
      let first := wrap (id.row + after)
      let (lastRow, lastCol) := (← get).extent sheet first 1
      write (·.cutBlock (.block sheet first 1 lastRow lastCol)
        (.block sheet (wrap (first + 1)) 1 (wrap (lastRow + 1)) lastCol))
    | .column =>
      resizeSheet sheet size.rows (wrap (size.cols + 1))
      let first := wrap (id.col + after)
      let (lastRow, lastCol) := (← get).extent sheet 1 first
      write (·.cutBlock (.block sheet 1 first lastRow lastCol)
        (.block sheet 1 (wrap (first + 1)) lastRow (wrap (lastCol + 1))))

/-- Writes the cells of an edit.  Gives the cells that were written, and whether the layout of the
sheets has changed. -/
def writeEdit : Edit → InPlace (List CellId × Bool)
  | .set id text => do
    look (·.checkCell id)
    modify (·.enter id text)
    return ([id], false)
  | .batch ids texts => do
    if ids.length ≠ texts.length then throw (.batchMismatch ids.length texts.length)
    ids.forM fun id => look (·.checkCell id)
    (ids.zip texts).forM fun (id, text) => modify (·.enter id text)
    return (ids, false)
  | .copy source destination => do
    look (·.checkRange source)
    look (·.checkRange destination)
    return (← write (·.copyBlock source destination), false)
  | .cut source destination => do
    look (·.checkRange source)
    look (·.checkRange destination)
    return (← write (·.cutBlock source destination), false)
  | .copyValues source destination => do
    look (·.checkRange source)
    look (·.checkRange destination)
    return (← write (·.copyBlockValues source destination), false)
  | .sort range column ascending => do
    look (·.checkRange range)
    if column < range.left ∨ range.right < column then
      throw (.outOfBounds ("sort column " ++ toString column ++ " of " ++ range.a1))
    return (← write (·.sortBlock range column ascending), false)
  | .resize index rows cols => do
    resizeSheet index rows cols
    return ([], true)
  | .addSheet name => do
    addSheet name
    return ([], true)
  | .removeSheet index => do
    removeSheet index
    return ([], true)
  | .line kind edit id => do
    look (·.checkCell id)
    return (← editLine kind edit id, true)
  | .clear range => do
    look (·.checkRange range)
    return (← write (·.clearAll range.cells), false)

def apply (hooks : Hooks) (edit : Edit) : InPlace Outcome := do
  let (written, invalidate) ← writeEdit edit
  write (·.finish hooks written invalidate)

/-- Fills a sheet from its first cell on with rows of texts.  The sheet grows as needed. -/
def importRows (index : Nat) (rows : List (List String))
    (draws : Nat → Formula.Draws := fun _ => .zero) : InPlace Outcome := do
  let _ ← look (·.sheet index)
  resizeSheet index rows.length ((rows.map List.length).foldl max 0)
  let written ← write (·.updateAll (Grid.importUpdates index rows))
  write (·.finish { draws } written true)

end InPlace

end Spreadsheet
