import Spreadsheet.Formula.Mention

/-!
# Formulas that move

When a formula is copied, its references move by the distance of the copy, except along pinned axes,
and are brought back into their sheets.  A reference to the formula's own sheet goes with it to
another sheet.

When cells are cut, the formulas that move keep reading what they read before, and every formula that
reads a moved cell follows it.  A range follows only if both its corners lie in the block that moves.

A reference is written anew only if it changes.  One without a sheet in front stays without one as
long as it is on the sheet of its formula.
-/

namespace Spreadsheet.Formula

/-- The sheet to write in front of a reference to `sheet` in a formula on `home`; `none` when the
sheet has no name. -/
def sheetToWrite? (qualified : Bool) (sheet home : Nat) (directory : Directory) :
    Option (Option String) :=
  if !qualified && sheet == home then some none else (directory.name? sheet).map some

/-- The new text of a reference in a formula on `home`, if it changes. -/
def renderCell? (written : WrittenReference) (new : BoundReference) (home : Nat)
    (directory : Directory) : Option String := do
  let sheet ← sheetToWrite? written.sheet.isSome new.sheet home directory
  let rendered := new.onSheet sheet
  if rendered = written then none else some rendered.text

/-- The new text of a range in a formula on `home`, if it changes. -/
def renderRange? (written : WrittenRange) (new : BoundRange) (home : Nat) (directory : Directory) :
    Option String := do
  let sheet ← sheetToWrite? written.start.sheet.isSome new.sheet home directory
  let rendered := new.onSheet sheet
  if rendered = written then none else some rendered.text

def shiftOnto? (r : BoundReference) (d : Distance) (honorFixed : Bool) (sheet : Nat)
    (directory : Directory) : Option BoundReference := do
  let bounds ← directory.bounds? sheet
  return (r.shift d honorFixed bounds).1.onSheet sheet

/-- The sheet of a reference after its formula has moved from one sheet to another. -/
def followSheet (sheet source target : Nat) (isCut : Bool) : Nat :=
  if !isCut && sheet == source then target else sheet

def distanceOf (source target : CellId) (isCut : Bool) : Distance :=
  if isCut then Distance.zero else Distance.between source target

def relocateMention (source target : CellId) (isCut : Bool) (directory : Directory) :
    Mention → Option String
  | .cell written => do
    let bound ← written.bind? source.sheet directory
    let sheet := followSheet bound.sheet source.sheet target.sheet isCut
    let moved ← shiftOnto? bound (distanceOf source target isCut) true sheet directory
    renderCell? written moved target.sheet directory
  | .range written => do
    let bound ← written.bind? source.sheet directory
    let sheet := followSheet bound.sheet source.sheet target.sheet isCut
    let start ← shiftOnto? bound.start (distanceOf source target isCut) true sheet directory
    let stop ← shiftOnto? bound.stop (distanceOf source target isCut) true sheet directory
    renderRange? written ⟨start, stop⟩ target.sheet directory

/-- The formula of the cell `source` as it has to be written in the cell `target`.  With `isCut` it
goes on reading the same cells; otherwise it is copied. -/
def relocate (source target : CellId) (isCut : Bool) (directory : Directory) (formula : String) :
    String :=
  replaceMentions (relocateMention source target isCut directory) formula

/-- Cells that are cut: where each one goes, the block they leave, and the distance and the sheet to
which the block as a whole moves. -/
structure Cut where
  moved : CellMap CellId
  source : BoundRange
  targetSheet : Nat
  distance : Distance

/-- The replacement of a reference or range in a formula that was on the sheet `home` before a cut
and is on `newHome` after it. -/
def retargetMention (home newHome : Nat) (cut : Cut) (directory : Directory) :
    Mention → Option String
  | .cell written => do
    let bound ← written.bind? home directory
    let target : BoundReference := match cut.moved[bound.cell]? with
      | some id => { bound with sheet := id.sheet, row := id.row, col := id.col }
      | none => bound
    renderCell? written target newHome directory
  | .range written => do
    let bound ← written.bind? home directory
    let target : BoundRange ←
      if cut.source.contains bound.start.cell && cut.source.contains bound.stop.cell then
        let start ← shiftOnto? bound.start cut.distance false cut.targetSheet directory
        let stop ← shiftOnto? bound.stop cut.distance false cut.targetSheet directory
        pure ⟨start, stop⟩
      else pure bound
    renderRange? written target newHome directory

/-- The formula as it has to be written after a cut, when it was on the sheet `home` before and is on
`newHome` afterwards. -/
def retarget (home newHome : Nat) (cut : Cut) (directory : Directory) (formula : String) : String :=
  replaceMentions (retargetMention home newHome cut directory) formula

end Spreadsheet.Formula
