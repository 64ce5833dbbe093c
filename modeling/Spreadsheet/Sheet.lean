import Spreadsheet.Reference.Shift
import Spreadsheet.Text.Character

/-!
# Sheets

A sheet has a name and a size.  A `Directory` is what a formula can ask about the sheets around it:
which index a name has, which name an index has, and how large a sheet is.
-/

namespace Spreadsheet

/-- The name and the size of a sheet. -/
structure Sheet where
  name : String
  rows : Nat
  cols : Nat
deriving DecidableEq, Repr

namespace Sheet

def bounds (s : Sheet) : Bounds := ⟨s.rows, s.cols⟩

/-- The sheet with at least the given size.  No axis gets smaller. -/
def grow (s : Sheet) (rows cols : Nat) : Sheet :=
  { s with rows := max s.rows rows, cols := max s.cols cols }

def contains (s : Sheet) (row col : Nat) : Bool :=
  1 ≤ row && row ≤ s.rows && 1 ≤ col && col ≤ s.cols

/-- May a sheet have this name?  A name is not empty, has no blanks at its ends, and none of the
characters that end a reference or a text literal. -/
def isValidName (name : String) : Bool :=
  let cs := name.toList
  !cs.isEmpty && Text.trim cs == cs &&
    cs.all fun c => c != '!' && c != ':' && c != '"' && !Text.isControl c

end Sheet

/-- What formulas know about the sheets. -/
structure Directory where
  /-- The index of the sheet with a name. -/
  index? : String → Option Nat
  /-- The name of the sheet with an index. -/
  name? : Nat → Option String
  /-- The size of the sheet with an index. -/
  bounds? : Nat → Option Bounds

def Directory.ofSheets (sheets : List Sheet) : Directory where
  index? name := sheets.findIdx? (·.name == name)
  name? i := (sheets[i]?).map (·.name)
  bounds? i := (sheets[i]?).map (·.bounds)

/-- The reference with its sheet, for a formula on the sheet `home`.  There is none when no sheet has
the written name. -/
def Reference.bind? (r : WrittenReference) (home : Nat) (directory : Directory) :
    Option BoundReference :=
  match r.sheet with
  | none => some (r.onSheet home)
  | some name => (directory.index? name).map r.onSheet

/-- The range with its sheet, for a formula on the sheet `home`.  The first corner has the sheet. -/
def Range.bind? (r : WrittenRange) (home : Nat) (directory : Directory) : Option BoundRange :=
  match r.start.sheet with
  | none => some (r.onSheet home)
  | some name => (directory.index? name).map r.onSheet

end Spreadsheet
