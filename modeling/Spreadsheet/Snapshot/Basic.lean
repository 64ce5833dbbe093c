import Spreadsheet.Grid.Cell
import Spreadsheet.Grid.Basic

/-!
# Snapshots

A snapshot is a grid without its options and without what is left to do: its sheets, and its stored
cells in order, with their values and edges.  A snapshot becomes a grid again unless it has no
sheets, two sheets of one name, or a cell or an edge on a sheet that is not there.
-/

namespace Spreadsheet

/-- The sheets and the stored cells of a grid. -/
structure Snapshot where
  sheets : List Sheet
  cells : List (CellId × Cell)

/-- What keeps a snapshot from being a grid. -/
inductive Inconsistency
  | noSheets
  /-- Two sheets have this name. -/
  | duplicateSheet (name : String)
  /-- A cell of the snapshot, or an end of an edge, is on no sheet. -/
  | missingSheet (cell : CellId)
deriving DecidableEq, Repr

/-- Why a text cannot be read as a grid. -/
inductive SnapshotError
  /-- The text is not the text of a snapshot. -/
  | malformed
  | inconsistent (cause : Inconsistency)
deriving DecidableEq, Repr

def Inconsistency.message : Inconsistency → String
  | noSheets => "no sheets"
  | duplicateSheet name => "duplicate sheet " ++ Text.describe name
  | missingSheet cell => "cell " ++ cell.text ++ " names a missing sheet"

def SnapshotError.message : SnapshotError → String
  | malformed => "snapshot is not valid"
  | inconsistent cause => "snapshot is inconsistent: " ++ cause.message

def firstDuplicate? (sheets : List Sheet) : Option String :=
  (sheets.zipIdx.find? fun (s, i) => (sheets.take i).any (·.name == s.name)).map (·.1.name)

def Cell.mentioned (id : CellId) (c : Cell) : List CellId :=
  id :: (c.precedents.toList ++ c.readers.toList)

namespace Snapshot

def missing? (s : Snapshot) : Option CellId :=
  s.cells.findSome? fun (id, c) => (c.mentioned id).find? (s.sheets.length ≤ ·.sheet)

def inconsistency? (s : Snapshot) : Option Inconsistency :=
  if s.sheets.isEmpty then some .noSheets
  else ((firstDuplicate? s.sheets).map .duplicateSheet).or (s.missing?.map .missingSheet)

end Snapshot

namespace Grid

def snapshot (g : Grid) : Snapshot := ⟨g.sheets, g.cells.toList⟩

/-- The grid of a snapshot.  Edges are taken as they are, and of two cells at one place the later one
is kept. -/
def ofSnapshot (options : Options) (s : Snapshot) : Except Inconsistency Grid :=
  match s.inconsistency? with
  | some cause => .error cause
  | none => .ok { sheets := s.sheets, cells := .ofList s.cells, options }

end Grid

end Spreadsheet
