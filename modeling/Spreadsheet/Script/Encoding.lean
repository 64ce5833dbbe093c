import Spreadsheet.Grid.Event
import Spreadsheet.Json.Writer

/-!
# Events as JSON

An event is written as an object with its name in the field `event` and what it tells in the field
`data`.
-/

namespace Spreadsheet

def ChangedCell.toJson (c : ChangedCell) : Json :=
  .object [("reference", .string c.reference), ("display", .string c.display),
    ("formula", .string c.formula), ("sheet", .nat c.sheet)]

namespace Event

def name : Event → String
  | changed _ => "changed"
  | invalidate => "invalidate"
  | progress _ => "progress"
  | cell _ => "cell"
  | saved _ => "saved"
  | error _ => "error"

def data? : Event → Option Json
  | changed cells => some (.array (cells.map ChangedCell.toJson))
  | invalidate => none
  | progress p => some (.number (.ofFloat p.fraction))
  | cell c => some c.toJson
  | saved path => some (.string path)
  | error message => some (.string message)

def toJson (e : Event) : Json :=
  .object (("event", .string e.name) :: (e.data?.map ("data", ·)).toList)

end Event

end Spreadsheet
