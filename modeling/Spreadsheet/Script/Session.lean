import Spreadsheet.Grid.Event
import Spreadsheet.Grid.InPlace
import Spreadsheet.Script.Command
import Spreadsheet.Snapshot.Encoding
import Spreadsheet.Storage

/-!
# Sessions

A session reads commands line by line, applies them to one grid, and answers with events.  Blank lines
and lines that begin with `#` are passed over.  A command that is refused is answered by an error
event; a strict session ends there.
-/

namespace Spreadsheet

/-- A grid and the commands to come. -/
structure Session where
  grid : Grid
  /-- Does the session end with the first command that is refused? -/
  strict : Bool := false
  /-- The session has ended. -/
  ended : Bool := false

def Outcome.events (o : Outcome) (g : Grid) : List Event :=
  o.report.progress.toList.map .progress ++ [o.event g]

def badCommand : String := "bad command"

def Command.answer (events : Outcome → Grid → List Event) :
    Except EditError Outcome × Grid → Except String (List Event) × Grid
  | (.ok o, g) => (.ok (events o g), g)
  | (.error e, g) => (.error e.message, g)

namespace Command

variable {m : Type → Type} [Monad m]

/-- Applies a command to a grid.  Gives the events, or why the command is refused, and the grid that is
left. -/
def perform (storage : Storage m) (g : Grid) (draws : Nat → Formula.Draws) :
    Command → m (Except String (List Event) × Grid)
  | edit request sheet => pure <| answer Outcome.events <| InPlace.on (do
      InPlace.apply { progress := true, draws } (← InPlace.look (request.resolve · sheet))) g
  | importRows rows sheet => pure <|
    answer (fun o g => [o.event g]) ((InPlace.importRows sheet rows draws).on g)
  | get cell sheet => pure <|
    match g.resolveCell cell sheet with
    | .ok id => (.ok [.cell (g.viewed id)], g)
    | .error e => (.error e.message, g)
  | save path => do
    match ← storage.write path g.text with
    | .ok () => return (.ok [.saved path], g)
    | .error e => return (.error (path ++ ": " ++ e.message), g)

end Command

namespace Session

def refuse (s : Session) (message : String) : Session × List Event :=
  ({ s with ended := s.strict }, [.error message])

variable {m : Type → Type} [Monad m]

def takeLine (storage : Storage m) (s : Session) (line : String)
    (draws : Nat → Formula.Draws := fun _ => .zero) : m (Session × List Event) :=
  let cs := Text.trim line.toList
  if cs.isEmpty || cs.head? == some '#' then pure (s, [])
  else
    match Command.ofText? (String.ofList cs) with
    | none => pure (s.refuse badCommand)
    | some command => do
      let (answer, grid) ← command.perform storage s.grid draws
      let s := { s with grid }
      match answer with
      | .ok events => return (s, events)
      | .error message => return s.refuse message

def takeLines (storage : Storage m) (s : Session) (lines : List String)
    (draws : Nat → Nat → Formula.Draws := fun _ _ => .zero) : m (Session × List Event) :=
  match lines with
  | [] => pure (s, [])
  | line :: lines => do
    let (s, events) ← s.takeLine storage line (draws 0)
    if s.ended then return (s, events)
    else
      let (s, more) ← s.takeLines storage lines fun turn => draws (turn + 1)
      return (s, events ++ more)

end Session

end Spreadsheet
