import Spreadsheet.CommandLine.Arguments
import Spreadsheet.Script.Session
import Spreadsheet.Settings

/-!
# The program

A run reads the settings, begins with a new grid or with one that was saved, takes commands, and leaves
the grid in a file if it is told to.  The grid is also left there when a strict session has ended early.
The exit code tells how the run ended.
-/

namespace Spreadsheet.CommandLine

/-- How a run ends. -/
inductive Exit
  | success
  /-- A file cannot be read or written. -/
  | inputOutput
  | usage
  /-- The grid to begin with cannot be read. -/
  | snapshot
  /-- A command was refused in a strict session. -/
  | rejected
deriving DecidableEq, Repr

def Exit.code : Exit → Nat
  | success => 0
  | inputOutput => 1
  | usage => 2
  | snapshot => 3
  | rejected => 4

def joinPath (directory file : String) : String :=
  if directory.isEmpty || directory.endsWith "/" then directory ++ file else directory ++ "/" ++ file

def defaultConfig (directory : String) : String := joinPath directory "gridcalc/engine.toml"

def parent? (path : String) : Option String :=
  let reversed := path.toList.reverse.dropWhile (· == '/')
  if reversed.isEmpty then none
  else
    let above := reversed.dropWhile (· != '/')
    let directory := above.dropWhile (· == '/')
    if directory.isEmpty && !above.isEmpty then some "/" else some (String.ofList directory.reverse)

/-- How a run begins. -/
inductive Start
  | ended (exit : Exit)
  | ready (session : Session)

variable {m : Type → Type} [Monad m]

def readSettings (storage : Storage m) (path : String) : m Options := do
  match ← storage.read path with
  | .ok text => return Settings.ofText text
  | .error _ => return {}

def writeSettings (storage : Storage m) (path : String) (o : Options) : m Exit := do
  let made ← match parent? path with
    | none => pure (.ok ())
    | some "" => pure (.ok ())
    | some directory => storage.createDirectory directory
  match made with
  | .error _ => return .inputOutput
  | .ok () =>
    match ← storage.write path (Settings.text o) with
    | .ok () => return .success
    | .error _ => return .inputOutput

/-- Begins a run, with settings below the directory `directory` if no file is named. -/
def start (storage : Storage m) (directory : String) (a : Arguments) : m Start := do
  let config := a.config.getD (defaultConfig directory)
  let options ← readSettings storage config
  if a.writeConfig then return .ended (← writeSettings storage config options)
  match a.load with
  | none => return .ready { grid := .new options, strict := a.strict }
  | some path =>
    match ← storage.read path with
    | .error _ => return .ended .inputOutput
    | .ok text =>
      match Grid.ofText options text with
      | .ok grid => return .ready { grid, strict := a.strict }
      | .error _ => return .ended .snapshot

/-- Ends a run after its commands. -/
def finish (storage : Storage m) (a : Arguments) (s : Session) : m Exit := do
  let outcome := if s.ended then Exit.rejected else .success
  match a.save with
  | none => return outcome
  | some path =>
    match ← storage.write path s.grid.text with
    | .ok () => return outcome
    | .error _ => return .inputOutput

def run (storage : Storage m) (directory : String) (a : Arguments) (lines : List String)
    (draws : Nat → Nat → Formula.Draws := fun _ _ => .zero) : m (List Event × Exit) := do
  match ← start storage directory a with
  | .ended exit => return ([], exit)
  | .ready s =>
    let (s, events) ← s.takeLines storage lines draws
    return (events, ← finish storage a s)

end Spreadsheet.CommandLine
