import Spreadsheet.CommandLine.Program
import Spreadsheet.Script.Encoding

/-!
# The command line program

Commands come from the standard input, one a line, and events go to the standard output, one a line.
-/

namespace Spreadsheet.CommandLine

def fileError (e : IO.Error) : FileError :=
  match e with
  | .noFileOrDirectory .. => .notFound
  | .permissionDenied .. => .permissionDenied
  | .alreadyExists .. => .alreadyExists
  | .inappropriateType _ code _ =>
    if code == 20 then .notADirectory else if code == 21 then .isADirectory else .other (toString e)
  | e => .other (toString e)

def attempt {α : Type} (act : IO α) : IO (Except FileError α) := do
  try
    return .ok (← act)
  catch e =>
    return .error (fileError e)

def files : Storage IO where
  read path := attempt (IO.FS.readFile path)
  write path text := attempt (IO.FS.writeFile path text)
  createDirectory path := attempt (IO.FS.createDirAll path)

def configDirectory : IO String := do
  match ← IO.getEnv "XDG_CONFIG_HOME" with
  | some directory => if directory.startsWith "/" then return directory
  | none => pure ()
  match ← IO.getEnv "HOME" with
  | some home => return joinPath home ".config"
  | none => return "."

def helpText : String :=
  "Spreadsheet formula engine driven by JSON lines on the standard input\n\n" ++
  "Usage: gridcalc [OPTIONS]\n\n" ++
  "Options:\n" ++
  "      --config <PATH>  Settings file [env: GRIDCALC_CONFIG]\n" ++
  "      --load <PATH>    Start from this grid instead of an empty one\n" ++
  "      --save <PATH>    Write the final grid here\n" ++
  "      --write-config   Write the settings to the settings file and exit\n" ++
  "      --strict         Stop at the first rejected command\n" ++
  "  -v, --verbose...     Tell more about the run\n" ++
  "  -h, --help           Print help\n" ++
  "  -V, --version        Print version\n"

def note (a : Arguments) (message : String) : IO Unit := do
  if 0 < a.verbosity then IO.eprintln message

/-- Numbers from 0 on and below 1 for the calls that a line makes, from a seed. -/
def drawsFrom (seed turn : Nat) : Formula.Draws := fun id place =>
  let mix := fun (state n : Nat) =>
    ((state + n) * 6364136223846793005 + 1442695040888963407) % UInt64.size
  let state := (turn :: id.sheet :: id.row :: id.col :: place).foldl mix seed
  Number.ofNat (state / 2048) / Number.ofNat (UInt64.size / 2048)

/-- Takes lines until they or the session end. -/
partial def converse (input output : IO.FS.Stream) (s : Session) : IO Session := do
  let line ← input.getLine
  if line.isEmpty then return s
  let seed ← IO.rand 0 (UInt64.size - 1)
  let (s, events) ← s.takeLine files line (drawsFrom seed)
  for e in events do
    output.putStrLn e.toJson.text
  output.flush
  if s.ended then return s else converse input output s

def runProgram (a : Arguments) : IO Exit := do
  match ← start files (← configDirectory) a with
  | .ended exit => return exit
  | .ready s =>
    note a ("grid with " ++ toString s.grid.sheets.length ++ " sheets")
    let s ← converse (← IO.getStdin) (← IO.getStdout) s
    finish files a s

end Spreadsheet.CommandLine

open Spreadsheet.CommandLine in
def main (arguments : List String) : IO UInt32 := do
  match Invocation.ofArguments? (← IO.getEnv "GRIDCALC_CONFIG") arguments with
  | none =>
    IO.eprint helpText
    return 2
  | some .help =>
    IO.print helpText
    return 0
  | some .version =>
    IO.println "gridcalc 0.1.0"
    return 0
  | some (.run a) =>
    try
      let exit ← runProgram a
      return exit.code.toUInt32
    catch e =>
      IO.eprintln (toString e)
      return 1
