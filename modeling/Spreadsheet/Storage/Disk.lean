import Spreadsheet.Storage

/-!
# A model of a disk

Files and directories by their paths.  The parts of a path are divided by slashes and are followed one
by one from the top: an empty part and `.` stay where they are, and `..` leads back to the directory
above.  Every part but the last one has to lead to a directory.
-/

namespace Spreadsheet

/-- What is kept under a path. -/
inductive DiskEntry
  | file (text : String)
  | directory
deriving DecidableEq, Repr

/-- Files and directories by the names that lead to them. -/
structure Disk where
  entries : List (List String × DiskEntry) := []

namespace Disk

def entry? (d : Disk) (place : List String) : Option DiskEntry :=
  if place.isEmpty then some .directory else d.entries.lookup place

def put (d : Disk) (place : List String) (e : DiskEntry) : Disk :=
  ⟨(place, e) :: d.entries.filter (·.1 != place)⟩

/-- The parts of a path.  There is no file without a path, and none with the character 0 in it. -/
def parts (path : String) : Except FileError (List String) :=
  if path.isEmpty then .error .notFound
  else if path.toList.contains (Char.ofNat 0) then
    .error (.other "file name contained an unexpected NUL byte")
  else .ok (path.splitOn "/")

def step (place : List String) (part : String) : List String :=
  if part == "" || part == "." then place
  else if part == ".." then place.dropLast
  else place ++ [part]

def checkDirectory (d : Disk) (place : List String) : Except FileError Unit :=
  match d.entry? place with
  | some .directory => .ok ()
  | some (.file _) => .error .notADirectory
  | none => .error .notFound

def follow (d : Disk) (place : List String) : List String → Except FileError (List String)
  | [] => .ok place
  | part :: parts => do
    d.checkDirectory place
    d.follow (step place part) parts

def read (d : Disk) (path : String) : Except FileError String := do
  match d.entry? (← d.follow [] (← parts path)) with
  | some (.file text) => return text
  | some .directory => throw .isADirectory
  | none => throw .notFound

/-- The disk after a file is written.  A path with a slash at its end does not name a file. -/
def write (d : Disk) (path text : String) : Except FileError Disk := do
  let named := (← parts path).reverse.dropWhile String.isEmpty
  let place ← d.follow [] named.reverse
  if d.entry? place == some .directory || path.endsWith "/" then throw .isADirectory
  else return d.put place (.file text)

def createOne (d : Disk) (place : List String) : Except FileError Disk :=
  match d.entry? place with
  | some .directory => .ok d
  | some (.file _) => .error .alreadyExists
  | none => .ok (d.put place .directory)

/-- The disk after the directories are made to which the parts of a path lead from a place. -/
def createAlong (d : Disk) (place : List String) : List String → Except FileError Disk
  | [] => .ok d
  | part :: parts => do
    let next := step place part
    (← d.createOne next).createAlong next parts

def createDirectory (d : Disk) (path : String) : Except FileError Disk := do
  d.createAlong [] (← parts path)

def change (f : Disk → Except FileError Disk) : StateM Disk (Except FileError Unit) := do
  match f (← get) with
  | .ok d =>
    set d
    return .ok ()
  | .error e => return .error e

def storage : Storage (StateM Disk) where
  read path := do return (← get).read path
  write path text := change (·.write path text)
  createDirectory path := change (·.createDirectory path)

end Disk

end Spreadsheet
