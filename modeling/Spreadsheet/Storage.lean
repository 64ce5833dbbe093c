/-!
# Storage

Grids and settings are kept in files.  What a session needs of them is described by `Storage`, for any
monad, so the same session runs on the files of the machine and on a model of them.
-/

namespace Spreadsheet

/-- Why a file cannot be used. -/
inductive FileError
  | notFound
  | permissionDenied
  | alreadyExists
  | notADirectory
  | isADirectory
  /-- Anything else, as the machine reports it. -/
  | other (message : String)
deriving DecidableEq, Repr

def FileError.message : FileError → String
  | notFound => "No such file or directory (os error 2)"
  | permissionDenied => "Permission denied (os error 13)"
  | alreadyExists => "File exists (os error 17)"
  | notADirectory => "Not a directory (os error 20)"
  | isADirectory => "Is a directory (os error 21)"
  | other message => message

/-- What can be done with files. -/
structure Storage (m : Type → Type) where
  /-- The text of a file. -/
  read : String → m (Except FileError String)
  /-- Writes a file, new or in place of the old one. -/
  write : String → String → m (Except FileError Unit)
  /-- Makes a directory and all directories above it that are missing. -/
  createDirectory : String → m (Except FileError Unit)

end Spreadsheet
