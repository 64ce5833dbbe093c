import Spreadsheet.Formula.Token
import Spreadsheet.Sheet

/-!
# References in formulas

What a formula reads and how its references are replaced is decided on its pieces, so a reference
inside a text literal is none, and whatever is not a reference stays as it is, character by
character.  A text that cannot be cut into pieces has no references.
-/

namespace Spreadsheet.Formula

/-- A reference or a range, as it stands in a formula. -/
inductive Mention
  | cell (reference : WrittenReference)
  | range (range : WrittenRange)
deriving DecidableEq

def Mention.writtenSheet : Mention → Option String
  | cell r => r.sheet
  | range r => r.start.sheet

def Mention.text : Mention → String
  | cell r => r.text
  | range r => r.text

def Token.mention? : Token → Option Mention
  | cell r => some (.cell r)
  | range r => some (.range r)
  | _ => none

def Piece.mention? : Piece → Option (Mention × List Char)
  | token t text => t.mention?.map (·, text)
  | blank _ => none

def piecesOrNone (formula : String) : List Piece :=
  match pieces formula with
  | .ok ps => ps
  | .error _ => []

/-- The references and ranges of a formula with their texts, in order. -/
def mentions (formula : String) : List (Mention × List Char) :=
  (piecesOrNone formula).filterMap Piece.mention?

/-- A reference or range with the byte positions where it begins and ends. -/
structure Found where
  mention : Mention
  start : Nat
  stop : Nat

/-- The references and ranges of a formula with their positions. -/
def scan (formula : String) : List Found :=
  (lexemesFrom 0 (piecesOrNone formula)).filterMap fun lexeme =>
    lexeme.token.mention?.map (⟨·, lexeme.start, lexeme.stop⟩)

def isWithin (directory : Directory) (r : BoundReference) : Bool :=
  match directory.bounds? r.sheet with
  | some bounds => r.row ≤ bounds.rows && r.col ≤ bounds.cols
  | none => false

/-- The cells that a reference or range names in a formula on the sheet `home`, if they exist. -/
def Mention.cells? (home : Nat) (directory : Directory) : Mention → Option (List CellId)
  | cell r => do
    let bound ← r.bind? home directory
    if isWithin directory bound then some [bound.cell] else none
  | range r => do
    let bound ← r.bind? home directory
    if isWithin directory bound.start && isWithin directory bound.stop then some bound.cells
    else none

/-- The cells that a formula on the sheet `home` reads.  The first reference that names no cells of
a sheet is the error. -/
def reads (home : Nat) (directory : Directory) (formula : String) : Except String CellSet :=
  (mentions formula).foldlM (fun cells (mention, text) =>
    match mention.cells? home directory with
    | some more => .ok (cells.insertMany more)
    | none => .error (String.ofList text)) ∅

def Piece.replaced (replace : Mention → Option String) (p : Piece) : List Char :=
  match p.mention? with
  | none => p.chars
  | some (mention, text) =>
    match replace mention with
    | some new => new.toList
    | none => text

/-- Replaces references and ranges in a formula; those for which `replace` gives nothing stay as
they are written. -/
def replaceMentions (replace : Mention → Option String) (formula : String) : String :=
  match pieces formula with
  | .ok ps => String.ofList (ps.flatMap (Piece.replaced replace))
  | .error _ => formula

end Spreadsheet.Formula
