import Spreadsheet.Grid.Dependency

/-!
# Recomputation

A pass brings the cells up to date that are marked dirty.  It always takes the first cell, in the
order of cells, none of whose precedents is still to be computed by the pass; precedents that are
not dirty do not hold a cell up.  When no cell can be taken any more, those that are left lie on a
cycle or behind one, and their values say so.

A pass can be cancelled before each cell.  Then the cells that are left stay dirty.
-/

namespace Spreadsheet

/-- How far a pass has come. -/
structure Progress where
  done : Nat
  total : Nat
deriving DecidableEq, Repr

def Progress.fraction (p : Progress) : Float := Number.ofNat p.done / Number.ofNat p.total

/-- What accompanies a pass. -/
structure Hooks where
  /-- Is the pass to be cancelled when this many cells are done? -/
  cancel : Nat → Bool := fun _ => false
  /-- Is anyone told how far a long pass has come? -/
  progress : Bool := false
  /-- The draws of the pass, of each formula that is run after it, and of the pass after those. -/
  draws : Nat → Formula.Draws := fun _ => .zero

/-- What a pass has done. -/
structure Report where
  /-- The number of cells that are no longer dirty. -/
  recomputed : Nat := 0
  /-- The cells whose values differ from before, in the order in which they were computed. -/
  changed : Array CellId := #[]
  /-- The cells on cycles or behind them in order, if there are any. -/
  cycle : Option (List CellId) := none
  cancelled : Bool := false
  progress : Array Progress := #[]

namespace Report

def followedBy (first second : Report) : Report :=
  { recomputed := first.recomputed + second.recomputed
    changed := first.changed ++ second.changed
    cycle := first.cycle.or second.cycle
    cancelled := first.cancelled || second.cancelled
    progress := first.progress }

def cycleMessage (cells : List CellId) : String :=
  let listed := ", ".intercalate ((cells.take 5).map CellId.text)
  if cells.length ≤ 5 then "Circular reference: " ++ listed
  else "Circular reference involving " ++ toString cells.length ++ " cells: " ++ listed ++ ", ..."

def line (r : Report) (milliseconds : Nat) : String :=
  let time := toString milliseconds
  "[recalc/dirty] " ++ String.ofList (List.replicate (4 - time.length) ' ') ++ time ++ "ms  " ++
    toString r.recomputed ++ " cells  changed=" ++ toString r.changed.size ++ "  cycles=" ++
    toString (r.cycle.getD []).length ++ (if r.cancelled then "  cancelled" else "")

end Report

def circularValue (formula : String) : CellValue := .text ("Circular reference: " ++ formula)

namespace Grid

def computed? (g : Grid) (id : CellId) (draws : Formula.Draws := .zero) : Option CellValue :=
  match g.cells[id]? with
  | none => some (.text "")
  | some c =>
    if c.isFilling then none else some (Formula.evaluate (g.view draws) id c.formula).toValue

/-- Stores a value and says whether the cell has changed. -/
def setValue (g : Grid) (id : CellId) (value : CellValue) : Grid × Bool :=
  let c := g.cell id
  if c.value.same value then ({ g with cells := g.cells.insertIfNew id .blank }, false)
  else ({ g with cells := g.cells.insert id { c with value } }, true)

end Grid

/-- The state of a pass. -/
structure Pass where
  grid : Grid
  /-- For each cell of the pass, the precedents that are still to be computed. -/
  blockers : CellMap CellSet
  /-- The cells that can be computed and are not computed yet. -/
  ready : CellSet
  report : Report

namespace Pass

def dirtyPrecedents (g : Grid) (id : CellId) : CellSet :=
  (g.cell id).precedents.filter g.dirty.contains

def start (g : Grid) : Pass where
  grid := g
  blockers := g.dirty.foldl (fun blockers id => blockers.insert id (dirtyPrecedents g id)) ∅
  ready := g.dirty.filter fun id => (dirtyPrecedents g id).isEmpty
  report := {}

def release (id : CellId) (p : Pass) (reader : CellId) : Pass :=
  match p.blockers[reader]? with
  | none => p
  | some blockers =>
    if blockers.contains id then
      let left := blockers.erase id
      { p with
        blockers := p.blockers.insert reader left
        ready := if left.isEmpty then p.ready.insert reader else p.ready }
    else p

/-- Is the progress to be reported when `done` of `total` cells are computed? -/
def isReported (options : Options) (total done : Nat) : Bool :=
  options.progressMinCells < total &&
    (done % max options.progressEvery 1 == 0 || done == total)

/-- Stores the value of a cell and notes in the report whether it has changed. -/
def setValue (p : Pass) (id : CellId) (value : CellValue) : Pass :=
  let (grid, changed) := p.grid.setValue id value
  { p with
    grid
    report := { p.report with
      changed := if changed then p.report.changed.push id else p.report.changed } }

def take (hooks : Hooks) (total : Nat) (p : Pass) (id : CellId) : Pass :=
  let p := match p.grid.computed? id (hooks.draws 0) with
    | some value => p.setValue id value
    | none => p
  let done := p.report.recomputed + 1
  let report := { p.report with
    recomputed := done
    progress := if hooks.progress && isReported p.grid.options total done then
      p.report.progress.push ⟨done, total⟩ else p.report.progress }
  { p with
    grid := { p.grid with dirty := p.grid.dirty.erase id }
    ready := p.ready.erase id
    report }

def compute (hooks : Hooks) (total : Nat) (p : Pass) (id : CellId) : Pass :=
  let p := p.take hooks total id
  (p.grid.cell id).readers.foldl (release id) p

/-- Computes up to `n` cells, as long as there are any that are ready. -/
def run (hooks : Hooks) (total : Nat) : Nat → Pass → Pass
  | 0, p => p
  | n + 1, p =>
    match p.ready.toList.head? with
    | none => p
    | some id =>
      if hooks.cancel p.report.recomputed then
        { p with report := { p.report with cancelled := true } }
      else run hooks total n (p.compute hooks total id)

def giveUp (p : Pass) (id : CellId) : Pass := p.setValue id (circularValue (p.grid.formula id))

def settle (p : Pass) : Pass :=
  if p.report.cancelled || p.grid.dirty.isEmpty then p
  else
    let stuck := p.grid.dirty.toList
    let p := stuck.foldl giveUp p
    { p with
      grid := { p.grid with dirty := ∅ }
      report := { p.report with
        recomputed := p.report.recomputed + stuck.length
        cycle := some stuck } }

end Pass

/-- Brings the dirty cells up to date. -/
def Grid.recompute (g : Grid) (hooks : Hooks) : Grid × Report :=
  let total := g.dirty.size
  let p := (Pass.run hooks total total (Pass.start g)).settle
  (p.grid, p.report)

end Spreadsheet
