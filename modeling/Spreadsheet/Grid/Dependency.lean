import Spreadsheet.Formula.Mention
import Spreadsheet.Grid.Basic

/-!
# Dependencies

An edge from one cell to another says that the formula of the second reads the first.  Each edge is
kept at both of its ends.  `store` is the one way to write a formula: it takes the cell out of the
readers of what it read before, and enters it with the readers of what it reads now.  Then the cell
and everything that depends on it are out of date.
-/

namespace Spreadsheet

/-- Takes a reader from a stored cell. -/
def dropReader (reader : CellId) (cells : CellMap Cell) (source : CellId) : CellMap Cell :=
  match cells[source]? with
  | none => cells
  | some c => cells.insert source { c with readers := c.readers.erase reader }

/-- Gives a reader to a cell, which is stored blank if it was not stored. -/
def addReader (reader : CellId) (cells : CellMap Cell) (source : CellId) : CellMap Cell :=
  let c := cells.getD source .blank
  cells.insert source { c with readers := c.readers.insert reader }

theorem nodup_toList {α : Type} (cells : CellMap α) : cells.toList.Nodup := by
  refine (Std.ExtTreeMap.distinct_keys_toList (t := cells)).imp ?_
  rintro a _ distinct rfl
  exact distinct Std.ReflCmp.compare_self

/-- How often cells can still be put on the stack of a marking or be taken as seen. -/
def weight (unseen : CellMap Cell) : Nat :=
  (unseen.toList.map fun (_, c) => c.readers.size + 1).foldr (· + ·) 0

theorem weight_erase {unseen : CellMap Cell} {id : CellId} {c : Cell}
    (found : unseen[id]? = some c) :
    weight (unseen.erase id) + (c.readers.size + 1) = weight unseen := by
  have perm : ((id, c) :: (unseen.erase id).toList).Perm unseen.toList := by
    refine (List.perm_ext_iff_of_nodup ?_ (nodup_toList _)).mpr ?_
    · refine List.nodup_cons.mpr ⟨?_, nodup_toList _⟩
      rw [Std.ExtTreeMap.mem_toList_iff_getElem?_eq_some, Std.ExtTreeMap.getElem?_erase_self]
      exact nofun
    · rintro ⟨other, d⟩
      rw [List.mem_cons, Std.ExtTreeMap.mem_toList_iff_getElem?_eq_some,
        Std.ExtTreeMap.mem_toList_iff_getElem?_eq_some, Std.ExtTreeMap.getElem?_erase]
      by_cases same : id = other
      · subst same
        simp [found, eq_comm]
      · simp [same, Ne.symm same, Std.LawfulEqCmp.compare_eq_iff_eq]
  have sums := (perm.map fun (_, c) => c.readers.size + 1).sum_nat
  rw [List.map_cons, List.sum_cons] at sums
  exact (Nat.add_comm _ _).trans sums

/-- Adds to `dirty` the cells of the stack and all cells that depend on them.  Cells leave `unseen`
when they are added. -/
def spread (unseen : CellMap Cell) (stack : List CellId) (dirty : CellSet) : CellSet :=
  match stack with
  | [] => dirty
  | id :: stack =>
    match _found : unseen[id]? with
    | none => spread unseen stack (dirty.insert id)
    | some c => spread (unseen.erase id) (c.readers.toList ++ stack) (dirty.insert id)
termination_by weight unseen + stack.length
decreasing_by
  · simp
  · have lighter := weight_erase _found
    simp only [List.length_append, Std.ExtTreeSet.length_toList, List.length_cons]
    omega

namespace Grid

/-- Marks a cell and everything that depends on it as out of date. -/
def markDirty (g : Grid) (id : CellId) : Grid := { g with dirty := spread g.cells [id] g.dirty }

/-- The cell with the edges of its formula, as it is stored on a sheet.  A formula that refers to
something outside the sheets becomes a text that says so.  A formula that fills other cells has no
edges, because it is run only once. -/
def resolved (g : Grid) (sheet : Nat) (c : Cell) : Cell :=
  if c.isFilling then { c with precedents := ∅ }
  else
    match Formula.reads sheet g.directory c.formula with
    | .ok precedents => { c with precedents }
    | .error token => { Cell.ofFormula (Text.quote ("#REF: " ++ token)) with precedents := ∅ }

/-- Writes a cell and its edges.  Whoever read the cell before goes on reading it. -/
def store (g : Grid) (id : CellId) (c : Cell) : Grid :=
  let new := g.resolved id.sheet c
  let previous := g.cell id
  let unlinked := previous.precedents.foldl (dropReader id) g.cells
  let written := unlinked.insert id { new with readers := previous.readers }
  let cells := new.precedents.foldl (addReader id) written
  { g with cells }.markDirty id

/-- Runs a formula that fills the cells beside it: its cell gets the status, and every cell that it
fills gets a literal.  The filled cells are listed in order. -/
def fill (g : Grid) (id : CellId) (formula : String) (draws : Formula.Draws := .zero) :
    Grid × List CellId :=
  let status := (Formula.evaluate (g.view draws) id formula).toText
  let outputs := (Formula.outputs (g.view draws) id formula).filter (·.cell != id)
  let filled := outputs.foldl (fun g o => g.store o.cell (.ofFormula o.value.literal))
    (g.store id (.filling formula status))
  (filled, outputs.map (·.cell))

end Grid

end Spreadsheet
