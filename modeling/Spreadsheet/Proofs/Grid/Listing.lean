import Spreadsheet.Proofs.Grid.Refinement

/-!
# Grids whose cells are listed

Only the stored cells of a grid have formulas, so what is to hold of all formulas can be checked by
going through them.

* `Grid.forall_mentions` and `Grid.forall_reads`: what holds of all references, and of all that is read.
* `Grid.not_onCycle_of_rank`: formulas that read only cells of lower rank are on no cycle.
-/

namespace Spreadsheet.Grid

open Formula

variable {g : Grid}

theorem forall_mentions {P : CellId → Mention → Bool}
    (stored : (g.cells.toList.all fun p => (mentions p.2.formula).all fun m => P p.1 m.1) = true)
    (y : CellId) : ∀ m ∈ mentions (g.formula y), P y m.1 = true := by
  refine List.all_eq_true.mp
    (forall_cells (P := fun y c => (mentions c.formula).all fun m => P y m.1) ?_ stored y)
  intro x
  rw [show Cell.blank.formula = "" from rfl, mentions_empty]
  rfl

theorem forall_reads {P : CellId → CellId → Bool}
    (stored : ∀ y, ∀ m ∈ mentions (g.formula y), ((m.1.sheet? y.sheet g.directory).all fun sheet =>
      (m.1.cellsOn sheet).all fun x => P x y) = true) (x y : CellId) (reads : g.FormulaReads x y) :
    P x y = true := by
  obtain ⟨-, m, hm, sheet, found, hx⟩ := reads
  have all := stored y m hm
  rw [found] at all
  exact List.all_eq_true.mp all x hx

theorem not_onCycle_of_rank (rank : CellId → Nat) (lower : ∀ x y, g.FormulaReads x y → rank x < rank y)
    (x : CellId) : ¬ OnCycle g.FormulaReads x := by
  intro cycle
  have path : ∀ y, Relation.TransGen g.FormulaReads x y → rank x < rank y := by
    intro y path
    induction path with
    | single edge => exact lower _ _ edge
    | tail _ edge ih => exact Nat.lt_trans ih (lower _ _ edge)
  exact Nat.lt_irrefl _ (path x cycle)

end Spreadsheet.Grid
