import Mathlib.Data.Set.Function
import Spreadsheet.Proofs.Grid.Currency

/-!
# Grids whose cells have moved

A grid comes from another one by moving cells and rewriting their formulas, so that each formula reads
the cells to which those have moved that it read before.  Then a pass gives each cell the value that
it had, unless the value was not exactly that of its formula.

* `Grid.Carries move D g h`: in the grid `h`, the cells of `D` have moved.
* `Grid.Carries.not_behindCycle`: they do not come to depend on a cycle.
* `Grid.Carries.preserves_iff`: when their values are preserved.
* `Grid.Transports move D g h`: no other cell reads anything, so there are no new cycles at all.
-/

namespace Spreadsheet

theorem CellValue.keep_pending (formula : String) {v : CellValue} (h : ∀ s, v ≠ .pending s) :
    (CellValue.pending formula).keep v = v := by
  cases v with
  | pending s => exact absurd rfl (h s)
  | _ => rfl

theorem CellValue.keep_of_agrees {v w : CellValue} (h : v.agrees w) : v.keep w = v := by
  rw [keep]
  split
  · rfl
  · rename_i differ
    rcases h with rfl | same
    · rfl
    · exact absurd same differ

namespace Grid

theorem formulaValue_ne_pending (g : Grid) (id : CellId) (draws : Formula.Draws) (s : String) :
    g.formulaValue id draws ≠ .pending s := by
  rw [formulaValue]
  cases Formula.evaluate (g.view draws) id (g.formula id) <;> intro same <;> cases same

/-- In the second grid, the cells of `D` of the first have moved: their formulas read the cells to which
those have moved that they read before, and have the same values where these are preserved. -/
structure Carries (move : CellId → CellId) (D : Set CellId) (g h : Grid) : Prop where
  injective : Set.InjOn move D
  closed : ∀ x y, g.Edge x y → y ∈ D → x ∈ D
  edge : ∀ y ∈ D, ∀ x', h.Edge x' (move y) ↔ ∃ x, g.Edge x y ∧ x' = move x
  filling : ∀ y ∈ D, (h.cell (move y)).isFilling = false
  value : ∀ y ∈ D, ∀ g' draws, h.Alike g' →
    (∀ x, g.Edge x y → g'.value (move x) = g.value x) →
      g'.formulaValue (move y) draws = g.formulaValue y

/-- In the second grid, the cells of `D` of the first have moved, and all other cells read nothing. -/
structure Transports (move : CellId → CellId) (D : Set CellId) (g h : Grid) : Prop
    extends Carries move D g h where
  onto : ∀ x' y', h.Edge x' y' → ∃ y ∈ D, y' = move y

namespace Carries

open Relation

variable {move : CellId → CellId} {D : Set CellId} {g h : Grid} (t : Carries move D g h)

include t

theorem exists_path {x' y : CellId} (path : TransGen h.Edge x' (move y)) (hy : y ∈ D) :
    ∃ x ∈ D, x' = move x ∧ TransGen g.Edge x y := by
  induction path using TransGen.head_induction_on with
  | single edge =>
    obtain ⟨x, before, rfl⟩ := (t.edge y hy _).mp edge
    exact ⟨x, t.closed x y before hy, rfl, .single before⟩
  | head edge _ ih =>
    obtain ⟨x, hx, rfl, path⟩ := ih
    obtain ⟨w, before, rfl⟩ := (t.edge x hx _).mp edge
    exact ⟨w, t.closed w x before hx, rfl, .head before path⟩

theorem not_onCycle (free : ∀ x ∈ D, ¬ OnCycle g.Edge x) {y : CellId} (hy : y ∈ D) :
    ¬ OnCycle h.Edge (move y) := by
  intro cycle
  obtain ⟨x, hx, same, path⟩ := t.exists_path cycle hy
  cases t.injective hy hx same
  exact free y hy path

theorem not_behindCycle (free : ∀ x ∈ D, ¬ OnCycle g.Edge x) {y : CellId} (hy : y ∈ D) :
    ¬ BehindCycle h.Edge (move y) := by
  rintro ⟨z', cycle, path⟩
  rcases Relation.reflTransGen_iff_eq_or_transGen.mp path with same | path
  · rw [← same] at cycle
    exact t.not_onCycle free hy cycle
  · obtain ⟨z, hz, rfl, -⟩ := t.exists_path path hy
    exact t.not_onCycle free hz cycle

theorem mem_of_path {x y : CellId} (path : ReflTransGen g.Edge x y) (hy : y ∈ D) : x ∈ D := by
  induction path using ReflTransGen.head_induction_on with
  | refl => exact hy
  | head edge _ ih => exact t.closed _ _ edge ih

variable {W : Set CellId} {draws : Formula.Draws} {order : List CellId} {p : Pass}

/-- **When the values of the cells that have moved are preserved.**  A cell that has not been written
keeps its value if it is the same to a reader as that of its formula.  A cell that has been written
gets the value of its formula, so all values are preserved just if its old value was exactly this
one. -/
theorem preserves_iff (free : ∀ x ∈ D, ¬ OnCycle g.Edge x) (covered : h.Covered)
    (settled : Pass.Settled draws h order p)
    (agrees : ∀ y ∈ D, y ∉ W → (g.value y).agrees (g.formulaValue y))
    (kept : ∀ y ∈ D, y ∉ W → h.value (move y) = g.value y)
    (written : ∀ y ∈ D, y ∈ W → move y ∈ h.dirty ∧ ∃ s, h.value (move y) = .pending s) :
    (∀ y ∈ D, p.grid.value (move y) = g.value y) ↔
      ∀ y ∈ D, y ∈ W → g.value y = g.formulaValue y := by
  have computed : ∀ y ∈ D, move y ∈ h.dirty →
      p.grid.value (move y) = (h.value (move y)).keep (p.grid.formulaValue (move y) draws) := by
    intro y hy dirty
    have mem : move y ∈ order := (settled.mem _).mpr
      ⟨dirty, fun stuck => t.not_behindCycle free hy (behindCycle_of_stuck stuck)⟩
    exact settled.value covered _ mem (t.filling y hy)
  have renewed : ∀ y ∈ D, y ∈ W →
      p.grid.value (move y) = p.grid.formulaValue (move y) draws := by
    intro y hy hW
    obtain ⟨dirty, s, pending⟩ := written y hy hW
    rw [computed y hy dirty, pending, CellValue.keep_pending s (formulaValue_ne_pending _ _ _)]
  constructor
  · intro all y hy hW
    rw [← t.value y hy p.grid draws settled.alike fun x edge => all x (t.closed x y edge hy),
      ← renewed y hy hW, all y hy]
  · intro exact y hy
    by_contra lost
    -- A cell whose value is lost reads another such cell, so there would be a cycle.
    let S : Set CellId := {y | y ∈ D ∧ p.grid.value (move y) ≠ g.value y}
    have dirty : ∀ y ∈ S, move y ∈ h.dirty := by
      rintro y ⟨hy, lost⟩
      by_contra clean
      have old : y ∉ W := fun hW => clean (written y hy hW).1
      refine lost ?_
      rw [value_eq_of_cells (settled.outside _ clean), kept y hy old]
    have fin : S.Finite := by
      refine Set.Finite.of_finite_image ?_ (t.injective.mono fun y hy => hy.1)
      refine (List.finite_toSet h.dirty.toList).subset ?_
      rintro _ ⟨y, hy, rfl⟩
      exact Std.ExtTreeSet.mem_toList.mpr (dirty y hy)
    have supported : Supported g.Edge S := by
      rintro y ⟨hy, lost⟩
      by_contra none
      have reads : ∀ x, g.Edge x y → p.grid.value (move x) = g.value x := by
        intro x edge
        by_contra lost
        exact none ⟨x, ⟨t.closed x y edge hy, lost⟩, edge⟩
      have carried := t.value y hy p.grid draws settled.alike reads
      refine lost ?_
      by_cases hW : y ∈ W
      · rw [renewed y hy hW, carried, exact y hy hW]
      · rw [computed y hy (dirty y ⟨hy, lost⟩), carried, kept y hy hW,
          CellValue.keep_of_agrees (agrees y hy hW)]
    obtain ⟨z, cycle, path⟩ := behindCycle_of_supported fin supported ⟨hy, lost⟩
    exact free z (t.mem_of_path path hy) cycle

end Carries

namespace Transports

open Relation

variable {move : CellId → CellId} {D : Set CellId} {g h : Grid} (t : Transports move D g h)

include t

/-- **There are no new cycles.** -/
theorem acyclic (free : ∀ x, ¬ OnCycle g.Edge x) (x' : CellId) : ¬ BehindCycle h.Edge x' := by
  rintro ⟨y', cycle, -⟩
  have last : ∃ x', h.Edge x' y' := by
    obtain ⟨x', -, edge⟩ := TransGen.tail'_iff.mp cycle
    exact ⟨x', edge⟩
  obtain ⟨x', edge⟩ := last
  obtain ⟨y, hy, rfl⟩ := t.onto x' y' edge
  exact t.not_onCycle (fun x _ => free x) hy cycle

end Transports

end Grid

end Spreadsheet
