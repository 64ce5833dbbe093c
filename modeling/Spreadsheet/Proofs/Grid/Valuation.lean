import Spreadsheet.Grid.Recomputation
import Spreadsheet.Proofs.Formula.Reading
import Spreadsheet.Proofs.Grid.Wiring
import Spreadsheet.Proofs.Value.Same

/-!
# Values in a grid

A pass writes values and leaves formulas and edges alone.

* `Grid.Alike g g'`: the grids have the same sheets, formulas and edges.
* `Grid.cells_setValue`: what storing a value does to each cell.
* `Grid.refresh g id`: the grid after a pass has computed the cell `id`.
* `Grid.evaluate_of_alike`: a formula has the same term in two grids that are alike and have the same
  values where the formula reads.
-/

namespace Spreadsheet

namespace Grid

/-- The second grid differs from the first at most in its values and in what is dirty. -/
structure Alike (g g' : Grid) : Prop where
  sheets : g'.sheets = g.sheets
  options : g'.options = g.options
  waiting : g'.waiting = g.waiting
  formula : ∀ x, g'.formula x = g.formula x
  precedents : ∀ x, (g'.cell x).precedents = (g.cell x).precedents
  readers : ∀ x, (g'.cell x).readers = (g.cell x).readers
  filling : ∀ x, (g'.cell x).isFilling = (g.cell x).isFilling

variable {g g' g'' : Grid}

theorem Alike.refl (g : Grid) : g.Alike g := ⟨rfl, rfl, rfl, fun _ => rfl, fun _ => rfl,
  fun _ => rfl, fun _ => rfl⟩

theorem Alike.trans (h : g.Alike g') (h' : g'.Alike g'') : g.Alike g'' where
  sheets := h'.sheets.trans h.sheets
  options := h'.options.trans h.options
  waiting := h'.waiting.trans h.waiting
  formula x := (h'.formula x).trans (h.formula x)
  precedents x := (h'.precedents x).trans (h.precedents x)
  readers x := (h'.readers x).trans (h.readers x)
  filling x := (h'.filling x).trans (h.filling x)

theorem Alike.dirty (h : g.Alike g') (dirty : CellSet) : g.Alike { g' with dirty } :=
  ⟨h.sheets, h.options, h.waiting, h.formula, h.precedents, h.readers, h.filling⟩

theorem Alike.directory (h : g.Alike g') : g'.directory = g.directory := by
  rw [Grid.directory, Grid.directory, h.sheets]

theorem Alike.wired (h : g.Alike g') (wired : g.Wired) : g'.Wired :=
  wired.of_same h.precedents h.readers fun x hx => (h.filling x).symm.trans hx

/-! ### Formulas in alike grids -/

theorem view_term (g : Grid) (draws : Formula.Draws) (x : CellId) :
    (g.view draws).term x = .ofValue (g.value x) := by
  rw [value, cell, Std.ExtTreeMap.getD_eq_getD_getElem?]
  simp only [view]
  cases g.cells[x]? <;> rfl

/-- A formula has the same term in two grids that are alike, if they have the same values where it
reads. -/
theorem evaluate_of_alike (h : g.Alike g') (y : CellId) (draws : Formula.Draws)
    (values : ∀ x, Formula.Reads y.sheet g.directory (g.formula y) x → g'.value x = g.value x) :
    Formula.evaluate (g'.view draws) y (g.formula y) =
      Formula.evaluate (g.view draws) y (g.formula y) := by
  refine Formula.evaluate_congr (fun _ => rfl) ?_ ?_
  · intro m _
    show m.1.sheet? y.sheet g'.directory = m.1.sheet? y.sheet g.directory
    rw [h.directory]
  · intro x hx
    rw [view_term, view_term, values x hx]

theorem parse_empty : Formula.parse "" = .ok .empty := by
  simp [Formula.parse, Formula.tokens, Formula.pieces, Formula.piecesFrom, bind, Except.bind,
    pure, Except.pure, Formula.Expr.ofTokens]

theorem evaluate_empty (view : Formula.CellView) (origin : CellId) :
    Formula.evaluate view origin "" = .text "" := by
  rw [Formula.evaluate, parse_empty]
  simp [Formula.Expr.eval]

/-! ### Storing a value -/

section

variable (g : Grid) (id : CellId) (v : CellValue)

theorem cells_setValue (x : CellId) :
    (g.setValue id v).1.cells[x]? =
      if x = id then some { g.cell id with value := (g.value id).keep v } else g.cells[x]? := by
  cases same : (g.value id).same v with
  | true =>
    have kept : { g.cell id with value := (g.value id).keep v } = g.cell id := by
      rw [CellValue.keep, if_pos same]
      rfl
    rw [value] at same
    rw [setValue, if_pos same, Std.ExtTreeMap.getElem?_insertIfNew, kept, cell,
      Std.ExtTreeMap.getD_eq_getD_getElem?]
    simp only [Std.ExtTreeMap.mem_iff_isSome_getElem?, Std.LawfulEqCmp.compare_eq_iff_eq]
    by_cases here : x = id
    · subst here
      cases g.cells[x]? <;> simp
    · simp [here, Ne.symm here]
  | false =>
    have kept : (g.value id).keep v = v := by
      rw [CellValue.keep, same]
      rfl
    rw [value] at same
    rw [setValue, if_neg (by simp [same]), Std.ExtTreeMap.getElem?_insert, kept]
    simp only [Std.LawfulEqCmp.compare_eq_iff_eq, eq_comm (a := id)]

theorem cell_setValue (x : CellId) :
    (g.setValue id v).1.cell x =
      if x = id then { g.cell id with value := (g.value id).keep v } else g.cell x := by
  rw [cell, Std.ExtTreeMap.getD_eq_getD_getElem?, cells_setValue]
  split
  · rfl
  · rw [cell, Std.ExtTreeMap.getD_eq_getD_getElem?]

theorem value_setValue (x : CellId) :
    (g.setValue id v).1.value x = if x = id then (g.value id).keep v else g.value x := by
  rw [value, cell_setValue]
  split <;> rfl

theorem formula_setValue (x : CellId) : (g.setValue id v).1.formula x = g.formula x := by
  rw [formula, formula, cell_setValue]
  split
  · subst x
    rfl
  · rfl

theorem snd_setValue : (g.setValue id v).2 = !(g.value id).same v := by
  rw [setValue]
  simp only [value]
  cases (g.cell id).value.same v <;> rfl

theorem setValue_dirty : (g.setValue id v).1.dirty = g.dirty := by
  rw [setValue]
  split <;> rfl

/-- Storing a value changes no formula and no edge, if the value says nothing about filling. -/
theorem alike_setValue (filling : (g.cell id).isFilling = false)
    (status : ∀ s, v ≠ .status s) : g.Alike (g.setValue id v).1 := by
  have fields : (g.setValue id v).1.sheets = g.sheets ∧ (g.setValue id v).1.options = g.options ∧
      (g.setValue id v).1.waiting = g.waiting := by
    rw [setValue]
    split <;> exact ⟨rfl, rfl, rfl⟩
  refine ⟨fields.1, fields.2.1, fields.2.2, formula_setValue g id v, ?_, ?_, ?_⟩
  · intro x
    rw [cell_setValue]
    split
    · subst x
      rfl
    · rfl
  · intro x
    rw [cell_setValue]
    split
    · subst x
      rfl
    · rfl
  · intro x
    rw [cell_setValue]
    split
    · subst x
      rw [filling]
      simp only [Cell.isFilling, CellValue.keep]
      split
      · rename_i s kept
        split at kept
        · simp only [Cell.isFilling] at filling
          rw [value] at kept
          simp [kept] at filling
        · exact absurd kept (status s)
      · rfl
    · rfl

end

/-! ### Computing a cell -/

theorem toValue_ne_status (t : Term) (s : String) : t.toValue ≠ .status s := by
  cases t <;> exact nofun

/-- The value that the formula of a cell has in a grid. -/
def formulaValue (g : Grid) (id : CellId) (draws : Formula.Draws := .zero) : CellValue :=
  (Formula.evaluate (g.view draws) id (g.formula id)).toValue

/-- The numbers that are drawn for the formulas of the grid that call `RAND` are the same. -/
def DrawsAgree (g : Grid) (draws draws' : Formula.Draws) : Prop :=
  ∀ id, Formula.CallsRandom (g.formula id) → draws id = draws' id

theorem DrawsAgree.of_alike {g g' : Grid} {draws draws' : Formula.Draws}
    (h : g.DrawsAgree draws draws') (alike : g.Alike g') : g'.DrawsAgree draws draws' :=
  fun id random => h id (alike.formula id ▸ random)

theorem formulaValue_congr_draws {g : Grid} {id : CellId} {draws draws' : Formula.Draws}
    (agree : Formula.CallsRandom (g.formula id) → draws id = draws' id) :
    g.formulaValue id draws = g.formulaValue id draws' :=
  congrArg Term.toValue (Formula.evaluate_congr agree (fun _ _ => rfl) fun _ _ => rfl)

theorem formulaValue_of_not_callsRandom {g : Grid} {id : CellId}
    (steady : ¬ Formula.CallsRandom (g.formula id)) (draws draws' : Formula.Draws) :
    g.formulaValue id draws = g.formulaValue id draws' :=
  formulaValue_congr_draws fun random => absurd random steady

/-- The grid after a pass has computed a cell. -/
def refresh (g : Grid) (id : CellId) (draws : Formula.Draws) : Grid :=
  match g.computed? id draws with
  | some value => (g.setValue id value).1
  | none => g

theorem computed?_eq (g : Grid) (id : CellId) (draws : Formula.Draws) :
    g.computed? id draws =
      if (g.cell id).isFilling then none else some (g.formulaValue id draws) := by
  rw [computed?, formulaValue, formula, cell, Std.ExtTreeMap.getD_eq_getD_getElem?]
  cases g.cells[id]? with
  | none =>
    show some (CellValue.text "") = some (Formula.evaluate (g.view draws) id "").toValue
    rw [evaluate_empty]
    rfl
  | some c => rfl

theorem refresh_of_filling {id : CellId} (h : (g.cell id).isFilling = true)
    (draws : Formula.Draws) : g.refresh id draws = g := by
  rw [refresh, computed?_eq, if_pos h]

theorem refresh_of_not_filling {id : CellId} (h : (g.cell id).isFilling = false)
    (draws : Formula.Draws) :
    g.refresh id draws = (g.setValue id (g.formulaValue id draws)).1 := by
  rw [refresh, computed?_eq, if_neg (by simp [h])]

theorem refresh_congr_draws {g : Grid} {id : CellId} {draws draws' : Formula.Draws}
    (agree : Formula.CallsRandom (g.formula id) → draws id = draws' id) :
    g.refresh id draws = g.refresh id draws' := by
  rw [refresh, refresh, computed?_eq, computed?_eq, formulaValue_congr_draws agree]

theorem alike_refresh (g : Grid) (id : CellId) (draws : Formula.Draws) :
    g.Alike (g.refresh id draws) := by
  cases filling : (g.cell id).isFilling with
  | true =>
    rw [refresh_of_filling filling]
    exact Alike.refl g
  | false =>
    rw [refresh_of_not_filling filling]
    exact alike_setValue g id _ filling (toValue_ne_status _)

theorem cells_refresh_of_ne (g : Grid) {id x : CellId} (draws : Formula.Draws) (h : x ≠ id) :
    (g.refresh id draws).cells[x]? = g.cells[x]? := by
  cases filling : (g.cell id).isFilling with
  | true => rw [refresh_of_filling filling]
  | false => rw [refresh_of_not_filling filling, cells_setValue, if_neg h]

theorem value_eq_of_cells {g g' : Grid} {x : CellId} (h : g'.cells[x]? = g.cells[x]?) :
    g'.value x = g.value x := by
  rw [value, value, cell, cell, Std.ExtTreeMap.getD_eq_getD_getElem?,
    Std.ExtTreeMap.getD_eq_getD_getElem?, h]

theorem value_refresh_self (g : Grid) (id : CellId) (draws : Formula.Draws) :
    (g.refresh id draws).value id =
      if (g.cell id).isFilling then g.value id
      else (g.value id).keep (g.formulaValue id draws) := by
  cases filling : (g.cell id).isFilling with
  | true => rw [refresh_of_filling filling, if_pos rfl]
  | false => rw [refresh_of_not_filling filling, value_setValue, if_pos rfl, if_neg (by simp)]

theorem same_self_of_filling {id : CellId} (h : (g.cell id).isFilling = true) :
    (g.value id).same (g.value id) = true := by
  rw [Cell.isFilling] at h
  rw [value]
  split at h
  · rename_i s found
    rw [found, CellValue.same, beq_self_eq_true]
  · cases h

end Grid

end Spreadsheet
