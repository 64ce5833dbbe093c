import Spreadsheet.Proofs.Formula.Reproduction
import Spreadsheet.Proofs.Grid.Waiting

/-!
# Literals in a grid

Values are copied, and filled in beside a formula, by writing their literals.  Such a cell waits for
no other, so the next pass computes it, and gives it what its literal says whatever the rest of the
grid holds.

* `Grid.value_recompute_of_constant`: a cell that waits for nothing and whose formula has one value
  everywhere has this value after a pass.
* `Grid.HasLiteral g x v`: a literal has been written into the cell `x` and is still to be computed.
* `Grid.HasLiteral.storeAll` and `Grid.hasLiteral_storeAll`: the last write of a cell counts.
* `Grid.literals_ofHistory`: what cells hold after values are copied and formulas have filled them.
-/

namespace Spreadsheet

/-! ### Cells that wait for nothing -/

namespace Pass

variable {hooks : Hooks} {total : Nat} {g : Grid} {order : List CellId} {p : Pass}

theorem alike_foldl_compute (hooks : Hooks) (total : Nat) (ids : List CellId) (p : Pass) :
    p.grid.Alike (ids.foldl (compute hooks total) p).grid := by
  induction ids generalizing p with
  | nil => exact Grid.Alike.refl _
  | cons id ids ih =>
    have step : p.grid.Alike (p.compute hooks total id).grid := by
      rw [compute_grid]
      exact (p.grid.alike_refresh id _).dirty _
    exact step.trans (ih _)

theorem value_foldl_compute (hooks : Hooks) (total : Nat) {ids : List CellId} (p : Pass)
    {y : CellId} (other : y ∉ ids) :
    (ids.foldl (compute hooks total) p).grid.value y = p.grid.value y := by
  induction ids generalizing p with
  | nil => rfl
  | cons id ids ih =>
    rw [List.mem_cons, not_or] at other
    rw [List.foldl_cons, ih _ other.2, value_compute_of_ne other.1]

theorem Reached.value_of_constant (h : Reached hooks total g order p) {y : CellId} (hy : y ∈ order)
    (notFilling : (g.cell y).isFilling = false) {v : CellValue}
    (constant : ∀ g' draws, g.Alike g' → g'.formulaValue y draws = v) :
    p.grid.value y = (g.value y).keep v := by
  obtain ⟨before, after, rfl⟩ := List.append_of_mem hy
  have distinct := List.nodup_append.mp h.nodup
  have unread : y ∉ before := fun mem => distinct.2.2 y mem y List.mem_cons_self rfl
  have alike := alike_foldl_compute hooks total before (start g)
  rw [h.steps, List.foldl_append, List.foldl_cons,
    value_foldl_compute hooks total _ (List.nodup_cons.mp distinct.2.1).1, value_compute_self,
    alike.filling, value_foldl_compute hooks total _ unread, constant _ _ alike]
  exact if_neg (by simp [start, notFilling])

end Pass

namespace Grid

variable {g g' : Grid} {hooks : Hooks} {x id : CellId} {v : CellValue}
  {writes : List (CellId × Cell)}

/-- **A cell that waits for nothing** has the value of its formula after a pass, if the formula has
one value everywhere. -/
theorem value_recompute_of_constant (linked : g.Linked)
    (completed : (g.recompute hooks).2.cancelled = false) (dirty : x ∈ g.dirty)
    (free : (g.cell x).precedents = ∅) (notFilling : (g.cell x).isFilling = false)
    (constant : ∀ g' draws, g.Alike g' → g'.formulaValue x draws = v) :
    (g.recompute hooks).1.value x = (g.value x).keep v := by
  obtain ⟨order, p, reached, idle, ends⟩ := exists_reached completed linked.forth
  have computed : x ∉ p.grid.dirty := by
    rw [reached.mem_dirty_iff_stuck idle]
    intro stuck
    obtain ⟨w, -, waits⟩ := stuck.exists_before
    rw [Edge, free] at waits
    exact Std.ExtTreeSet.not_mem_empty waits
  have mem : x ∈ order := by
    rw [reached.dirty] at computed
    tauto
  rw [ends]
  exact (reached.value_settle (reached.not_filling linked idle) computed).trans
    (reached.value_of_constant mem notFilling constant)

/-! ### Literals that are still to be computed -/

theorem resolved_literal (g : Grid) (sheet : Nat) (v : CellValue) :
    g.resolved sheet (.ofFormula v.literal) = .ofFormula v.literal := by
  have none : Formula.reads sheet g.directory v.literal = .ok ∅ := by
    rw [Formula.reads, mentions_literal]
    rfl
  have formula : (Cell.ofFormula v.literal).formula = v.literal := rfl
  rw [resolved, formula, none]
  rfl

/-- The literal of a value has been written into the cell and is still to be computed. -/
structure HasLiteral (g : Grid) (x : CellId) (v : CellValue) : Prop where
  dirty : x ∈ g.dirty
  bare : (g.cell x).bare = .ofFormula v.literal

/-- **Writing a literal.** -/
theorem hasLiteral_store (g : Grid) (x : CellId) (v : CellValue) :
    (g.store x (.ofFormula v.literal)).HasLiteral x v where
  dirty := (mem_dirty_store x _ x).mpr (Or.inr .refl)
  bare := by
    rw [bare_store, if_pos rfl, resolved_literal]
    rfl

theorem HasLiteral.storeAll (h : g.HasLiteral x v) (other : ∀ w ∈ writes, w.1 ≠ x) :
    (g.storeAll writes).HasLiteral x v where
  dirty := mem_dirty_storeAll (Or.inl h.dirty)
  bare := (bare_storeAll_of_not_mem fun _ mem => other _ mem rfl).trans h.bare

theorem hasLiteral_storeAll (g : Grid) (before : List (CellId × Cell))
    (other : ∀ w ∈ writes, w.1 ≠ x) :
    (g.storeAll (before ++ (x, .ofFormula v.literal) :: writes)).HasLiteral x v := by
  rw [storeAll_append, storeAll_cons]
  exact (hasLiteral_store _ x v).storeAll other

/-- **A pass computes the literal.** -/
theorem HasLiteral.value_recompute (h : g.HasLiteral x v) (linked : g.Linked)
    (never : ∀ done, hooks.cancel done = false) : (g.recompute hooks).1.value x = v.recovered := by
  have value : g.value x = .pending v.literal := congrArg Cell.value h.bare
  have formula : g.formula x = v.literal := congrArg Cell.formula h.bare
  have notFilling : (g.cell x).isFilling = false := by
    have same : (g.cell x).value = .pending v.literal := value
    rw [Cell.isFilling, same]
  have constant : ∀ g' draws, g.Alike g' → g'.formulaValue x draws = v.recovered := by
    intro g' draws alike
    rw [formulaValue, alike.formula, formula, Formula.evaluate_literal]
  rw [value_recompute_of_constant linked (recompute_not_cancelled linked never) h.dirty
    (congrArg Cell.precedents h.bare) notFilling constant, value,
    CellValue.keep_pending _ v.recovered_ne_pending]

/-! ### Copies of values -/

theorem wrap_add_inj {first count i j : Nat} (words : count ≤ coordinateLimit) (hi : i < count)
    (hj : j < count) (same : wrap (first + i) = wrap (first + j)) : i = j :=
  (Nat.ModEq.add_left_cancel' first same).eq_of_lt_of_lt (Nat.lt_of_lt_of_le hi words)
    (Nat.lt_of_lt_of_le hj words)

/-- No cell is written twice, even where rows and columns are no words. -/
theorem nodup_tiling {bounds : Bounds} {source destination : BoundRange}
    (rows : source.rowCount ≤ coordinateLimit ∧ destination.rowCount ≤ coordinateLimit)
    (cols : source.colCount ≤ coordinateLimit ∧ destination.colCount ≤ coordinateLimit) :
    ((tiling bounds source destination).map Prod.fst).Nodup := by
  rw [tiling]
  generalize counts : (if source.area < destination.area then
    (destination.rowCount, destination.colCount) else (source.rowCount, source.colCount)) = size
  have words : size.1 ≤ coordinateLimit ∧ size.2 ≤ coordinateLimit := by
    rw [← counts]
    split
    · exact ⟨rows.2, cols.2⟩
    · exact ⟨rows.1, cols.1⟩
  rw [List.map_flatMap, List.nodup_flatMap]
  constructor
  · intro i _
    rw [List.map_filterMap, List.Nodup, List.pairwise_filterMap]
    refine List.nodup_range.imp_of_mem fun {j j'} hj hj' apart x hx x' hx' same => apart ?_
    rw [List.mem_range] at hj hj'
    simp only [Option.map_eq_some_iff, Option.ite_none_right_eq_some, Option.some.injEq] at hx hx'
    obtain ⟨_, ⟨-, rfl⟩, rfl⟩ := hx
    obtain ⟨_, ⟨-, rfl⟩, rfl⟩ := hx'
    exact wrap_add_inj words.1 hj hj' (congrArg CellId.row same)
  · refine List.nodup_range.imp_of_mem fun {i i'} hi hi' apart x hx hx' => apart ?_
    rw [List.mem_range] at hi hi'
    simp only [List.mem_map, List.mem_filterMap, Option.ite_none_right_eq_some,
      Option.some.injEq] at hx hx'
    obtain ⟨_, ⟨j, -, -, rfl⟩, rfl⟩ := hx
    obtain ⟨_, ⟨j', -, -, rfl⟩, same⟩ := hx'
    exact (wrap_add_inj words.2 hi' hi (congrArg CellId.col same)).symm

theorem counts_lt_of_checkRange {limit : Nat} (sized : g.SizedBelow limit) {r : BoundRange}
    (ok : g.checkRange r = .ok ()) : r.rowCount < limit ∧ r.colCount < limit := by
  obtain ⟨top, left⟩ := one_le_of_checkRange ok
  obtain ⟨bottom, right⟩ := sized.of_checkRange ok
  have above := r.top_le_bottom
  have beside := r.left_le_right
  rw [Range.rowCount, Range.colCount]
  omega

/-- No cell is written twice in sheets whose rows and columns are words. -/
theorem nodup_mapping (words : g.SizedBelow coordinateLimit) {source destination : BoundRange}
    (acceptedSource : g.checkRange source = .ok ()) (accepted : g.checkRange destination = .ok ()) :
    ((g.mapping source destination).map Prod.fst).Nodup := by
  obtain ⟨rows, cols⟩ := counts_lt_of_checkRange words acceptedSource
  obtain ⟨rows', cols'⟩ := counts_lt_of_checkRange words accepted
  rw [mapping]
  split
  · exact List.nodup_nil
  · exact nodup_tiling ⟨Nat.le_of_lt rows, Nat.le_of_lt rows'⟩ ⟨Nat.le_of_lt cols, Nat.le_of_lt cols'⟩

theorem write_copyValues {source destination : BoundRange} {written : List CellId}
    {invalidate : Bool}
    (wrote : g.write (.copyValues source destination) = .ok ((g', written), invalidate)) :
    g' = g.storeAll ((g.mapping source destination).map fun pair =>
      (pair.1, .ofFormula (g.value pair.2).literal)) := by
  cases writes_of_write wrote with
  | copyValues =>
    rw [copyBlockValues, updateAll_eq, List.map_map]
    · rfl
    · intro u hu
      obtain ⟨pair, -, rfl⟩ := List.mem_map.mp hu
      rfl

/-- **A copy of values** leaves literals of the values in the cells that it writes. -/
theorem hasLiteral_copyValues (words : g.SizedBelow coordinateLimit) {source destination : BoundRange} {written : List CellId}
    {invalidate : Bool}
    (wrote : g.write (.copyValues source destination) = .ok ((g', written), invalidate))
    (mem : (x, id) ∈ g.mapping source destination) : g'.HasLiteral x (g.value id) := by
  have listed := List.mem_map_of_mem
    (f := fun pair : CellId × CellId => (pair.1, Cell.ofFormula (g.value pair.2).literal)) mem
  rw [write_copyValues wrote]
  refine ⟨mem_dirty_storeAll (Or.inr ⟨_, listed⟩), ?_⟩
  rw [bare_storeAll_of_mem listed, resolved_literal]
  · rfl
  · intro c hc
    obtain ⟨⟨target, other⟩, mem', same⟩ := List.mem_map.mp hc
    obtain ⟨rfl, rfl⟩ := Prod.mk.inj same
    have unique : ((g.mapping source destination).map Prod.fst).Nodup := by
      cases writes_of_write wrote with
      | copyValues _ _ acceptedSource accepted => exact nodup_mapping words acceptedSource accepted
    cases List.inj_on_of_nodup_map unique mem' mem rfl
    rfl

/-! ### What formulas fill in -/

/-- A cell that a formula fills holds a literal when the queue has been run, unless it is written
again. -/
theorem hasLiteral_runQueue {formula : String} {draws : Formula.Draws} {later : Nat → Formula.Draws}
    {outputs outputs' : List Output} {o : Output} {after : List (CellId × String)}
    (listed : (Formula.outputs (g.view draws) id formula).filter (·.cell != id) =
      outputs ++ o :: outputs')
    (last : ∀ o' ∈ outputs', o'.cell ≠ o.cell)
    (kept : ∀ w ∈ (g.fill id formula draws).1.queueWrites later after, w.1 ≠ o.cell) :
    ((g.fill id formula draws).1.runQueue later after).HasLiteral o.cell o.value := by
  have filled : (g.fill id formula draws).1.HasLiteral o.cell o.value := by
    rw [fill_eq, fillWrites, listed, List.map_append, List.map_cons, ← List.cons_append]
    refine hasLiteral_storeAll g _ fun w hw => ?_
    obtain ⟨o', mem, rfl⟩ := List.mem_map.mp hw
    exact last o' mem
  rw [runQueue_eq]
  exact filled.storeAll kept

/-- **Stored literals.**  The literal of a value that is written into a cell gives the value back
after a pass, unless the value is a number that is not finite.  So a copy of values between sheets whose
rows and columns are words gives each cell the value that its source has had, and a cell that a formula
fills has the value of its last output, with the same exception. -/
theorem literals_ofHistory (options : Options) (history : List Action) {hooks : Hooks}
    (never : ∀ done, hooks.cancel done = false) :
    let g := ofHistory options history
    (∀ (id : CellId) (v : CellValue),
      ((g.store id (.ofFormula v.literal)).recompute hooks).1.value id = v.recovered) ∧
    (∀ v : CellValue, (∀ f, v ≠ .pending f) →
      (v.recovered = v.plain ↔ ∀ x, v = .number x → Number.patternOf x < Number.infinite)) ∧
    (g.SizedBelow coordinateLimit → ∀ source destination g' outcome,
      g.apply hooks (.copyValues source destination) = .ok (g', outcome) →
        ∀ pair ∈ g.mapping source destination, g'.value pair.1 = (g.value pair.2).recovered) ∧
    ∀ edit g' written invalidate before id formula after,
      g.write edit = .ok ((g', written), invalidate) →
      g'.waiting = before ++ (id, formula) :: after →
        let turn := (g'.queueStart hooks).runQueue (queueDraws hooks) before
        let draws := queueDraws hooks before.length
        let later := fun turn => queueDraws hooks (turn + 1 + before.length)
        let filled := (turn.fill id formula draws).1
        turn.awaits id formula = true →
          ∀ outputs o outputs',
            (Formula.outputs (turn.view draws) id formula).filter (·.cell != id) =
              outputs ++ o :: outputs' →
            (∀ o' ∈ outputs', o'.cell ≠ o.cell) →
            (∀ w ∈ filled.queueWrites later after, w.1 ≠ o.cell) →
              (g.perform (.edit hooks edit)).value o.cell = o.value.recovered := by
  intro g
  have regular : g.Regular := regular_ofHistory options history
  refine ⟨fun id v => ?_, fun v settled => CellValue.recovered_eq_plain_iff settled, ?_, ?_⟩
  · exact (hasLiteral_store g id v).value_recompute (regular.wired.store id _).linked never
  · rintro words source destination g' outcome accepted ⟨target, id⟩ mem
    obtain ⟨⟨⟨written, _⟩, invalidate⟩, wrote, done⟩ := ok_of_bind accepted
    have idle : written.waiting = [] := by
      rw [write_copyValues wrote, (g.storeAll_fields _).2.2]
      exact waiting_ofHistory options history
    obtain ⟨_, applied, -⟩ := apply_of_write_of_idle hooks wrote idle
    cases accepted.symm.trans applied
    exact (hasLiteral_copyValues words wrote mem).value_recompute (regular.write wrote).wired.linked never
  · intro edit g' written invalidate before id formula after wrote queue turn draws later filled
      awaited outputs o outputs' listed last kept
    have start : (g'.queueStart hooks).Regular := regular_queueStart (regular.write wrote) hooks
    have ended : (filled.runQueue later after).Regular := by
      have same : filled = turn.storeAll (turn.fillWrites id formula draws) :=
        fill_eq turn id formula draws
      rw [same]
      exact ((rewrites_storeAll turn _).regular (start.runQueue _ before)).runQueue later after
    rw [perform_of_write wrote, finish_of_awaits queue awaited]
    exact (hasLiteral_runQueue listed last kept).value_recompute ended.wired.linked fun _ => rfl

/-- Two numbers whose values are copied, and the slope of a regression. -/
theorem literals_ofHistory_slope :
    let data : Action :=
      .edit {} (.batch [⟨0, 1, 1⟩, ⟨0, 2, 1⟩, ⟨0, 1, 2⟩, ⟨0, 2, 2⟩] ["1", "3", "0", "1"])
    let g := ofHistory {} [data]
    let source : BoundRange := ⟨⟨0, 1, 1, false, false⟩, ⟨0, 2, 1, false, false⟩⟩
    let destination : BoundRange := ⟨⟨0, 1, 3, false, false⟩, ⟨0, 1, 3, false, false⟩⟩
    let two := CellValue.number (Number.ofNat 2)
    ((g.store ⟨0, 1, 5⟩ (.ofFormula two.literal)).recompute {}).1.value ⟨0, 1, 5⟩ = two ∧
      (∃ g' outcome, g.apply {} (.copyValues source destination) = .ok (g', outcome) ∧
        g'.value ⟨0, 2, 3⟩ = .number (Number.ofNat 3)) ∧
      (g.perform (.edit {} (.set ⟨0, 1, 4⟩ "=OLS(A1:A2,B1:B2)"))).value ⟨0, 2, 8⟩ = two := by
  intro data g source destination two
  let formula := "OLS(A1:A2,B1:B2)"
  let edit : Edit := .set ⟨0, 1, 4⟩ "=OLS(A1:A2,B1:B2)"
  have never : ∀ done, ({} : Hooks).cancel done = false := fun _ => rfl
  obtain ⟨stored, back, copied, filled⟩ := literals_ofHistory {} [data] never
  have two_recovered : two.recovered = two := by decide +kernel
  refine ⟨(stored _ two).trans two_recovered, ?_, ?_⟩
  · obtain ⟨outcome, accepted⟩ : ∃ outcome, g.apply {} (.copyValues source destination) =
        .ok (g.perform (.edit {} (.copyValues source destination)), outcome) :=
      exists_apply_eq_perform (by decide +kernel)
    refine ⟨_, outcome, accepted, ?_⟩
    have mem : (⟨0, 2, 3⟩, ⟨0, 2, 1⟩) ∈ g.mapping source destination := by decide +kernel
    rw [copied (by decide +kernel) source destination _ outcome accepted _ mem]
    decide +kernel
  · have waiting : (g.write edit).toOption.map (·.1.1.waiting) =
        some [(⟨0, 1, 4⟩, formula)] := by decide +kernel
    have turns : ((g.write edit).toOption.map fun result =>
        let turn := result.1.1.queueStart {}
        (turn.awaits ⟨0, 1, 4⟩ formula,
          ((Formula.outputs turn.view ⟨0, 1, 4⟩ formula).filter
            (·.cell != ⟨0, 1, 4⟩)).getLast?.map fun o => (o.cell, o.value))) =
        some (true, some (⟨0, 2, 8⟩, two)) := by decide +kernel
    cases wrote : g.write edit with
    | error e =>
      rw [wrote] at waiting
      cases waiting
    | ok result =>
      obtain ⟨⟨g', written⟩, invalidate⟩ := result
      rw [wrote] at waiting turns
      obtain ⟨awaited, final⟩ := Prod.mk.inj (Option.some.inj turns)
      obtain ⟨⟨cell, value⟩, ends, same⟩ := Option.map_eq_some_iff.mp final
      obtain ⟨rfl, rfl⟩ := Prod.mk.inj same
      obtain ⟨outputs, listed⟩ := List.getLast?_eq_some_iff.mp ends
      have value := filled edit g' written invalidate [] ⟨0, 1, 4⟩ formula [] wrote
        (Option.some.inj waiting) awaited outputs _ [] listed nofun nofun
      exact value.trans two_recovered

/-- The value that is not a number has no literal. -/
theorem not_recovered_of_notANumber :
    ¬ ∀ (options : Options) (history : List Action) (hooks : Hooks) (id : CellId) (v : CellValue),
      (∀ done, hooks.cancel done = false) → (∀ f, v ≠ .pending f) →
        (((ofHistory options history).store id (.ofFormula v.literal)).recompute hooks).1.value id =
          v.plain := by
  intro all
  let nan := CellValue.number (Number.ofPattern false Number.notANumber)
  have never : ∀ done, ({} : Hooks).cancel done = false := fun _ => rfl
  have same := all {} [] {} ⟨0, 1, 1⟩ nan never nofun
  have regular : (ofHistory {} []).Regular := regular_ofHistory {} []
  have stored := (hasLiteral_store (ofHistory {} []) ⟨0, 1, 1⟩ nan).value_recompute
    (regular.wired.store _ _).linked never
  have text : nan.recovered ≠ nan.plain := by decide +kernel
  exact text (stored.symm.trans same)

end Grid

end Spreadsheet
