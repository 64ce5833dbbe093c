import Spreadsheet.Proofs.Grid.Lines
import Spreadsheet.Proofs.Grid.Writing

/-!
# What each edit writes

Copies, cuts, sorts, lines, imports and the formulas that fill other cells, as rewriting.

* `Grid.cutBlock_induction`: what each write of a cut keeps, the cut keeps.
* `Grid.rewrites_cutBlock`, `Grid.rewrites_editLine` and the others: one edit each.
* `Grid.write_cases`: an edit that is accepted rewrites cells, adds a sheet or removes one.
* `Grid.runWaiting_induction`: what each of the formulas that wait keeps, all of them keep.
* `Grid.finish_induction`, `Grid.rewrites_finish`: what follows the writes is rewriting too.
-/

namespace Spreadsheet

theorem mem_tiling {bounds : Bounds} {source destination : BoundRange} {target id : CellId}
    (h : (target, id) ∈ tiling bounds source destination) :
    target.sheet = destination.sheet ∧ target.row ≤ bounds.rows ∧ target.col ≤ bounds.cols := by
  rw [tiling] at h
  obtain ⟨i, -, h⟩ := List.mem_flatMap.mp h
  obtain ⟨j, -, h⟩ := List.mem_filterMap.mp h
  rw [Option.ite_none_right_eq_some] at h
  obtain ⟨inside, h⟩ := h
  cases h
  exact ⟨rfl, inside⟩

/-- The rows and the columns on which a block is laid out are words. -/
def Range.FitsAt (source destination : BoundRange) : Prop :=
  (destination.bottom < coordinateLimit ∧ destination.top + source.rowCount ≤ coordinateLimit) ∧
    destination.right < coordinateLimit ∧ destination.left + source.colCount ≤ coordinateLimit

/-- A block whose rows and columns are words is laid out below and beside its first cell. -/
theorem le_of_mem_tiling {bounds : Bounds} {source destination : BoundRange} {target id : CellId}
    (fits : source.FitsAt destination) (h : (target, id) ∈ tiling bounds source destination) :
    destination.top ≤ target.row ∧ destination.left ≤ target.col := by
  obtain ⟨⟨bottom, rows⟩, right, cols⟩ := fits
  have height : destination.top + destination.rowCount = destination.bottom + 1 := by
    have := destination.top_le_bottom
    rw [Range.rowCount]
    omega
  have width : destination.left + destination.colCount = destination.right + 1 := by
    have := destination.left_le_right
    rw [Range.colCount]
    omega
  rw [tiling] at h
  generalize counts : (if source.area < destination.area then
    (destination.rowCount, destination.colCount) else (source.rowCount, source.colCount)) = size at h
  have last : destination.top + size.1 ≤ coordinateLimit ∧
      destination.left + size.2 ≤ coordinateLimit := by
    rw [← counts]
    split <;> dsimp only <;> omega
  obtain ⟨i, hi, h⟩ := List.mem_flatMap.mp h
  obtain ⟨j, hj, h⟩ := List.mem_filterMap.mp h
  rw [Option.ite_none_right_eq_some] at h
  obtain ⟨-, h⟩ := h
  cases h
  rw [List.mem_range] at hi hj
  dsimp only
  rw [wrap_of_lt (by omega), wrap_of_lt (by omega)]
  exact ⟨Nat.le_add_right _ _, Nat.le_add_right _ _⟩

theorem mem_of_moved {mapping : List (CellId × CellId)} {moved : CellMap CellId}
    {source target : CellId}
    (h : (mapping.foldl (fun moved (target, source) => moved.insertIfNew source target)
      moved)[source]? = some target) :
    moved[source]? = some target ∨ (target, source) ∈ mapping := by
  induction mapping generalizing moved with
  | nil => exact Or.inl h
  | cons head mapping ih =>
    obtain ⟨t, s⟩ := head
    rcases ih h with found | mem
    · rw [Std.ExtTreeMap.getElem?_insertIfNew] at found
      split at found
      · rename_i new
        rw [Std.LawfulEqCmp.compare_eq_iff_eq] at new
        cases found
        rw [new.1]
        exact Or.inr List.mem_cons_self
      · exact Or.inl found
    · exact Or.inr (List.mem_cons_of_mem _ mem)

namespace Grid

variable {P : String → Prop} {g g' : Grid}

/-- A block is laid out as far as the sheet of its destination goes. -/
theorem mem_mapping {source destination : BoundRange} {target id : CellId}
    (h : (target, id) ∈ g.mapping source destination) :
    target.sheet = destination.sheet ∧ ∃ s, g.sheets[destination.sheet]? = some s ∧
      target.row ≤ s.rows ∧ target.col ≤ s.cols := by
  rw [mapping] at h
  split at h
  · exact absurd h nofun
  · rename_i s found
    obtain ⟨sheet, inside⟩ := mem_tiling h
    exact ⟨sheet, s, found, inside⟩

theorem le_of_mem_mapping {source destination : BoundRange} {target id : CellId}
    (fits : source.FitsAt destination) (h : (target, id) ∈ g.mapping source destination) :
    destination.top ≤ target.row ∧ destination.left ≤ target.col := by
  rw [mapping] at h
  split at h
  · exact absurd h nofun
  · exact le_of_mem_tiling fits h

/-! ### Blocks -/

/-- **What each write of a cut keeps** holds after the cut: the cells that move are written, then those
that follow them, and what is left of the source becomes blank. -/
theorem cutBlock_induction {motive : Grid → Prop} {source destination : BoundRange}
    (start : motive g)
    (move : ∀ g' target id, (target, id) ∈ g.mapping source destination → motive g' →
      motive (g'.update (g.moved (cutOf source destination (g.mapping source destination)) id target)))
    (follow : ∀ g' id, id ∈ g.followers (cutOf source destination (g.mapping source destination))
      (.ofList ((g.mapping source destination).map (·.1))) → motive g' →
      motive (g'.update (g.moved (cutOf source destination (g.mapping source destination)) id id)))
    (clear : ∀ g' id, id ∈ source.cells → motive g' → motive (g'.store id .blank)) :
    motive (g.cutBlock source destination).1 := by
  rw [cutBlock]
  dsimp only
  split
  · exact start
  · refine List.foldlRecOn _ _ (List.foldlRecOn _ _ start ?_) fun g' before id mem =>
      clear g' id (List.mem_of_mem_filter mem) before
    intro g' before u hu
    rcases List.mem_append.mp hu with hu | hu
    · obtain ⟨⟨target, id⟩, mem, rfl⟩ := List.mem_map.mp hu
      exact move g' target id mem before
    · obtain ⟨id, mem, rfl⟩ := List.mem_map.mp (List.mem_of_mem_filter hu)
      exact follow g' id (Std.ExtTreeSet.mem_toList.mp mem) before

theorem rewrites_copyBlockValues (hP : Inherited P) (source destination : BoundRange) :
    Rewrites P g (g.copyBlockValues source destination).1 := by
  refine rewrites_updateAll g _ ?_
  intro u hu
  obtain ⟨pair, -, rfl⟩ := List.mem_map.mp hu
  exact hP.literal _

section

variable (hP : Inherited P) (holds : ∀ x, P (g.formula x))

include hP holds

theorem copied_inherited (source target : CellId) : P (g.copied source target).formula :=
  hP.relocate source target g.directory _ (holds source)

theorem rewrites_copyBlock (source destination : BoundRange) :
    Rewrites P g (g.copyBlock source destination).1 := by
  refine rewrites_updateAll g _ ?_
  intro u hu
  obtain ⟨pair, -, rfl⟩ := List.mem_map.mp hu
  exact copied_inherited hP holds pair.2 pair.1

theorem moved_inherited (cut : Formula.Cut) (source target : CellId) :
    P (g.moved cut source target).formula :=
  hP.retarget source.sheet target.sheet cut g.directory _ (holds source)

theorem rewrites_cutBlock (source destination : BoundRange) :
    Rewrites P g (g.cutBlock source destination).1 := by
  have moved := moved_inherited hP holds (cutOf source destination (g.mapping source destination))
  refine cutBlock_induction .refl ?_ ?_ fun _ id _ before => .store id .blank hP.empty before
  · exact fun g' target id _ before => before.trans (rewrites_update g' _ (moved id target))
  · exact fun g' id _ before => before.trans (rewrites_update g' _ (moved id id))

theorem rewrites_sortBlock (range : BoundRange) (column : Nat) (ascending : Bool) :
    Rewrites P g (g.sortBlock range column ascending).1 := by
  refine rewrites_updateAll g _ ?_
  intro u hu
  obtain ⟨row, -, hu⟩ := List.mem_flatMap.mp hu
  obtain ⟨col, -, rfl⟩ := List.mem_map.mp hu
  exact copied_inherited hP holds _ _

theorem rewrites_editLine (regular : g.Regular) (kind : LineKind) (edit : LineEdit) (id : CellId)
    (size : Bounds) : Rewrites P g (g.editLine kind edit id size).1 := by
  refine editLine_induction kind edit id size (rewrites_clearAll hP g _) ?_ ?_
  · exact fun rows cols => .grow _ rows cols .refl
  · intro g' source destination before
    exact before.trans (rewrites_cutBlock hP (before.holds hP regular holds) source destination)

end

/-! ### What follows the writes -/

theorem rewrites_fill (hP : Inherited P) (g : Grid) (id : CellId) {formula : String}
    (draws : Formula.Draws) (h : P formula) : Rewrites P g (g.fill id formula draws).1 := by
  have status : Rewrites P g
      (g.store id (.filling formula (Formula.evaluate (g.view draws) id formula).toText)) :=
    .store id _ h .refl
  exact status.trans
    (Rewrites.foldl _ (fun o _ _ => .store o.cell _ (hP.literal o.value) .refl) _)

/-- **What each waiting formula keeps** while it fills its cells holds when all have been run. -/
theorem runWaiting_induction {motive : Grid → List CellId → Prop} {draws : Nat → Formula.Draws}
    (start : motive { g with waiting := [] } [])
    (step : ∀ g' filled id formula turn, (id, formula) ∈ g.waiting →
      (g'.cell id).isFilling = true → g'.formula id = formula → motive g' filled →
        motive (g'.fill id formula (draws turn)).1
          (filled ++ (g'.fill id formula (draws turn)).2)) :
    motive (g.runWaiting draws).1 (g.runWaiting draws).2 := by
  refine List.foldlRecOn (motive := fun state : Grid × List CellId => motive state.1 state.2)
    g.waiting.zipIdx _ start ?_
  rintro ⟨g', filled⟩ h ⟨⟨id, formula⟩, turn⟩ mem
  dsimp only
  split
  · rename_i current
    rw [Bool.and_eq_true, beq_iff_eq] at current
    exact step g' filled id formula turn (List.fst_mem_of_mem_zipIdx mem) current.1 current.2 h
  · exact h

/-- **What passes and waiting formulas keep** holds after an edit has finished. -/
theorem finish_induction {motive : Grid → Prop} (hooks : Hooks) (start : motive g)
    (pass : ∀ g' hooks, motive g' → motive (g'.recompute hooks).1)
    (await : ∀ g', motive g' → motive { g' with waiting := [] })
    (fill : ∀ g' id draws, (id, g'.formula id) ∈ (g.recompute hooks).1.waiting →
      (g'.cell id).isFilling = true → motive g' → motive (g'.fill id (g'.formula id) draws).1)
    (written : List CellId) (invalidate : Bool) :
    motive (g.finish hooks written invalidate).1 := by
  have first := pass g hooks start
  rw [finish]
  dsimp only
  split
  · exact first
  · refine pass _ _ (runWaiting_induction (motive := fun g' _ => motive g') (await _ first) ?_)
    rintro g' - id _ turn mem filling rfl before
    exact fill g' id _ mem filling before

theorem rewrites_runWaiting (hP : Inherited P) (regular : g.Regular)
    (holds : ∀ x, P (g.formula x)) (draws : Nat → Formula.Draws) :
    Rewrites P g (g.runWaiting draws).1 := by
  refine runWaiting_induction (motive := fun g' _ => Rewrites P g g') (.await [] .refl) ?_
  rintro g' - id _ turn - - rfl before
  exact before.trans (rewrites_fill hP g' id _ (before.holds hP regular holds id))

/-- **What follows the writes of an edit is rewriting.** -/
theorem rewrites_finish (hP : Inherited P) (regular : g.Regular) (holds : ∀ x, P (g.formula x))
    (hooks : Hooks) (written : List CellId) (invalidate : Bool) :
    Rewrites P g (g.finish hooks written invalidate).1 := by
  refine finish_induction hooks .refl (fun _ hooks before => .recompute hooks before)
    (fun _ before => .await [] before) ?_ written invalidate
  intro g' id draws _ _ before
  exact before.trans (rewrites_fill hP g' id draws (before.holds hP regular holds id))

/-! ### Edits -/

theorem rewrites_enter (hP : Inherited P) (g : Grid) (id : CellId) (text : String) :
    Rewrites P g (g.enter id text) := by
  rw [enter_eq_update]
  exact rewrites_update g _ (stored_ofText hP text)

/-- **An edit that is accepted** rewrites cells, or adds a sheet, or removes one. -/
theorem write_cases (hP : Inherited P) (regular : g.Regular) (holds : ∀ x, P (g.formula x))
    {edit : Edit} {written : List CellId} {invalidate : Bool}
    (ok : g.write edit = .ok ((g', written), invalidate)) :
    Rewrites P g g' ∨ (∃ name, edit = .addSheet name ∧ g.addSheet name = .ok g') ∨
      ∃ index, edit = .removeSheet index ∧ g.removeSheet index = .ok g' := by
  cases writes_of_write ok with
  | set id text => exact Or.inl (rewrites_enter hP g id text)
  | batch ids texts =>
    exact Or.inl (Rewrites.foldl _ (fun pair _ g => rewrites_enter hP g pair.1 pair.2) g)
  | copy source destination => exact Or.inl (rewrites_copyBlock hP holds source destination)
  | cut source destination => exact Or.inl (rewrites_cutBlock hP holds source destination)
  | copyValues source destination =>
    exact Or.inl (rewrites_copyBlockValues hP source destination)
  | sort range column ascending =>
    exact Or.inl (rewrites_sortBlock hP holds range column ascending)
  | resize index rows cols => exact Or.inl (.grow index rows cols .refl)
  | addSheet name added => exact Or.inr (Or.inl ⟨name, rfl, added⟩)
  | removeSheet index removed => exact Or.inr (Or.inr ⟨index, rfl, removed⟩)
  | line kind edit id => exact Or.inl (rewrites_editLine hP holds regular kind edit id _)
  | clear range => exact Or.inl (rewrites_clearAll hP g range.cells)

theorem importUpdates_inherited (hP : Inherited P) (index : Nat) (rows : List (List String)) :
    ∀ u ∈ importUpdates index rows, P u.formula := by
  intro u hu
  obtain ⟨row, -, hu⟩ := List.mem_flatMap.mp hu
  obtain ⟨text, -, rfl⟩ := List.mem_map.mp hu
  exact literalFormula_inherited hP _

theorem plain_of_mem_importUpdates (index : Nat) (rows : List (List String)) :
    ∀ u ∈ importUpdates index rows, u.filling = false := by
  intro u hu
  obtain ⟨row, -, hu⟩ := List.mem_flatMap.mp hu
  obtain ⟨text, -, rfl⟩ := List.mem_map.mp hu
  rfl

theorem rewrites_importUpdates (hP : Inherited P) (g : Grid) (index : Nat)
    (rows : List (List String)) :
    Rewrites P g ((g.growSheet index rows.length ((rows.map List.length).foldl max 0)).updateAll
      (importUpdates index rows)).1 :=
  Rewrites.trans (.grow index _ _ .refl)
    (rewrites_updateAll _ _ (importUpdates_inherited hP index rows))

theorem importRows_eq {index : Nat} {rows : List (List String)} {draws : Nat → Formula.Draws}
    {outcome : Outcome} (ok : g.importRows index rows draws = .ok (g', outcome)) :
    (((g.growSheet index rows.length ((rows.map List.length).foldl max 0)).updateAll
      (importUpdates index rows)).1.finish { draws } ((importUpdates index rows).map Update.cell)
        true).1 = g' := by
  obtain ⟨-, -, done⟩ := ok_of_bind ok
  exact congrArg Prod.fst (Except.ok.inj done)

end Grid

end Spreadsheet
