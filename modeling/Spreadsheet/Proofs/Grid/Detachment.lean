import Spreadsheet.Proofs.Grid.Anchoring
import Spreadsheet.Proofs.Grid.Refinement

/-!
# What a removed sheet leaves alone

When a sheet is removed, the cells of later sheets move to the sheet before theirs.  Whatever does not
depend on the sheet stays as it is in its new place; the rest is computed again.

* `lowered index x`: the place of a cell after a sheet is removed.
* `Grid.exists_path_of_dirty`: what is dirty after a sheet is removed from a clean grid has read it.
* `Grid.Detached index g g'`: the second grid is the first without a sheet and what depends on it.
* `Grid.detached_ofHistory`: removing a sheet does just this, and computes the rest again.
-/

namespace Spreadsheet

open Relation

/-! ### New places -/

def loweredSheet (index sheet : Nat) : Nat := if index < sheet then sheet - 1 else sheet

def lowered (index : Nat) (id : CellId) : CellId := { id with sheet := loweredSheet index id.sheet }

variable {index : Nat}

theorem restoredSheet_loweredSheet {sheet : Nat} (elsewhere : sheet ≠ index) :
    restoredSheet index (loweredSheet index sheet) = sheet := by
  rw [restoredSheet, loweredSheet]
  split <;> split <;> omega

theorem loweredSheet_restoredSheet (index sheet : Nat) :
    loweredSheet index (restoredSheet index sheet) = sheet := by
  rw [restoredSheet, loweredSheet]
  split <;> split <;> omega

theorem restored_lowered {x : CellId} (elsewhere : x.sheet ≠ index) :
    restored index (lowered index x) = x := by
  obtain ⟨sheet, row, col⟩ := x
  exact congrArg (CellId.mk · row col) (restoredSheet_loweredSheet elsewhere)

theorem lowered_restored (index : Nat) (u : CellId) : lowered index (restored index u) = u := by
  obtain ⟨sheet, row, col⟩ := u
  exact congrArg (CellId.mk · row col) (loweredSheet_restoredSheet index sheet)

theorem exists_lowered_iff {P : CellId → Prop} (u : CellId) :
    (∃ x, P x ∧ x.sheet ≠ index ∧ lowered index x = u) ↔ P (restored index u) := by
  constructor
  · rintro ⟨x, holds, elsewhere, rfl⟩
    rwa [restored_lowered elsewhere]
  · exact fun holds => ⟨_, holds, restoredSheet_ne index u.sheet, lowered_restored index u⟩

namespace Grid

variable {g g' : Grid} {removed : List String}

/-! ### Without the sheet -/

theorem cell_sheetRemoved (g : Grid) (index : Nat) (u : CellId) :
    (g.sheetRemoved index).cell u = cellWithoutSheet index (g.cell (restored index u)) := by
  rw [sheetRemoved_eq]
  exact cell_dropSheet g index u

theorem edge_of_readBy_dropSheet (wired : g.Wired) {u y : CellId}
    (reader : ReadBy (g.dropSheet index).cells u y) (other : u ≠ y) :
    g.Edge (restored index u) (restored index y) := by
  refine wired.back _ _ (fun same => other (restored_injective index same)) ?_
  have mem : y ∈ ((g.dropSheet index).cell u).readers := reader
  rwa [cell_dropSheet, cellWithoutSheet, mem_setWithoutSheet] at mem

/-- **What is dirty after a sheet is removed from a clean grid has read the sheet**, over one or more
steps. -/
theorem exists_path_of_dirty (wired : g.Wired) (clean : g.dirty = ∅) {y : CellId}
    (dirty : y ∈ (g.sheetRemoved index).dirty) :
    ∃ x : CellId, x.sheet = index ∧ TransGen g.Edge x (restored index y) := by
  rw [mem_dirty_sheetRemoved] at dirty
  rcases dirty with before | ⟨o, orphan, path⟩
  · rw [clean] at before
    exact absurd before Std.ExtTreeSet.not_mem_empty
  · obtain ⟨x, sheet, reader⟩ := (mem_orphans g index o).mp orphan
    have apart : x ≠ restored index o := by
      rintro rfl
      exact restoredSheet_ne index o.sheet sheet
    refine ⟨x, sheet, ?_⟩
    induction path with
    | refl => exact .single (wired.back _ _ apart reader)
    | @tail v w _ step ih =>
      by_cases same : v = w
      · exact same ▸ ih
      · exact ih.tail (edge_of_readBy_dropSheet wired step same)

theorem edge_eq_formulaReads (wired : g.Wired) (traced : g.Traced) : g.Edge = g.FormulaReads := by
  funext x y
  refine propext ⟨fun edge => ?_, fun reads => (traced y reads.1 x).mpr reads.2⟩
  have notFilling : (g.cell y).isFilling = false := by
    rw [← Bool.not_eq_true]
    intro filling
    rw [Edge, wired.inert y filling] at edge
    exact Std.ExtTreeSet.not_mem_empty edge
  exact ⟨notFilling, (traced y notFilling x).mp edge⟩

theorem formula_ne_of_reads {x y : CellId} (reads : g.FormulaReads x y) : g.formula y ≠ "" := by
  intro blank
  have reads := reads.2
  rw [blank] at reads
  exact not_reads_of_mentions_eq_nil mentions_empty x reads

/-! ### After the pass -/

/-- The second grid is the first without a sheet, as far as nothing depends on the sheet. -/
structure Detached (index : Nat) (g g' : Grid) : Prop where
  sheets : g'.sheets = g.sheets.eraseIdx index
  /-- The cells of the other sheets are stored in their new places, and no others are. -/
  stored : ∀ u, u ∈ g'.cells ↔ ∃ x, x ∈ g.cells ∧ x.sheet ≠ index ∧ lowered index x = u
  formula : ∀ x, x.sheet ≠ index → g'.formula (lowered index x) = g.formula x
  precedents : ∀ x, x.sheet ≠ index → ∀ u, u ∈ (g'.cell (lowered index x)).precedents ↔
    ∃ y, y ∈ (g.cell x).precedents ∧ y.sheet ≠ index ∧ lowered index y = u
  readers : ∀ x, x.sheet ≠ index → ∀ u, u ∈ (g'.cell (lowered index x)).readers ↔
    ∃ y, y ∈ (g.cell x).readers ∧ y.sheet ≠ index ∧ lowered index y = u
  /-- A cell that does not read the sheet, over one or more steps, keeps its value. -/
  value : ∀ x, x.sheet ≠ index → (∀ z : CellId, z.sheet = index → ¬ TransGen g.FormulaReads z x) →
    g'.value (lowered index x) = g.value x
  /-- What a formula refers to on a sheet that is left is the same in its new place. -/
  denotes : ∀ (m : Formula.Mention) (home sheet : Nat), home ≠ index → sheet ≠ index →
    m.sheet? home g.directory = some sheet →
      m.sheet? (loweredSheet index home) g'.directory = some (loweredSheet index sheet) ∧
        ∀ u, u ∈ m.cellsOn (loweredSheet index sheet) ↔
          ∃ x, x ∈ m.cellsOn sheet ∧ x.sheet ≠ index ∧ lowered index x = u

section

variable (h : g.Tracked removed) (clean : g.dirty = ∅)

include h clean

theorem formula_ne_of_dirty {y : CellId} (dirty : y ∈ (g.sheetRemoved index).dirty) :
    (g.sheetRemoved index).formula y ≠ "" := by
  obtain ⟨x, -, path⟩ := exists_path_of_dirty h.regular.wired clean dirty
  obtain ⟨w, -, edge⟩ := TransGen.tail'_iff.mp path
  rw [edge_eq_formulaReads h.regular.wired h.traced] at edge
  rw [formula, cell_sheetRemoved]
  exact formula_ne_of_reads edge

theorem mem_cells_after_removal (wired : (g.sheetRemoved index).Wired) (hooks : Hooks) (u : CellId) :
    u ∈ ((g.sheetRemoved index).recompute hooks).1.cells ↔ u ∈ (g.sheetRemoved index).cells := by
  by_cases dirty : u ∈ (g.sheetRemoved index).dirty
  · have written := formula_ne_of_dirty h clean dirty
    refine iff_of_true (mem_cells_of_formula_ne ?_) (mem_cells_of_formula_ne written)
    rwa [(recompute_alike wired hooks).formula]
  · rw [Std.ExtTreeMap.mem_iff_isSome_getElem?, recompute_outside wired.linked hooks dirty,
      ← Std.ExtTreeMap.mem_iff_isSome_getElem?]

/-- **Removing a sheet and a pass leave alone what does not depend on the sheet**, even if the pass is
cancelled. -/
theorem detached_recompute (wired : (g.sheetRemoved index).Wired) (hooks : Hooks) :
    Detached index g ((g.sheetRemoved index).recompute hooks).1 := by
  have alike := recompute_alike wired hooks
  have sheets : ((g.sheetRemoved index).recompute hooks).1.sheets = (g.dropSheet index).sheets := by
    rw [alike.sheets, sheetRemoved_eq]
  have directory : ((g.sheetRemoved index).recompute hooks).1.directory =
      (g.dropSheet index).directory := congrArg Directory.ofSheets sheets
  have before : ∀ x : CellId, x.sheet ≠ index →
      (g.sheetRemoved index).cell (lowered index x) = cellWithoutSheet index (g.cell x) := by
    intro x elsewhere
    rw [cell_sheetRemoved, restored_lowered elsewhere]
  refine ⟨sheets, fun u => ?_, fun x elsewhere => ?_, fun x elsewhere u => ?_,
    fun x elsewhere u => ?_, fun x elsewhere apart => ?_, fun m home sheet left left' found => ?_⟩
  · rw [mem_cells_after_removal h clean wired hooks, mem_cells_sheetRemoved]
    exact (exists_lowered_iff u).symm
  · rw [alike.formula, formula, before x elsewhere]
    rfl
  · rw [alike.precedents, before x elsewhere, cellWithoutSheet, mem_setWithoutSheet]
    exact (exists_lowered_iff u).symm
  · rw [alike.readers, before x elsewhere, cellWithoutSheet, mem_setWithoutSheet]
    exact (exists_lowered_iff u).symm
  · have untouched : lowered index x ∉ (g.sheetRemoved index).dirty := by
      intro dirty
      obtain ⟨z, sheet, path⟩ := exists_path_of_dirty h.regular.wired clean dirty
      rw [edge_eq_formulaReads h.regular.wired h.traced, restored_lowered elsewhere] at path
      exact apart z sheet path
    rw [value_eq_of_cells (recompute_outside wired.linked hooks untouched), value,
      before x elsewhere]
    rfl
  · rw [directory, sheet?_dropSheet h.regular.names, restoredSheet_loweredSheet left,
      restoredSheet_loweredSheet left']
    refine ⟨found, fun u => ?_⟩
    rw [exists_lowered_iff (P := fun x => x ∈ m.cellsOn sheet), ← mem_cellsOn_restored index,
      restoredSheet_loweredSheet left']

end

/-- **Removing a sheet is invisible to what does not depend on it.**  After a history in which no name
of a removed sheet is used again and which leaves nothing dirty, removing a sheet leaves alone the cells,
edges, values and references that have nothing to do with it.  Nothing is dirty then, unless the pass is
cancelled.  Every cell that is not dirty, fills no others, calls no `RAND` and is not behind a cycle that
is left has the value that its formula has in the new grid. -/
theorem detached_ofHistory (options : Options) (history : List Action)
    (fresh : NeverReuses options history) (clean : (ofHistory options history).dirty = ∅)
    {hooks : Hooks} {index : Nat} {g' : Grid} {outcome : Outcome}
    (ok : (ofHistory options history).apply hooks (.removeSheet index) = .ok (g', outcome)) :
    Detached index (ofHistory options history) g' ∧
      (g'.dirty = ∅ ∨ outcome.report.cancelled = true ∧ ∃ done, hooks.cancel done = true) ∧
      ∀ y, y ∉ g'.dirty → (g'.cell y).isFilling = false → ¬ Formula.CallsRandom (g'.formula y) →
        ¬ BehindCycle g'.FormulaReads y →
          (g'.value y).agrees (Formula.evaluate g'.view y (g'.formula y)).toValue := by
  have h := tracked_ofHistory options history fresh
  obtain ⟨g₁, written, invalidate, wrote, done⟩ := apply_eq_ok_iff.mp ok
  have removes : (ofHistory options history).removeSheet index = .ok g₁ := by
    cases wrote with
    | removeSheet _ removed => exact removed
  have wired := (h.regular.removeSheet removes).wired
  obtain ⟨⟨s, found⟩, -, rfl⟩ := removeSheet_eq_ok_iff.mp removes
  have idle : ((ofHistory options history).sheetRemoved index).waiting = [] := by
    rw [sheetRemoved_eq]
    exact waiting_ofHistory options history
  have tracked := (h.removeSheet removes found).recompute hooks
  obtain ⟨rfl, report⟩ := finish_of_idle wired idle done
  refine ⟨detached_recompute h clean wired hooks, ?_, fun y settled notFilling noRandom free => ?_⟩
  · rw [report]
    rcases recompute_cases wired.forth hooks with
      ⟨order, p, reached, quiet, -, ends⟩ | ⟨cancels, -, -, -, -, cancelled⟩
    · rw [ends]
      exact Or.inl (reached.settle wired.linked quiet).clean
    · exact Or.inr ⟨cancelled, cancels⟩
  · rw [← edge_eq_formulaReads tracked.regular.wired tracked.traced] at free
    exact tracked.current.value y settled notFilling noRandom free

/-- The second sheet has a literal and a formula that reads the first sheet, which is removed. -/
theorem detached_ofHistory_reader :
    let history : List Action :=
      [.edit {} (.set ⟨1, 1, 1⟩ "5"), .edit {} (.set ⟨1, 2, 1⟩ "=Sheet1!A1")]
    let g := ofHistory {} history
    let g' := g.perform (.edit {} (.removeSheet 0))
    NeverReuses {} history ∧ g.dirty = ∅ ∧
      (∃ outcome, g.apply {} (.removeSheet 0) = .ok (g', outcome)) ∧
      g'.value ⟨0, 1, 1⟩ = g.value ⟨1, 1, 1⟩ ∧
      (g'.value ⟨0, 2, 1⟩).agrees (Formula.evaluate g'.view ⟨0, 2, 1⟩ "Sheet1!A1").toValue := by
  intro history g g'
  have fresh : NeverReuses {} history := ⟨⟨trivial, nofun⟩, nofun⟩
  have clean : g.dirty = ∅ := Std.ExtTreeSet.isEmpty_iff.mp (by decide +kernel)
  have accepted : ∃ outcome, g.apply {} (.removeSheet 0) = .ok (g', outcome) := by
    have known : (g.apply {} (.removeSheet 0)).toBool = true := by decide +kernel
    cases result : g.apply {} (.removeSheet 0) with
    | error e =>
      rw [result] at known
      cases known
    | ok done => exact ⟨done.2, congrArg Except.ok (Prod.ext (by simp [g', perform, result]) rfl)⟩
  obtain ⟨outcome, ok⟩ := accepted
  obtain ⟨detached, ends, current⟩ := detached_ofHistory {} history fresh clean ok
  have clean' : g'.dirty = ∅ := by
    rcases ends with clean' | ⟨-, done, cancel⟩
    · exact clean'
    · cases cancel
  have literal : g.formula ⟨1, 1, 1⟩ = "5" := by decide +kernel
  have reader : g'.formula ⟨0, 2, 1⟩ = "Sheet1!A1" := by decide +kernel
  refine ⟨fresh, clean, ⟨outcome, ok⟩, detached.value ⟨1, 1, 1⟩ (by decide) ?_, ?_⟩
  · intro z _ path
    obtain ⟨w, -, reads⟩ := TransGen.tail'_iff.mp path
    have reads := reads.2
    rw [literal] at reads
    exact not_reads_of_mentions_eq_nil (by decide +kernel) w reads
  · rw [← reader]
    refine current ⟨0, 2, 1⟩ (clean' ▸ Std.ExtTreeSet.not_mem_empty) (by decide +kernel) ?_ ?_
    · rw [reader]
      decide +kernel
    · intro behind
      obtain ⟨w, -, reads⟩ := behind.exists_before
      obtain ⟨-, m, hm, sheet, found, -⟩ := reads
      have missing : ((Formula.mentions (g'.formula ⟨0, 2, 1⟩)).all fun m =>
          (m.1.sheet? 0 g'.directory).isNone) = true := by decide +kernel
      rw [Option.isNone_iff_eq_none.mp (List.all_eq_true.mp missing m hm)] at found
      cases found

end Grid

end Spreadsheet
