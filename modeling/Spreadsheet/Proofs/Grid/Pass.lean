import Mathlib.Tactic.ByContra
import Spreadsheet.Proofs.Cycles
import Spreadsheet.Proofs.Grid.Valuation

/-!
# The steps of a pass

A pass computes one ready cell after the other.  `Pass.Reached g order p` says all about the state
`p` to which a pass of the grid `g` has come when it has computed the cells of `order`:

* the cells that are still dirty, and for each cell of the pass the dirty cells that it waits for;
* which cells are ready, namely those that wait for none;
* that every cell comes after its dirty precedents, and that its value is the one that its formula
  has now;
* what the report says.

`Pass.reached_start` is the state before the first cell and `Pass.Reached.compute` the step.
`Pass.run_induction` carries a simpler invariant through the whole run.
-/

namespace Spreadsheet

namespace Pass

theorem erase_of_not_mem {s : CellSet} {x : CellId} (h : x ∉ s) : s.erase x = s := by
  ext y
  rw [Std.ExtTreeSet.mem_erase, Ne, Std.LawfulEqCmp.compare_eq_iff_eq]
  refine ⟨And.right, fun hy => ⟨?_, hy⟩⟩
  rintro rfl
  exact h hy

/-! ### Releasing the readers of a cell -/

section

variable (id : CellId) (p : Pass)

theorem release_grid (reader : CellId) : (release id p reader).grid = p.grid := by
  rw [release]
  split
  · rfl
  · split <;> rfl

theorem release_report (reader : CellId) : (release id p reader).report = p.report := by
  rw [release]
  split
  · rfl
  · split <;> rfl

theorem blockers_release (reader y : CellId) :
    (release id p reader).blockers[y]? =
      if y = reader then (p.blockers[y]?).map (·.erase id) else p.blockers[y]? := by
  by_cases same : y = reader
  · subst same
    rw [if_pos rfl, release]
    cases found : p.blockers[y]? with
    | none => simp [found]
    | some blockers =>
      dsimp only
      split
      · simp
      · rename_i free
        rw [Std.ExtTreeSet.contains_iff_mem] at free
        simp [found, erase_of_not_mem free]
  · rw [if_neg same, release]
    cases p.blockers[reader]? with
    | none => rfl
    | some blockers =>
      dsimp only
      split
      · have other : compare reader y ≠ .eq := fun h => same (Std.LawfulEqCmp.eq_of_compare h).symm
        rw [Std.ExtTreeMap.getElem?_insert, if_neg other]
      · rfl

theorem mem_ready_release (reader y : CellId) :
    y ∈ (release id p reader).ready ↔
      y ∈ p.ready ∨ (y = reader ∧ ∃ b, p.blockers[y]? = some b ∧ id ∈ b ∧ b.erase id = ∅) := by
  rw [release]
  cases found : p.blockers[reader]? with
  | none =>
    refine ⟨Or.inl, ?_⟩
    rintro (hy | ⟨rfl, b, hb, -⟩)
    · exact hy
    · rw [found] at hb
      exact absurd hb nofun
  | some b =>
    dsimp only
    have only : ∀ b', p.blockers[reader]? = some b' → b' = b := by
      intro b' hb'
      rw [found] at hb'
      exact (Option.some.inj hb').symm
    split
    · rename_i blocked
      rw [Std.ExtTreeSet.contains_iff_mem] at blocked
      split
      · rename_i empty
        rw [Std.ExtTreeSet.isEmpty_iff] at empty
        rw [Std.ExtTreeSet.mem_insert, Std.LawfulEqCmp.compare_eq_iff_eq]
        constructor
        · rintro (rfl | hy)
          · exact Or.inr ⟨rfl, b, found, blocked, empty⟩
          · exact Or.inl hy
        · rintro (hy | ⟨rfl, -⟩)
          · exact Or.inr hy
          · exact Or.inl rfl
      · rename_i nonempty
        refine ⟨Or.inl, ?_⟩
        rintro (hy | ⟨rfl, b', hb', -, empty⟩)
        · exact hy
        · rw [only b' hb', ← Std.ExtTreeSet.isEmpty_iff] at empty
          exact absurd empty nonempty
    · rename_i free
      refine ⟨Or.inl, ?_⟩
      rintro (hy | ⟨rfl, b', hb', blocked, -⟩)
      · exact hy
      · rw [only b' hb'] at blocked
        exact absurd (Std.ExtTreeSet.contains_iff_mem.mpr blocked) free

end

variable (id : CellId)

theorem foldl_release_grid (readers : List CellId) (p : Pass) :
    (readers.foldl (release id) p).grid = p.grid := by
  induction readers generalizing p with
  | nil => rfl
  | cons reader readers ih => rw [List.foldl_cons, ih, release_grid]

theorem foldl_release_report (readers : List CellId) (p : Pass) :
    (readers.foldl (release id) p).report = p.report := by
  induction readers generalizing p with
  | nil => rfl
  | cons reader readers ih => rw [List.foldl_cons, ih, release_report]

theorem blockers_foldl_release (readers : List CellId) (p : Pass) (y : CellId) :
    (readers.foldl (release id) p).blockers[y]? =
      if y ∈ readers then (p.blockers[y]?).map (·.erase id) else p.blockers[y]? := by
  induction readers generalizing p with
  | nil => simp
  | cons reader readers ih =>
    rw [List.foldl_cons, ih, blockers_release]
    by_cases same : y = reader
    · subst same
      cases p.blockers[y]? <;> simp [erase_erase_self]
    · simp [same]

theorem mem_ready_foldl_release (readers : List CellId) (p : Pass) (y : CellId) :
    y ∈ (readers.foldl (release id) p).ready ↔
      y ∈ p.ready ∨ (y ∈ readers ∧ ∃ b, p.blockers[y]? = some b ∧ id ∈ b ∧ b.erase id = ∅) := by
  induction readers generalizing p with
  | nil => simp
  | cons reader readers ih =>
    rw [List.foldl_cons, ih, mem_ready_release, blockers_release]
    by_cases same : y = reader
    · subst same
      -- After the first release nothing is left to release.
      have gone : ¬ ∃ b, (p.blockers[y]?).map (·.erase id) = some b ∧ id ∈ b ∧ b.erase id = ∅ := by
        rintro ⟨b, hb, hid, -⟩
        obtain ⟨b', -, rfl⟩ := Option.map_eq_some_iff.mp hb
        simp [Std.ExtTreeSet.mem_erase] at hid
      simp only [if_pos, gone, List.mem_cons, true_or, true_and, and_false, or_false]
    · simp [same]

/-! ### Computing a cell -/

section

variable (hooks : Hooks) (total : Nat) (p : Pass)

theorem take_grid :
    (p.take hooks total id).grid =
      { p.grid.refresh id (hooks.draws 0) with dirty := p.grid.dirty.erase id } := by
  rw [take, Grid.refresh]
  cases p.grid.computed? id (hooks.draws 0) with
  | none => rfl
  | some value =>
    show ({ (p.grid.setValue id value).1 with
      dirty := (p.grid.setValue id value).1.dirty.erase id } : Grid) = _
    rw [Grid.setValue_dirty]

theorem take_blockers : (p.take hooks total id).blockers = p.blockers := by
  rw [take]
  cases p.grid.computed? id (hooks.draws 0) <;> rfl

theorem take_ready : (p.take hooks total id).ready = p.ready.erase id := by
  rw [take]
  cases p.grid.computed? id (hooks.draws 0) <;> rfl

theorem compute_eq :
    p.compute hooks total id =
      (p.grid.cell id).readers.toList.foldl (release id) (p.take hooks total id) := by
  have readers : ((p.take hooks total id).grid.cell id).readers = (p.grid.cell id).readers := by
    rw [take_grid]
    exact (p.grid.alike_refresh id _).readers id
  rw [compute, Std.ExtTreeSet.foldl_eq_foldl_toList, readers]

theorem compute_grid :
    (p.compute hooks total id).grid =
      { p.grid.refresh id (hooks.draws 0) with dirty := p.grid.dirty.erase id } := by
  rw [compute_eq, foldl_release_grid, take_grid]

theorem compute_blockers (y : CellId) :
    (p.compute hooks total id).blockers[y]? =
      if y ∈ (p.grid.cell id).readers then (p.blockers[y]?).map (·.erase id)
      else p.blockers[y]? := by
  rw [compute_eq, blockers_foldl_release, take_blockers]
  simp only [Std.ExtTreeSet.mem_toList]

theorem mem_compute_ready (y : CellId) :
    y ∈ (p.compute hooks total id).ready ↔
      (y ≠ id ∧ y ∈ p.ready) ∨ (y ∈ (p.grid.cell id).readers ∧
        ∃ b, p.blockers[y]? = some b ∧ id ∈ b ∧ b.erase id = ∅) := by
  rw [compute_eq, mem_ready_foldl_release, take_blockers, take_ready, Std.ExtTreeSet.mem_erase]
  simp only [Std.ExtTreeSet.mem_toList, ne_eq, Std.LawfulEqCmp.compare_eq_iff_eq,
    eq_comm (a := id)]

theorem compute_report :
    (p.compute hooks total id).report.recomputed = p.report.recomputed + 1 ∧
      (p.compute hooks total id).report.cancelled = p.report.cancelled ∧
      (p.compute hooks total id).report.cycle = p.report.cycle ∧
      (p.compute hooks total id).report.changed.toList = p.report.changed.toList ++
        if (p.grid.value id).same ((p.grid.refresh id (hooks.draws 0)).value id) then [] else [id] := by
  rw [compute_eq, foldl_release_report, take, Grid.value_refresh_self, Grid.computed?_eq]
  cases filling : (p.grid.cell id).isFilling with
  | true => simp [Grid.same_self_of_filling filling]
  | false =>
    have flag := Grid.snd_setValue p.grid id (p.grid.formulaValue id (hooks.draws 0))
    simp only [setValue, flag, CellValue.same_keep, Bool.false_eq_true, if_false]
    cases (p.grid.value id).same (p.grid.formulaValue id (hooks.draws 0)) <;> simp

end

/-- **What computing a ready cell keeps** a run keeps, if cancelling keeps it too. -/
theorem run_induction {motive : Pass → Prop} {hooks : Hooks} {total : Nat} {p : Pass}
    (start : motive p)
    (step : ∀ p id, id ∈ p.ready → motive p → motive (p.compute hooks total id))
    (cancel : ∀ p, motive p → motive { p with report := { p.report with cancelled := true } })
    (n : Nat) : motive (run hooks total n p) := by
  induction n generalizing p with
  | zero => exact start
  | succ n ih =>
    rw [run]
    cases first : p.ready.toList.head? with
    | none => exact start
    | some id =>
      have hid : id ∈ p.ready := Std.ExtTreeSet.mem_toList.mp (List.mem_of_head? first)
      dsimp only
      split
      · exact cancel p start
      · exact ih (step p id hid start)

/-! ### The cells that a cell waits for -/

theorem mem_dirtyPrecedents (g : Grid) (x y : CellId) :
    x ∈ dirtyPrecedents g y ↔ x ∈ (g.cell y).precedents ∧ x ∈ g.dirty := by
  rw [dirtyPrecedents, Std.ExtTreeSet.mem_filter]
  simp only [Std.ExtTreeSet.contains_iff_mem, Std.ExtTreeSet.get_eq]
  exact ⟨fun ⟨h, hx⟩ => ⟨h, hx⟩, fun ⟨h, hx⟩ => ⟨h, hx⟩⟩

theorem not_mem_of_dirtyPrecedents_eq_empty {g : Grid} {x y : CellId}
    (h : dirtyPrecedents g y = ∅) (hx : x ∈ (g.cell y).precedents) : x ∉ g.dirty := by
  intro dirty
  have mem := (mem_dirtyPrecedents g x y).mpr ⟨hx, dirty⟩
  rw [h] at mem
  exact Std.ExtTreeSet.not_mem_empty mem

theorem dirtyPrecedents_compute (hooks : Hooks) (total : Nat) (p : Pass) (y : CellId) :
    dirtyPrecedents (p.compute hooks total id).grid y = (dirtyPrecedents p.grid y).erase id := by
  ext x
  rw [Std.ExtTreeSet.mem_erase, mem_dirtyPrecedents, mem_dirtyPrecedents, compute_grid]
  show x ∈ ((p.grid.refresh id _).cell y).precedents ∧ x ∈ p.grid.dirty.erase id ↔ _
  rw [(p.grid.alike_refresh id _).precedents, Std.ExtTreeSet.mem_erase]
  tauto

theorem start_blockers (g : Grid) (y : CellId) :
    (start g).blockers[y]? = if y ∈ g.dirty then some (dirtyPrecedents g y) else none := by
  have all : ∀ (ids : List CellId) (blockers : CellMap CellSet),
      (ids.foldl (fun blockers id => blockers.insert id (dirtyPrecedents g id)) blockers)[y]? =
        if y ∈ ids then some (dirtyPrecedents g y) else blockers[y]? := by
    intro ids
    induction ids with
    | nil => simp
    | cons id ids ih =>
      intro blockers
      rw [List.foldl_cons, ih, Std.ExtTreeMap.getElem?_insert]
      by_cases same : id = y
      · subst same
        simp
      · simp [same, Ne.symm same, Std.LawfulEqCmp.compare_eq_iff_eq]
  rw [start, Std.ExtTreeSet.foldl_eq_foldl_toList, all]
  simp only [Std.ExtTreeSet.mem_toList]
  rfl

end Pass

/-! ### The edges on which a pass relies -/

/-- The formula of `y` has an edge from `x`. -/
def Grid.Edge (g : Grid) (x y : CellId) : Prop := x ∈ (g.cell y).precedents

theorem Grid.mem_dirty_of_stuck {g : Grid} {x : CellId}
    (h : Stuck g.Edge {x | x ∈ g.dirty} x) : x ∈ g.dirty :=
  Stuck.mem (D := {x | x ∈ g.dirty}) h

/-- The edges that a pass follows from a cell are those by which cells wait for it. -/
structure Grid.Linked (g : Grid) : Prop where
  /-- What a cell reads lists it as a reader. -/
  forth : ∀ x y, x ∈ (g.cell y).precedents → y ∈ (g.cell x).readers
  /-- A formula that fills other cells has no edges. -/
  inert : ∀ y, (g.cell y).isFilling = true → (g.cell y).precedents = ∅

/-- Every cell that a formula reads has an edge to it. -/
def Grid.Covered (g : Grid) : Prop :=
  ∀ y, (g.cell y).isFilling = false → ∀ x,
    Formula.Reads y.sheet g.directory (g.formula y) x → x ∈ (g.cell y).precedents

theorem Grid.Alike.covered {g g' : Grid} (h : g.Alike g') (covered : g.Covered) : g'.Covered := by
  intro y hy x hx
  rw [h.filling] at hy
  rw [h.directory, h.formula] at hx
  rw [h.precedents]
  exact covered y hy x hx

/-- A formula has the same value in two grids that are alike and have the same values where the edges
of its cell come from. -/
theorem Grid.Covered.formulaValue_eq {g g' : Grid} (covered : g.Covered) (alike : g.Alike g')
    {y : CellId} (notFilling : (g.cell y).isFilling = false)
    (values : ∀ x ∈ (g.cell y).precedents, g'.value x = g.value x) (draws : Formula.Draws) :
    g'.formulaValue y draws = g.formulaValue y draws := by
  rw [formulaValue, formulaValue, alike.formula]
  refine congrArg Term.toValue (evaluate_of_alike alike y draws ?_)
  intro x hx
  exact values x (covered y notFilling x hx)

/-! ### The state of a pass -/

/-- The pass of `g` that has computed the cells of `order` has come to the state `p`. -/
structure Pass.Reached (hooks : Hooks) (total : Nat) (g : Grid) (order : List CellId) (p : Pass) :
    Prop where
  steps : p = order.foldl (Pass.compute hooks total) (Pass.start g)
  nodup : order.Nodup
  mem : ∀ y ∈ order, y ∈ g.dirty
  dirty : ∀ x, x ∈ p.grid.dirty ↔ x ∈ g.dirty ∧ x ∉ order
  /-- The dirty precedents of a cell are computed when the cell is. -/
  closed : ∀ y ∈ order, ∀ x ∈ (g.cell y).precedents, x ∈ g.dirty → x ∈ order
  /-- No cell is computed before one of its precedents. -/
  sorted : order.Pairwise fun y x => x ∉ (g.cell y).precedents
  irrefl : ∀ y ∈ order, y ∉ (g.cell y).precedents
  free : ∀ y ∈ order, ¬ Stuck g.Edge {x | x ∈ g.dirty} y
  alike : g.Alike p.grid
  outside : ∀ x, x ∉ order → p.grid.cells[x]? = g.cells[x]?
  filling : ∀ y ∈ order, (g.cell y).isFilling = true → p.grid.value y = g.value y
  value : g.Covered → ∀ y ∈ order, (g.cell y).isFilling = false →
    p.grid.value y = (g.value y).keep (p.grid.formulaValue y (hooks.draws 0))
  blockers : ∀ y, p.blockers[y]? =
    if y ∈ g.dirty then some (Pass.dirtyPrecedents p.grid y) else none
  ready : ∀ y, y ∈ p.ready ↔ y ∈ p.grid.dirty ∧ Pass.dirtyPrecedents p.grid y = ∅
  recomputed : p.report.recomputed = order.length
  cancelled : p.report.cancelled = false
  cycle : p.report.cycle = none
  changed : p.report.changed.toList =
    order.filter fun y => !(g.value y).same (p.grid.value y)

namespace Pass

variable {hooks : Hooks} {total : Nat} {g : Grid} {order : List CellId} {p : Pass} {id : CellId}

theorem reached_start (hooks : Hooks) (total : Nat) (g : Grid) :
    Reached hooks total g [] (start g) where
  steps := rfl
  nodup := List.nodup_nil
  mem _ hy := absurd hy List.not_mem_nil
  dirty x := by simp [start]
  closed _ hy := absurd hy List.not_mem_nil
  sorted := List.Pairwise.nil
  irrefl _ hy := absurd hy List.not_mem_nil
  free _ hy := absurd hy List.not_mem_nil
  alike := Grid.Alike.refl g
  outside _ _ := rfl
  filling _ hy := absurd hy List.not_mem_nil
  value _ _ hy := absurd hy List.not_mem_nil
  blockers := start_blockers g
  ready y := by
    show y ∈ g.dirty.filter (fun id => (dirtyPrecedents g id).isEmpty) ↔
      y ∈ g.dirty ∧ dirtyPrecedents g y = ∅
    rw [Std.ExtTreeSet.mem_filter]
    simp only [Std.ExtTreeSet.isEmpty_iff, Std.ExtTreeSet.get_eq]
    exact exists_prop
  recomputed := rfl
  cancelled := rfl
  cycle := rfl
  changed := rfl

theorem Reached.not_mem (h : Reached hooks total g order p) (hid : id ∈ p.ready) : id ∉ order :=
  ((h.dirty id).mp ((h.ready id).mp hid).1).2

theorem Reached.mem_of_ready (h : Reached hooks total g order p) (hid : id ∈ p.ready) {x : CellId}
    (hx : x ∈ (g.cell id).precedents) (dirty : x ∈ g.dirty) : x ∈ order := by
  by_contra later
  rw [← h.alike.precedents] at hx
  exact not_mem_of_dirtyPrecedents_eq_empty ((h.ready id).mp hid).2 hx
    ((h.dirty x).mpr ⟨dirty, later⟩)

theorem Reached.not_self (h : Reached hooks total g order p) (hid : id ∈ p.ready) :
    id ∉ (g.cell id).precedents := by
  intro self
  have dirty := ((h.dirty id).mp ((h.ready id).mp hid).1).1
  exact h.not_mem hid (h.mem_of_ready hid self dirty)

theorem Reached.not_precedent (h : Reached hooks total g order p) (hid : id ∈ p.ready)
    {y : CellId} (hy : y ∈ order) : id ∉ (g.cell y).precedents := by
  intro reads
  have dirty := ((h.dirty id).mp ((h.ready id).mp hid).1).1
  exact h.not_mem hid (h.closed y hy id reads dirty)

theorem Reached.compute_alike (h : Reached hooks total g order p) (id : CellId) :
    g.Alike (p.compute hooks total id).grid := by
  rw [compute_grid]
  exact (h.alike.trans (p.grid.alike_refresh id _)).dirty _

theorem Reached.formulaValue_compute (h : Reached hooks total g order p) (covered : g.Covered)
    {y : CellId} (notFilling : (g.cell y).isFilling = false) (hy : id ∉ (g.cell y).precedents)
    (draws : Formula.Draws) :
    (p.compute hooks total id).grid.formulaValue y draws = p.grid.formulaValue y draws := by
  have alike : p.grid.Alike (p.compute hooks total id).grid := by
    rw [compute_grid]
    exact (p.grid.alike_refresh id _).dirty _
  refine (h.alike.covered covered).formulaValue_eq alike ?_ ?_ draws
  · rw [h.alike.filling]
    exact notFilling
  · intro x hx
    rw [h.alike.precedents] at hx
    have other : x ≠ id := by
      rintro rfl
      exact hy hx
    rw [compute_grid]
    exact Grid.value_eq_of_cells (p.grid.cells_refresh_of_ne _ other)

theorem value_compute_of_ne {x : CellId} (h : x ≠ id) :
    (p.compute hooks total id).grid.value x = p.grid.value x := by
  rw [compute_grid]
  exact Grid.value_eq_of_cells (p.grid.cells_refresh_of_ne _ h)

theorem value_compute_self :
    (p.compute hooks total id).grid.value id =
      if (p.grid.cell id).isFilling then p.grid.value id
      else (p.grid.value id).keep (p.grid.formulaValue id (hooks.draws 0)) := by
  rw [compute_grid]
  exact Grid.value_refresh_self p.grid id _

theorem Reached.compute_filling (h : Reached hooks total g order p) (hid : id ∈ p.ready) :
    ∀ y ∈ order ++ [id], (g.cell y).isFilling = true →
      (p.compute hooks total id).grid.value y = g.value y := by
  intro y hy filling
  by_cases same : y = id
  · subst same
    rw [value_compute_self, h.alike.filling, if_pos filling]
    exact Grid.value_eq_of_cells (h.outside y (h.not_mem hid))
  · rw [value_compute_of_ne same]
    refine h.filling y ?_ filling
    simpa [same] using hy

theorem Reached.compute_value (h : Reached hooks total g order p) (covered : g.Covered)
    (hid : id ∈ p.ready) :
    ∀ y ∈ order ++ [id], (g.cell y).isFilling = false →
      (p.compute hooks total id).grid.value y =
        (g.value y).keep ((p.compute hooks total id).grid.formulaValue y (hooks.draws 0)) := by
  intro y hy notFilling
  by_cases same : y = id
  · subst same
    rw [h.formulaValue_compute covered notFilling (h.not_self hid), value_compute_self,
      h.alike.filling, if_neg (by simp [notFilling])]
    rw [Grid.value_eq_of_cells (h.outside y (h.not_mem hid))]
  · have earlier : y ∈ order := by simpa [same] using hy
    rw [h.formulaValue_compute covered notFilling (h.not_precedent hid earlier),
      value_compute_of_ne same]
    exact h.value covered y earlier notFilling

theorem Reached.compute_dirty (h : Reached hooks total g order p) (id x : CellId) :
    x ∈ (p.compute hooks total id).grid.dirty ↔ x ∈ g.dirty ∧ x ∉ order ++ [id] := by
  rw [compute_grid]
  show x ∈ p.grid.dirty.erase id ↔ _
  rw [Std.ExtTreeSet.mem_erase, h.dirty, List.mem_append, List.mem_singleton, Ne,
    Std.LawfulEqCmp.compare_eq_iff_eq, eq_comm (a := id)]
  tauto

theorem Reached.compute_blockers (h : Reached hooks total g order p) (forth : g.Forth)
    (id y : CellId) :
    (p.compute hooks total id).blockers[y]? =
      if y ∈ g.dirty then some (dirtyPrecedents (p.compute hooks total id).grid y) else none := by
  rw [Pass.compute_blockers, dirtyPrecedents_compute, h.blockers, h.alike.readers]
  by_cases reader : y ∈ (g.cell id).readers
  · rw [if_pos reader]
    split <;> rfl
  · -- A cell that is no reader does not wait for the cell.
    rw [if_neg reader]
    have free : id ∉ dirtyPrecedents p.grid y := by
      rw [mem_dirtyPrecedents, h.alike.precedents]
      exact fun blocked => reader (forth id y blocked.1)
    rw [erase_of_not_mem free]

theorem Reached.compute_ready (h : Reached hooks total g order p) (forth : g.Forth)
    (hid : id ∈ p.ready) (y : CellId) :
    y ∈ (p.compute hooks total id).ready ↔
      y ∈ (p.compute hooks total id).grid.dirty ∧
        dirtyPrecedents (p.compute hooks total id).grid y = ∅ := by
  rw [mem_compute_ready, dirtyPrecedents_compute, h.compute_dirty, h.blockers, h.alike.readers,
    h.ready, h.dirty]
  simp only [List.mem_append, List.mem_singleton, not_or]
  constructor
  · rintro (⟨other, ⟨dirty, later⟩, free⟩ | ⟨-, b, hb, blocked, last⟩)
    · rw [free]
      exact ⟨⟨dirty, later, other⟩, by simp⟩
    · obtain ⟨dirty, rfl⟩ : y ∈ g.dirty ∧ dirtyPrecedents p.grid y = b := by
        simpa [Option.ite_none_right_eq_some] using hb
      rw [mem_dirtyPrecedents, h.alike.precedents] at blocked
      refine ⟨⟨dirty, ?_, ?_⟩, last⟩
      · exact fun earlier => h.not_precedent hid earlier blocked.1
      · rintro rfl
        exact h.not_self hid blocked.1
  · rintro ⟨⟨dirty, later, other⟩, free⟩
    by_cases blocked : id ∈ dirtyPrecedents p.grid y
    · refine Or.inr ⟨?_, _, if_pos dirty, blocked, free⟩
      rw [mem_dirtyPrecedents, h.alike.precedents] at blocked
      exact forth id y blocked.1
    · rw [erase_of_not_mem blocked] at free
      exact Or.inl ⟨other, ⟨dirty, later⟩, free⟩

theorem Reached.compute_changed (h : Reached hooks total g order p) (hid : id ∈ p.ready) :
    (p.compute hooks total id).report.changed.toList =
      (order ++ [id]).filter fun y =>
        !(g.value y).same ((p.compute hooks total id).grid.value y) := by
  rw [(compute_report id hooks total p).2.2.2, h.changed, List.filter_append]
  have before : g.value id = p.grid.value id :=
    (Grid.value_eq_of_cells (h.outside id (h.not_mem hid))).symm
  congr 1
  · refine List.filter_congr ?_
    intro y hy
    rw [value_compute_of_ne]
    rintro rfl
    exact h.not_mem hid hy
  · have after : (p.compute hooks total id).grid.value id = (p.grid.refresh id (hooks.draws 0)).value id := by
      rw [compute_grid]
      rfl
    rw [List.filter_cons, List.filter_nil, before, after]
    cases (p.grid.value id).same ((p.grid.refresh id (hooks.draws 0)).value id) <;> rfl

/-- **A step of a pass.** -/
theorem Reached.compute (h : Reached hooks total g order p) (forth : g.Forth)
    (hid : id ∈ p.ready) : Reached hooks total g (order ++ [id]) (p.compute hooks total id) where
  steps := by rw [List.foldl_append, ← h.steps]; rfl
  nodup := by
    rw [List.nodup_append]
    refine ⟨h.nodup, List.pairwise_singleton _ id, ?_⟩
    rintro y hy _ hid' rfl
    rw [List.mem_singleton.mp hid'] at hy
    exact h.not_mem hid hy
  mem y hy := by
    rcases List.mem_append.mp hy with hy | hy
    · exact h.mem y hy
    · rw [List.mem_singleton.mp hy]
      exact ((h.dirty id).mp ((h.ready id).mp hid).1).1
  dirty := h.compute_dirty id
  closed y hy x hx dirty := by
    rcases List.mem_append.mp hy with hy | hy
    · exact List.mem_append_left _ (h.closed y hy x hx dirty)
    · rw [List.mem_singleton.mp hy] at hx
      exact List.mem_append_left _ (h.mem_of_ready hid hx dirty)
  sorted := by
    rw [List.pairwise_append]
    refine ⟨h.sorted, List.pairwise_singleton _ id, ?_⟩
    intro y hy x hx
    rw [List.mem_singleton.mp hx]
    exact h.not_precedent hid hy
  irrefl y hy := by
    rcases List.mem_append.mp hy with hy | hy
    · exact h.irrefl y hy
    · rw [List.mem_singleton.mp hy]
      exact h.not_self hid
  free y hy := by
    rcases List.mem_append.mp hy with hy | hy
    · exact h.free y hy
    · rw [List.mem_singleton.mp hy]
      intro stuck
      obtain ⟨x, hx, edge⟩ := Stuck.exists_before stuck
      exact h.free x (h.mem_of_ready hid edge (Grid.mem_dirty_of_stuck hx)) hx
  alike := h.compute_alike id
  outside x hx := by
    simp only [List.mem_append, List.mem_singleton, not_or] at hx
    rw [compute_grid]
    exact (p.grid.cells_refresh_of_ne _ hx.2).trans (h.outside x hx.1)
  filling := h.compute_filling hid
  value covered := h.compute_value covered hid
  blockers := h.compute_blockers forth id
  ready := h.compute_ready forth hid
  recomputed := by
    rw [(compute_report id hooks total p).1, h.recomputed, List.length_append]
    rfl
  cancelled := (compute_report id hooks total p).2.1.trans h.cancelled
  cycle := (compute_report id hooks total p).2.2.1.trans h.cycle
  changed := h.compute_changed hid

end Pass

end Spreadsheet
