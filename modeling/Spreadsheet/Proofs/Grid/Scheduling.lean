import Spreadsheet.Proofs.Grid.Pass
import Spreadsheet.Proofs.Grid.Tracing

/-!
# What a pass does

* `Pass.Reached.run`: a run ends where no cell is ready, or where it is cancelled.
* `Pass.Reached.mem_dirty_iff_stuck`: the cells that are left then are the greatest set of dirty cells
  each of which waits for one of the set.
* `Pass.Settled draws g order p`: all about the end `p` of a pass of `g` that was not cancelled and has
  computed the cells of `order`.
* `Grid.recompute_cases`: the two ways in which a pass ends.
* `Grid.Linked.exists_settled`: the end of a pass that is not cancelled.
-/

namespace Spreadsheet

namespace Pass

variable {hooks : Hooks} {total : Nat} {g : Grid} {order : List CellId} {p : Pass}

/-! ### Running a pass -/

theorem mem_of_size_le_length {s : CellSet} {ids : List CellId} (nodup : ids.Nodup)
    (mem : ∀ x ∈ ids, x ∈ s) (size : s.size ≤ ids.length) {x : CellId} (hx : x ∈ s) :
    x ∈ ids := by
  have sub : ids ⊆ s.toList := fun y hy => Std.ExtTreeSet.mem_toList.mpr (mem y hy)
  have perm := (nodup.subperm sub).perm_of_length_le (by rwa [Std.ExtTreeSet.length_toList])
  exact perm.mem_iff.mpr (Std.ExtTreeSet.mem_toList.mpr hx)

theorem nodup_toList_set (s : CellSet) : s.toList.Nodup := by
  refine (Std.ExtTreeSet.distinct_toList (t := s)).imp ?_
  rintro a _ distinct rfl
  exact distinct Std.ReflCmp.compare_self

theorem Reached.not_ready_of_full (h : Reached hooks total g order p)
    (full : g.dirty.size ≤ order.length) (x : CellId) : x ∉ p.ready := by
  intro ready
  obtain ⟨dirty, later⟩ := (h.dirty x).mp ((h.ready x).mp ready).1
  exact later (mem_of_size_le_length h.nodup h.mem full dirty)

/-- **A run ends** where no cell is ready, or where it is cancelled. -/
theorem Reached.run (forth : g.Forth) (n : Nat) (h : Reached hooks total g order p)
    (enough : g.dirty.size ≤ order.length + n) :
    ∃ order' q, Reached hooks total g order' q ∧
      ((run hooks total n p = q ∧ ∀ x, x ∉ q.ready) ∨
        ((∃ done, hooks.cancel done = true) ∧
          run hooks total n p = { q with report := { q.report with cancelled := true } })) := by
  induction n generalizing order p with
  | zero => exact ⟨order, p, h, Or.inl ⟨rfl, h.not_ready_of_full (by omega)⟩⟩
  | succ n ih =>
    rw [Pass.run]
    cases first : p.ready.toList.head? with
    | none =>
      refine ⟨order, p, h, Or.inl ⟨rfl, ?_⟩⟩
      intro x hx
      rw [List.head?_eq_none_iff] at first
      have mem := Std.ExtTreeSet.mem_toList.mpr hx
      rw [first] at mem
      exact absurd mem List.not_mem_nil
    | some id =>
      have hid : id ∈ p.ready := Std.ExtTreeSet.mem_toList.mp (List.mem_of_head? first)
      dsimp only
      split
      · exact ⟨order, p, h, Or.inr ⟨⟨_, ‹_›⟩, rfl⟩⟩
      · refine ih (h.compute forth hid) ?_
        rw [List.length_append, List.length_singleton]
        omega

/-- **What is left when no cell is ready**: the greatest set of dirty cells each of which waits for
one of the set. -/
theorem Reached.mem_dirty_iff_stuck (h : Reached hooks total g order p) (idle : ∀ x, x ∉ p.ready)
    (x : CellId) : x ∈ p.grid.dirty ↔ Stuck g.Edge {x | x ∈ g.dirty} x := by
  constructor
  · intro hx
    refine ⟨{y | y ∈ p.grid.dirty}, ?_, ?_, hx⟩
    · exact fun y hy => ((h.dirty y).mp hy).1
    · intro y hy
      have blocked : ¬ ∀ w, w ∉ dirtyPrecedents p.grid y := by
        intro none
        exact idle y ((h.ready y).mpr ⟨hy, Std.ExtTreeSet.eq_empty_iff_forall_not_mem.mpr none⟩)
      obtain ⟨w, hw⟩ := not_forall_not.mp blocked
      rw [mem_dirtyPrecedents, h.alike.precedents] at hw
      exact ⟨w, hw.2, hw.1⟩
  · intro stuck
    exact (h.dirty x).mpr ⟨Grid.mem_dirty_of_stuck stuck, fun computed => h.free x computed stuck⟩

/-! ### Giving up -/

theorem giveUp_grid (p : Pass) (id : CellId) :
    (p.giveUp id).grid = (p.grid.setValue id (circularValue (p.grid.formula id))).1 := rfl

theorem giveUp_report (p : Pass) (id : CellId) :
    (p.giveUp id).report.recomputed = p.report.recomputed ∧
      (p.giveUp id).report.cancelled = p.report.cancelled ∧
      (p.giveUp id).report.changed.toList = p.report.changed.toList ++
        [id].filter fun y => !(p.grid.value y).same ((p.giveUp id).grid.value y) := by
  have flag := Grid.snd_setValue p.grid id (circularValue (p.grid.formula id))
  have after : (p.giveUp id).grid.value id =
      (p.grid.value id).keep (circularValue (p.grid.formula id)) := by
    rw [giveUp_grid, Grid.value_setValue, if_pos rfl]
  rw [List.filter_cons, List.filter_nil, after, CellValue.same_keep]
  simp only [giveUp, setValue, flag]
  cases (p.grid.value id).same (circularValue (p.grid.formula id)) <;> simp

theorem foldl_giveUp_cells (ids : List CellId) (p : Pass) :
    (∀ x, x ∉ ids → (ids.foldl giveUp p).grid.cells[x]? = p.grid.cells[x]?) ∧
      ∀ x ∈ ids, (ids.foldl giveUp p).grid.value x = circularValue (p.grid.formula x) := by
  induction ids generalizing p with
  | nil => exact ⟨fun _ _ => rfl, nofun⟩
  | cons id ids ih =>
    obtain ⟨outside, circular⟩ := ih (p.giveUp id)
    rw [List.foldl_cons]
    constructor
    · intro x hx
      simp only [List.mem_cons, not_or] at hx
      rw [outside x hx.2, giveUp_grid, Grid.cells_setValue, if_neg hx.1]
    · intro x hx
      by_cases later : x ∈ ids
      · rw [circular x later, giveUp_grid, Grid.formula_setValue]
      · have here : x = id := (List.mem_cons.mp hx).resolve_right later
        subst here
        rw [Grid.value_eq_of_cells (outside x later), giveUp_grid, Grid.value_setValue, if_pos rfl,
          circularValue, CellValue.keep_text]

theorem foldl_giveUp_grid (ids : List CellId) (p : Pass)
    (filling : ∀ id ∈ ids, (p.grid.cell id).isFilling = false) :
    p.grid.Alike (ids.foldl giveUp p).grid ∧
      (∀ x, x ∉ ids → (ids.foldl giveUp p).grid.cells[x]? = p.grid.cells[x]?) ∧
      ∀ x ∈ ids, (ids.foldl giveUp p).grid.value x = circularValue (p.grid.formula x) := by
  refine ⟨?_, foldl_giveUp_cells ids p⟩
  induction ids generalizing p with
  | nil => exact .refl _
  | cons id ids ih =>
    have step : p.grid.Alike (p.giveUp id).grid := by
      rw [giveUp_grid]
      exact Grid.alike_setValue _ _ _ (filling id List.mem_cons_self) nofun
    refine step.trans (ih (p.giveUp id) fun x hx => ?_)
    rw [step.filling]
    exact filling x (List.mem_cons_of_mem _ hx)

theorem foldl_giveUp_counts (ids : List CellId) (p : Pass) :
    (ids.foldl giveUp p).report.recomputed = p.report.recomputed ∧
      (ids.foldl giveUp p).report.cancelled = p.report.cancelled := by
  induction ids generalizing p with
  | nil => exact ⟨rfl, rfl⟩
  | cons id ids ih =>
    obtain ⟨recomputed, cancelled, -⟩ := giveUp_report p id
    exact ⟨(ih _).1.trans recomputed, (ih _).2.trans cancelled⟩

theorem foldl_giveUp_changed (ids : List CellId) (p : Pass) (nodup : ids.Nodup)
    (filling : ∀ id ∈ ids, (p.grid.cell id).isFilling = false) :
    (ids.foldl giveUp p).report.changed.toList = p.report.changed.toList ++
      ids.filter fun y => !(p.grid.value y).same ((ids.foldl giveUp p).grid.value y) := by
  induction ids generalizing p with
  | nil => simp
  | cons id ids ih =>
    obtain ⟨fresh, nodup⟩ := List.nodup_cons.mp nodup
    have step : p.grid.Alike (p.giveUp id).grid := by
      rw [giveUp_grid]
      exact Grid.alike_setValue _ _ _ (filling id List.mem_cons_self) nofun
    have filling' : ∀ x ∈ ids, ((p.giveUp id).grid.cell x).isFilling = false := by
      intro x hx
      rw [step.filling]
      exact filling x (List.mem_cons_of_mem _ hx)
    rw [List.foldl_cons]
    show _ = _ ++ ([id] ++ ids).filter _
    rw [ih (p.giveUp id) nodup filling', (giveUp_report p id).2.2, List.append_assoc,
      List.filter_append]
    congr 2
    · refine List.filter_congr ?_
      intro y hy
      rw [List.mem_singleton.mp hy,
        Grid.value_eq_of_cells ((foldl_giveUp_cells ids _).1 id fresh)]
    · refine List.filter_congr ?_
      intro y hy
      have other : y ≠ id := by
        rintro rfl
        exact fresh hy
      rw [giveUp_grid p, Grid.value_setValue, if_neg other]

/-! ### The end of a pass -/

theorem settle_eq (p : Pass) (notCancelled : p.report.cancelled = false) :
    p.settle.grid = { (p.grid.dirty.toList.foldl giveUp p).grid with dirty := ∅ } ∧
      p.settle.report.recomputed =
        (p.grid.dirty.toList.foldl giveUp p).report.recomputed + p.grid.dirty.size ∧
      p.settle.report.cancelled = (p.grid.dirty.toList.foldl giveUp p).report.cancelled ∧
      p.settle.report.changed = (p.grid.dirty.toList.foldl giveUp p).report.changed ∧
      p.settle.report.cycle =
        if p.grid.dirty.isEmpty then p.report.cycle else some p.grid.dirty.toList := by
  rw [settle, notCancelled]
  cases empty : p.grid.dirty.isEmpty with
  | true =>
    have none : p.grid.dirty = ∅ := Std.ExtTreeSet.isEmpty_iff.mp empty
    have nil : p.grid.dirty.toList = [] := by rw [none]; rfl
    have same : ({ p.grid with dirty := ∅ } : Grid) = p.grid := by rw [← none]
    rw [nil, none]
    exact ⟨same.symm, rfl, rfl, rfl, rfl⟩
  | false =>
    have size : p.grid.dirty.toList.length = p.grid.dirty.size := Std.ExtTreeSet.length_toList
    refine ⟨rfl, ?_, rfl, rfl, rfl⟩
    rw [← size]
    rfl

/-- The pass of `g` that was not cancelled and has computed the cells of `order` with some draws ends
in the state `p`. -/
structure Settled (draws : Formula.Draws) (g : Grid) (order : List CellId) (p : Pass) : Prop where
  alike : g.Alike p.grid
  clean : p.grid.dirty = ∅
  mem : ∀ y, y ∈ order ↔ y ∈ g.dirty ∧ ¬ Stuck g.Edge {x | x ∈ g.dirty} y
  outside : ∀ x, x ∉ g.dirty → p.grid.cells[x]? = g.cells[x]?
  filling : ∀ y ∈ order, (g.cell y).isFilling = true → p.grid.value y = g.value y
  value : g.Covered → ∀ y ∈ order, (g.cell y).isFilling = false →
    p.grid.value y = (g.value y).keep (p.grid.formulaValue y draws)
  circular : ∀ y, Stuck g.Edge {x | x ∈ g.dirty} y → p.grid.value y = circularValue (g.formula y)
  recomputed : p.report.recomputed = g.dirty.size
  cancelled : p.report.cancelled = false
  cycle : ∀ y, y ∈ p.report.cycle.getD [] ↔ Stuck g.Edge {x | x ∈ g.dirty} y
  cyclic : p.report.cycle.isSome = true ↔ ∃ y, Stuck g.Edge {x | x ∈ g.dirty} y
  distinct : p.report.changed.toList.Nodup
  changed : ∀ y, y ∈ p.report.changed.toList ↔
    y ∈ g.dirty ∧ (g.value y).same (p.grid.value y) = false

/-- The computed cells and those that are given up are the dirty cells, each once. -/
theorem Reached.perm_dirty (h : Reached hooks total g order p) :
    (order ++ p.grid.dirty.toList).Perm g.dirty.toList := by
  refine (List.perm_ext_iff_of_nodup ?_ (nodup_toList_set _)).mpr ?_
  · refine List.nodup_append.mpr ⟨h.nodup, nodup_toList_set _, ?_⟩
    rintro x hx _ hx' rfl
    exact ((h.dirty x).mp (Std.ExtTreeSet.mem_toList.mp hx')).2 hx
  · intro x
    rw [List.mem_append, Std.ExtTreeSet.mem_toList, Std.ExtTreeSet.mem_toList, h.dirty]
    by_cases computed : x ∈ order
    · simp [computed, h.mem x computed]
    · simp [computed]

theorem Reached.not_filling (h : Reached hooks total g order p) (linked : g.Linked)
    (idle : ∀ x, x ∉ p.ready) (x : CellId) (hx : x ∈ p.grid.dirty.toList) :
    (p.grid.cell x).isFilling = false := by
  rw [Std.ExtTreeSet.mem_toList, h.mem_dirty_iff_stuck idle] at hx
  obtain ⟨w, -, edge⟩ := Stuck.exists_before hx
  rw [h.alike.filling, ← Bool.not_eq_true]
  intro filling
  rw [Grid.Edge, linked.inert x filling] at edge
  exact Std.ExtTreeSet.not_mem_empty edge

theorem Reached.mem_cycle_settle (h : Reached hooks total g order p) (idle : ∀ x, x ∉ p.ready)
    (y : CellId) :
    y ∈ p.settle.report.cycle.getD [] ↔ Stuck g.Edge {x | x ∈ g.dirty} y := by
  rw [(settle_eq p h.cancelled).2.2.2.2, ← h.mem_dirty_iff_stuck idle]
  split
  · rename_i empty
    rw [h.cycle, Std.ExtTreeSet.isEmpty_iff.mp empty]
    simp
  · exact Std.ExtTreeSet.mem_toList

theorem Reached.circular_settle (h : Reached hooks total g order p) (idle : ∀ x, x ∉ p.ready)
    {y : CellId} (waits : Stuck g.Edge {x | x ∈ g.dirty} y) :
    p.settle.grid.value y = circularValue (g.formula y) := by
  rw [(settle_eq p h.cancelled).1, ← h.alike.formula]
  refine (foldl_giveUp_cells _ p).2 y ?_
  rwa [Std.ExtTreeSet.mem_toList, h.mem_dirty_iff_stuck idle]

section

variable (h : Reached hooks total g order p)
  (left : ∀ x ∈ p.grid.dirty.toList, (p.grid.cell x).isFilling = false)

include h left

/-- A computed cell keeps the value that its formula has when the others are given up. -/
theorem Reached.formulaValue_settle (covered : g.Covered) {y : CellId} (hy : y ∈ order)
    (notFilling : (g.cell y).isFilling = false) (draws : Formula.Draws) :
    p.settle.grid.formulaValue y draws = p.grid.formulaValue y draws := by
  obtain ⟨alike, outside, -⟩ := foldl_giveUp_grid _ p left
  rw [(settle_eq p h.cancelled).1]
  refine (h.alike.covered covered).formulaValue_eq (alike.dirty ∅) ?_ ?_ draws
  · rw [h.alike.filling]
    exact notFilling
  · intro x hx
    rw [h.alike.precedents] at hx
    refine Grid.value_eq_of_cells (outside x ?_)
    rw [Std.ExtTreeSet.mem_toList, h.dirty]
    exact fun ⟨dirty, later⟩ => later (h.closed y hy x hx dirty)

theorem Reached.value_settle {y : CellId} (hy : y ∉ p.grid.dirty) :
    p.settle.grid.value y = p.grid.value y := by
  obtain ⟨-, outside, -⟩ := foldl_giveUp_grid _ p left
  rw [(settle_eq p h.cancelled).1]
  exact Grid.value_eq_of_cells (outside y fun later => hy (Std.ExtTreeSet.mem_toList.mp later))

theorem Reached.changed_settle :
    p.settle.report.changed.toList =
      (order ++ p.grid.dirty.toList).filter fun y =>
        !(g.value y).same (p.settle.grid.value y) := by
  rw [(settle_eq p h.cancelled).2.2.2.1, foldl_giveUp_changed _ p (nodup_toList_set _) left, h.changed, List.filter_append]
  congr 1
  · refine List.filter_congr ?_
    intro y hy
    rw [h.value_settle left fun later => ((h.dirty y).mp later).2 hy]
  · refine List.filter_congr ?_
    intro y hy
    have later := ((h.dirty y).mp (Std.ExtTreeSet.mem_toList.mp hy)).2
    rw [(settle_eq p h.cancelled).1, Grid.value_eq_of_cells (h.outside y later)]
    rfl

/-- **The end of a pass** that was not cancelled, if the cells that are given up have not filled
others. -/
theorem Reached.settle_of_left (idle : ∀ x, x ∉ p.ready) :
    Settled (hooks.draws 0) g order p.settle := by
  obtain ⟨alike, outside, -⟩ := foldl_giveUp_grid _ p left
  obtain ⟨recomputed, cancelled⟩ := foldl_giveUp_counts p.grid.dirty.toList p
  obtain ⟨grid, recomputed', cancelled', -, cycle⟩ := settle_eq p h.cancelled
  have stuck := h.mem_dirty_iff_stuck idle
  have perm := h.perm_dirty
  have changed := h.changed_settle left
  refine ⟨?_, ?_, ?_, ?_, ?_, ?_, ?_, ?_, ?_, ?_, ?_, ?_, ?_⟩
  · rw [grid]
    exact h.alike.trans (alike.dirty ∅)
  · rw [grid]
  · intro y
    rw [← stuck, h.dirty]
    have := h.mem y
    tauto
  · intro x hx
    rw [grid]
    show (p.grid.dirty.toList.foldl giveUp p).grid.cells[x]? = _
    rw [outside x fun later => hx ((h.dirty x).mp (Std.ExtTreeSet.mem_toList.mp later)).1]
    exact h.outside x fun computed => hx (h.mem x computed)
  · intro y hy filling
    rw [h.value_settle left fun later => ((h.dirty y).mp later).2 hy]
    exact h.filling y hy filling
  · intro covered y hy notFilling
    rw [h.value_settle left fun later => ((h.dirty y).mp later).2 hy,
      h.formulaValue_settle left covered hy notFilling]
    exact h.value covered y hy notFilling
  · exact fun y waits => h.circular_settle idle waits
  · have length := perm.length_eq
    rw [List.length_append, Std.ExtTreeSet.length_toList, Std.ExtTreeSet.length_toList] at length
    rw [recomputed', recomputed, h.recomputed, length]
  · rw [cancelled', cancelled, h.cancelled]
  · exact h.mem_cycle_settle idle
  · rw [cycle]
    split
    · rename_i empty
      rw [h.cycle]
      refine ⟨nofun, ?_⟩
      rintro ⟨y, waits⟩
      rw [← stuck, Std.ExtTreeSet.isEmpty_iff.mp empty] at waits
      exact absurd waits Std.ExtTreeSet.not_mem_empty
    · rename_i nonempty
      refine ⟨fun _ => ?_, fun _ => rfl⟩
      rw [Std.ExtTreeSet.isEmpty_iff, Std.ExtTreeSet.eq_empty_iff_forall_not_mem] at nonempty
      obtain ⟨y, hy⟩ := not_forall_not.mp nonempty
      exact ⟨y, (stuck y).mp hy⟩
  · rw [changed]
    exact (perm.nodup_iff.mpr (nodup_toList_set _)).filter _
  · intro y
    rw [changed, List.mem_filter, perm.mem_iff, Std.ExtTreeSet.mem_toList, Bool.not_eq_true']

end

/-- **The end of a pass** that was not cancelled. -/
theorem Reached.settle (h : Reached hooks total g order p) (linked : g.Linked)
    (idle : ∀ x, x ∉ p.ready) :
    Settled (hooks.draws 0) g order p.settle :=
  h.settle_of_left (h.not_filling linked idle) idle

theorem Reached.before (h : Reached hooks total g order p) (before : List CellId) (y : CellId)
    (after : List CellId) (split : order = before ++ y :: after) :
    ∀ x ∈ (g.cell y).precedents, x ∈ g.dirty → x ∈ before := by
  intro x hx dirty
  have hy : y ∈ order := by rw [split]; simp
  have mem := h.closed y hy x hx dirty
  have sorted := h.sorted
  rw [split, List.pairwise_append] at sorted
  rw [split, List.mem_append, List.mem_cons] at mem
  rcases mem with mem | rfl | mem
  · exact mem
  · exact absurd hx (h.irrefl x hy)
  · exact absurd hx ((List.pairwise_cons.mp sorted.2.1).1 x mem)

end Pass

/-- **The two ends of a pass.** -/
theorem Grid.recompute_cases {g : Grid} (forth : g.Forth) (hooks : Hooks) :
    (∃ order p, Pass.Reached hooks g.dirty.size g order p ∧ (∀ x, x ∉ p.ready) ∧
      Pass.run hooks g.dirty.size g.dirty.size (Pass.start g) = p ∧
      g.recompute hooks = (p.settle.grid, p.settle.report)) ∨
    ((∃ done, hooks.cancel done = true) ∧ ∃ order p, Pass.Reached hooks g.dirty.size g order p ∧
      (g.recompute hooks).1 = p.grid ∧ (g.recompute hooks).2.cancelled = true) := by
  obtain ⟨order, p, reached, ⟨ended, idle⟩ | ⟨cancel, cancelled⟩⟩ :=
    (Pass.reached_start hooks g.dirty.size g).run forth g.dirty.size (by simp)
  · refine Or.inl ⟨order, p, reached, idle, ended, ?_⟩
    rw [recompute, ended]
  · refine Or.inr ⟨cancel, order, p, reached, ?_, ?_⟩
    · rw [recompute, cancelled]
      rfl
    · rw [recompute, cancelled]
      rfl

namespace Grid

variable {g : Grid} {hooks : Hooks}

theorem Wired.linked (wired : g.Wired) : g.Linked := ⟨wired.forth, wired.inert⟩

theorem Traced.covered (traced : g.Traced) : g.Covered :=
  fun y notFilling x reads => (traced y notFilling x).mpr reads

/-- A pass leaves alone what is not dirty, whether it is cancelled or not. -/
theorem recompute_outside (linked : g.Linked) (hooks : Hooks) {x : CellId} (clean : x ∉ g.dirty) :
    (g.recompute hooks).1.cells[x]? = g.cells[x]? := by
  rcases recompute_cases linked.forth hooks with
    ⟨order, p, reached, idle, -, ends⟩ | ⟨-, order, p, reached, ends, -⟩ <;> rw [ends]
  · exact (reached.settle linked idle).outside x clean
  · exact reached.outside x fun computed => clean (reached.mem x computed)

theorem Forth.not_cancelled (forth : g.Forth) (never : ∀ done, hooks.cancel done = false) :
    (g.recompute hooks).2.cancelled = false := by
  rcases recompute_cases forth hooks with ⟨order, p, reached, idle, -, ends⟩ | ⟨⟨n, hn⟩, -⟩
  · rw [ends]
    exact ((Pass.settle_eq p reached.cancelled).2.2.1.trans (Pass.foldl_giveUp_counts _ p).2).trans
      reached.cancelled
  · rw [never] at hn
    exact absurd hn nofun

theorem recompute_not_cancelled (linked : g.Linked) (never : ∀ done, hooks.cancel done = false) :
    (g.recompute hooks).2.cancelled = false :=
  Forth.not_cancelled linked.forth never

section

variable (completed : (g.recompute hooks).2.cancelled = false)

include completed

/-- A pass that is not cancelled goes on until no cell is ready. -/
theorem exists_reached (forth : g.Forth) : ∃ order p,
    Pass.Reached hooks g.dirty.size g order p ∧ (∀ x, x ∉ p.ready) ∧
      g.recompute hooks = (p.settle.grid, p.settle.report) := by
  rcases recompute_cases forth hooks with
    ⟨order, p, reached, idle, -, ends⟩ | ⟨-, _, _, -, -, cancelled⟩
  · exact ⟨order, p, reached, idle, ends⟩
  · exact absurd (cancelled.symm.trans completed) nofun

theorem mem_cycle_recompute (forth : g.Forth) (y : CellId) :
    y ∈ (g.recompute hooks).2.cycle.getD [] ↔ Stuck g.Edge {x | x ∈ g.dirty} y := by
  obtain ⟨order, p, reached, idle, ends⟩ := exists_reached completed forth
  rw [ends]
  exact reached.mem_cycle_settle idle y

theorem value_recompute_of_stuck (forth : g.Forth) {y : CellId}
    (stuck : Stuck g.Edge {x | x ∈ g.dirty} y) :
    (g.recompute hooks).1.value y = circularValue (g.formula y) := by
  obtain ⟨order, p, reached, idle, ends⟩ := exists_reached completed forth
  rw [ends]
  exact reached.circular_settle idle stuck

/-- A pass that is not cancelled settles, if the cells that are given up have not filled others. -/
theorem Forth.exists_settled (forth : g.Forth)
    (left : ∀ y, Stuck g.Edge {x | x ∈ g.dirty} y → (g.cell y).isFilling = false) :
    ∃ order p, Pass.Settled (hooks.draws 0) g order p ∧ g.recompute hooks = (p.grid, p.report) := by
  obtain ⟨order, p, reached, idle, ends⟩ := exists_reached completed forth
  refine ⟨order, p.settle, reached.settle_of_left (fun x hx => ?_) idle, ends⟩
  rw [Std.ExtTreeSet.mem_toList, reached.mem_dirty_iff_stuck idle] at hx
  rw [reached.alike.filling]
  exact left x hx

theorem Linked.exists_settled (linked : g.Linked) :
    ∃ order p, Pass.Settled (hooks.draws 0) g order p ∧ g.recompute hooks = (p.grid, p.report) := by
  obtain ⟨order, p, reached, idle, ends⟩ := exists_reached completed linked.forth
  exact ⟨order, p.settle, reached.settle linked idle, ends⟩

end

/-- **A pass that is not cancelled** ends with nothing dirty.  The cells of its cycle are the greatest
set of dirty cells each of which waits for one of the set, and they say so.  The other dirty cells are
computed one by one, each after the dirty cells that it waits for, and have the values that their
formulas have in the end.  All else stays, and the report counts the cells and lists those whose
values are not the same as before. -/
theorem recompute_of_not_cancelled
    (forth : ∀ x y, x ∈ (g.cell y).precedents → y ∈ (g.cell x).readers)
    (inert : ∀ y, (g.cell y).isFilling = true → (g.cell y).precedents = ∅)
    (covered : ∀ y, (g.cell y).isFilling = false → ∀ x,
      Formula.Reads y.sheet g.directory (g.formula y) x → x ∈ (g.cell y).precedents)
    (notCancelled : (g.recompute hooks).2.cancelled = false) :
    let D : Set CellId := {x | x ∈ g.dirty}
    let g' := (g.recompute hooks).1
    let report := (g.recompute hooks).2
    g'.dirty = ∅ ∧ report.recomputed = g.dirty.size ∧
      (∀ x, x ∈ report.cycle.getD [] ↔ Stuck g.Edge D x) ∧
      (∀ x, Stuck g.Edge D x ↔ BehindCycle (Within D g.Edge) x) ∧
      (report.cycle.isSome = true ↔ ∃ x, Stuck g.Edge D x) ∧
      (∀ x, Stuck g.Edge D x → g'.value x = circularValue (g.formula x)) ∧
      (∃ order : List CellId, order.Nodup ∧ (∀ y, y ∈ order ↔ y ∈ D ∧ ¬ Stuck g.Edge D y) ∧
        (∀ before y after, order = before ++ y :: after →
          ∀ x ∈ (g.cell y).precedents, x ∈ D → x ∈ before) ∧
        Pass.run hooks g.dirty.size g.dirty.size (Pass.start g) =
          order.foldl (Pass.compute hooks g.dirty.size) (Pass.start g)) ∧
      (∀ y ∈ D, ¬ Stuck g.Edge D y → (g.cell y).isFilling = false →
        g'.value y = (g.value y).keep (g'.formulaValue y (hooks.draws 0))) ∧
      (∀ x ∉ D, g'.cells[x]? = g.cells[x]?) ∧ g.Alike g' ∧
      report.changed.toList.Nodup ∧
      (∀ y, y ∈ report.changed.toList ↔ y ∈ D ∧ (g.value y).same (g'.value y) = false) := by
  intro D g' report
  rcases recompute_cases forth hooks with
    ⟨order, p, reached, idle, ended, ends⟩ | ⟨-, _, _, -, -, cancelled⟩
  · have settled := reached.settle ⟨forth, inert⟩ idle
    have hg : g' = p.settle.grid := congrArg Prod.fst ends
    have hreport : report = p.settle.report := congrArg Prod.snd ends
    rw [hg, hreport]
    refine ⟨settled.clean, settled.recomputed, settled.cycle, ?_, settled.cyclic, settled.circular,
      ⟨order, reached.nodup, settled.mem, reached.before, ended.trans reached.steps⟩, ?_,
      settled.outside, settled.alike, settled.distinct, settled.changed⟩
    · intro x
      refine stuck_iff_behindCycle (Set.Finite.subset (List.finite_toSet g.dirty.toList) ?_)
      exact fun x hx => Std.ExtTreeSet.mem_toList.mpr hx
    · intro y hy free notFilling
      exact settled.value covered y ((settled.mem y).mpr ⟨hy, free⟩) notFilling
  · rw [notCancelled] at cancelled
    exact absurd cancelled nofun

/-- Two cells that read each other, a cell behind them, and one that reads only a number. -/
def knot : Grid :=
  [(⟨0, 1, 1⟩, "B1+1"), (⟨0, 1, 2⟩, "A1"), (⟨0, 1, 3⟩, "SUM(A1:B1)"), (⟨0, 2, 1⟩, "2"),
    (⟨0, 2, 2⟩, "A2*3")].foldl (fun g (id, formula) => g.store id (.ofFormula formula)) (new {})

theorem recompute_of_not_cancelled_knot :
    (knot.recompute {}).2.cancelled = false ∧ (knot.recompute {}).1.dirty = ∅ ∧
      (∀ x, x ∈ (knot.recompute {}).2.cycle.getD [] ↔
        Stuck knot.Edge {x | x ∈ knot.dirty} x) ∧
      (knot.recompute {}).2.cycle = some [⟨0, 1, 1⟩, ⟨0, 1, 2⟩, ⟨0, 1, 3⟩] ∧
      (knot.recompute {}).1.value ⟨0, 2, 2⟩ = .number 6 := by
  have wired : knot.Wired :=
    (((((wired_new {}).store _ _).store _ _).store _ _).store _ _).store _ _
  have traced : knot.Traced :=
    (((((traced_new {}).store _ _).store _ _).store _ _).store _ _).store _ _
  have notCancelled : (knot.recompute {}).2.cancelled = false :=
    recompute_not_cancelled wired.linked fun _ => rfl
  have all := recompute_of_not_cancelled wired.forth wired.inert traced.covered notCancelled
  exact ⟨notCancelled, all.1, all.2.2.1, by decide +kernel, by decide +kernel⟩

end Grid

end Spreadsheet
