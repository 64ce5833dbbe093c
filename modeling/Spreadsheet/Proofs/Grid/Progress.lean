import Spreadsheet.Proofs.Grid.Scheduling

/-!
# How far a pass says it has come

A pass counts the cells that it computes and reports its progress at some of these counts.  The cells
that are left when no cell is ready are counted together at the end, and nothing is reported then.
None of this depends on the edges of the grid.

* `Pass.reports options total done`: the reports of a pass that computes `done` of `total` cells.
* `Pass.Counted`: the counts and the reports of a pass before it settles.
* `Pass.Counted.compute` and `Pass.Counted.run`: each step keeps them right, and so does a run.
* `Grid.progress_recompute`: what a pass that is not cancelled has reported.
-/

namespace Spreadsheet

namespace Pass

/-- The reports of a pass that computes `done` of its `total` cells one by one. -/
def reports (options : Options) (total done : Nat) : List Progress :=
  ((List.range' 1 done).filter (isReported options total)).map (⟨·, total⟩)

section

variable (options : Options) (total done : Nat)

theorem reports_succ :
    reports options total (done + 1) = reports options total done ++
      if isReported options total (done + 1) then [⟨done + 1, total⟩] else [] := by
  rw [reports, List.range'_1_concat, List.filter_append, List.map_append, Nat.add_comm 1 done]
  cases reported : isReported options total (done + 1) with
  | true => simp [reports, reported]
  | false => simp [reports, reported]

theorem map_done_reports : (reports options total done).map Progress.done =
    (List.range' 1 done).filter (isReported options total) := by
  rw [reports, List.map_map]
  exact List.map_id _

theorem isReported_iff (k : Nat) :
    isReported options total k = true ↔ options.progressMinCells < total ∧
      (max options.progressEvery 1 ∣ k ∨ k = total) := by
  simp only [isReported, Bool.and_eq_true, Bool.or_eq_true, decide_eq_true_eq, beq_iff_eq,
    Nat.dvd_iff_mod_eq_zero]

theorem mem_map_done_reports (k : Nat) :
    k ∈ (reports options total done).map Progress.done ↔
      options.progressMinCells < total ∧ 1 ≤ k ∧ k ≤ done ∧
        (max options.progressEvery 1 ∣ k ∨ k = total) := by
  rw [map_done_reports, List.mem_filter, List.mem_range'_1, isReported_iff, Nat.lt_one_add_iff]
  tauto

theorem pairwise_reports :
    ((reports options total done).map Progress.done).Pairwise (· < ·) := by
  rw [map_done_reports]
  exact List.Pairwise.filter _ List.pairwise_lt_range'

theorem total_of_mem_reports {p : Progress} (mem : p ∈ reports options total done) :
    p.total = total := by
  obtain ⟨k, -, rfl⟩ := List.mem_map.mp mem
  rfl

end

theorem getLast?_reports_iff {options : Options} {total done : Nat} (within : done ≤ total)
    (long : options.progressMinCells < total) :
    ((reports options total done).map Progress.done).getLast? = some total ↔ done = total := by
  constructor
  · intro last
    have mem := List.mem_of_getLast? last
    rw [mem_map_done_reports] at mem
    omega
  · rintro rfl
    obtain ⟨n, rfl⟩ : ∃ n, done = n + 1 := ⟨done - 1, by omega⟩
    have reported : isReported options (n + 1) (n + 1) = true :=
      (isReported_iff _ _ _).mpr ⟨long, Or.inr rfl⟩
    rw [reports_succ, if_pos reported, List.map_append]
    exact List.getLast?_concat

/-! ### Counting the cells of a pass -/

variable {hooks : Hooks} {total : Nat} {g : Grid} {p : Pass} {id : CellId}

/-- The counts and the reports of a pass of `g` before it settles, whatever the edges of `g` are. -/
structure Counted (hooks : Hooks) (total : Nat) (g : Grid) (p : Pass) : Prop where
  options : p.grid.options = g.options
  /-- A cell that is ready is still to be computed and waits for nothing, -/
  ready : ∀ x ∈ p.ready, x ∈ p.grid.dirty ∧ p.blockers[x]? = some ∅
  /-- and a cell that waits for something is still to be computed. -/
  waits : ∀ x b, p.blockers[x]? = some b → b ≠ ∅ → x ∈ p.grid.dirty
  count : p.report.recomputed + p.grid.dirty.size = total
  progress : p.report.progress.toList =
    if hooks.progress then reports g.options total p.report.recomputed else []
  cycle : p.report.cycle = none

theorem counted_start (hooks : Hooks) (g : Grid) : Counted hooks g.dirty.size g (start g) where
  options := rfl
  ready x mem := by
    change x ∈ g.dirty.filter (fun id => (dirtyPrecedents g id).isEmpty) at mem
    rw [Std.ExtTreeSet.mem_filter] at mem
    obtain ⟨dirty, free⟩ := mem
    rw [Std.ExtTreeSet.get_eq, Std.ExtTreeSet.isEmpty_iff] at free
    rw [start_blockers, if_pos dirty, free]
    exact ⟨dirty, rfl⟩
  waits x b found _ := by
    rw [start_blockers] at found
    exact (Option.ite_none_right_eq_some.mp found).1
  count := Nat.zero_add _
  progress := by
    show [] = _
    split <;> rfl
  cycle := rfl

theorem compute_progress (hooks : Hooks) (total : Nat) (p : Pass) (id : CellId) :
    (p.compute hooks total id).report.progress.toList = p.report.progress.toList ++
      if hooks.progress && isReported p.grid.options total (p.report.recomputed + 1) then
        [⟨p.report.recomputed + 1, total⟩] else [] := by
  rw [compute_eq, foldl_release_report, take]
  cases p.grid.computed? id (hooks.draws 0) with
  | none => dsimp only; split <;> simp
  | some value =>
    have options : (p.setValue id value).grid.options = p.grid.options := by
      show (p.grid.setValue id value).1.options = _
      rw [Grid.setValue]
      split <;> rfl
    have kept : (p.setValue id value).report.recomputed = p.report.recomputed ∧
        (p.setValue id value).report.progress = p.report.progress := ⟨rfl, rfl⟩
    dsimp only
    rw [options, kept.1, kept.2]
    split <;> simp

/-- **Computing a ready cell** counts it and reports the count if it is to be reported. -/
theorem Counted.compute (h : Counted hooks total g p) (hid : id ∈ p.ready) :
    Counted hooks total g (p.compute hooks total id) := by
  obtain ⟨dirty, unblocked⟩ := h.ready id hid
  obtain ⟨recomputed, -, cycle, -⟩ := compute_report id hooks total p
  have left : (p.compute hooks total id).grid.dirty = p.grid.dirty.erase id := by rw [compute_grid]
  have stays : ∀ x, x ≠ id → x ∈ p.grid.dirty → x ∈ (p.compute hooks total id).grid.dirty := by
    intro x other mem
    rw [left, Std.ExtTreeSet.mem_erase, ne_eq, Std.LawfulEqCmp.compare_eq_iff_eq]
    exact ⟨Ne.symm other, mem⟩
  -- The computed cell itself waits for nothing.
  have differs : ∀ x b, p.blockers[x]? = some b → b ≠ ∅ → x ≠ id := by
    rintro x b found blocked rfl
    rw [unblocked] at found
    exact blocked (Option.some.inj found).symm
  constructor
  case cycle => exact cycle.trans h.cycle
  case options =>
    rw [compute_grid]
    exact (p.grid.alike_refresh id _).options.trans h.options
  case ready =>
    intro x mem
    rw [compute_blockers]
    rcases (mem_compute_ready id hooks total p x).mp mem with
      ⟨other, mem⟩ | ⟨reader, b, found, blocked, last⟩
    · obtain ⟨mem, free⟩ := h.ready x mem
      refine ⟨stays x other mem, ?_⟩
      rw [free]
      split <;> simp
    · have nonempty : b ≠ ∅ := by
        rintro rfl
        exact Std.ExtTreeSet.not_mem_empty blocked
      refine ⟨stays x (differs x b found nonempty) (h.waits x b found nonempty), ?_⟩
      rw [if_pos reader, found, Option.map_some, last]
  case waits =>
    intro x b found blocked
    rw [compute_blockers] at found
    obtain ⟨b', found', nonempty⟩ : ∃ b', p.blockers[x]? = some b' ∧ b' ≠ ∅ := by
      split at found
      · obtain ⟨b', found', rfl⟩ := Option.map_eq_some_iff.mp found
        refine ⟨b', found', ?_⟩
        rintro rfl
        exact blocked (by simp)
      · exact ⟨b, found, blocked⟩
    exact stays x (differs x b' found' nonempty) (h.waits x b' found' nonempty)
  case count =>
    have size : (p.grid.dirty.erase id).size = p.grid.dirty.size - 1 := by
      rw [Std.ExtTreeSet.size_erase, if_pos (Std.ExtTreeSet.contains_iff_mem.mpr dirty)]
    have positive : p.grid.dirty.size ≠ 0 := by
      intro zero
      rw [Std.ExtTreeSet.eq_empty_iff_size_eq_zero.mpr zero] at dirty
      exact Std.ExtTreeSet.not_mem_empty dirty
    have count := h.count
    rw [left, recomputed, size]
    omega
  case progress =>
    rw [compute_progress, recomputed, h.progress, h.options]
    cases hooks.progress with
    | true => rw [if_pos rfl, if_pos rfl, Bool.true_and, reports_succ]
    | false => simp

/-- **A run** counts the cells that it computes and reports some of the counts. -/
theorem Counted.run (h : Counted hooks total g p) (n : Nat) :
    Counted hooks total g (p.run hooks total n) :=
  run_induction h (fun _ _ hid before => before.compute hid)
    (fun _ before => ⟨before.options, before.ready, before.waits, before.count, before.progress,
      before.cycle⟩) n

/-! ### Settling -/

theorem foldl_giveUp_progress (ids : List CellId) (p : Pass) :
    (ids.foldl giveUp p).report.progress = p.report.progress := by
  induction ids generalizing p with
  | nil => rfl
  | cons id ids ih => exact ih (p.giveUp id)

theorem settle_progress (p : Pass) : p.settle.report.progress = p.report.progress := by
  rw [settle]
  split
  · rfl
  · exact foldl_giveUp_progress _ p

/-- **The end of a pass that is not cancelled**: the cells that are left are counted and not reported. -/
theorem Counted.settle (h : Counted hooks total g p) (completed : p.report.cancelled = false) :
    let left := (p.settle.report.cycle.getD []).length
    p.settle.report.recomputed = total ∧ left ≤ total ∧
      (left = 0 ↔ p.settle.report.cycle = none) ∧
      p.settle.report.progress.toList =
        if hooks.progress then reports g.options total (total - left) else [] := by
  have count := h.count
  obtain ⟨-, recomputed, -, -, cycle⟩ := settle_eq p completed
  have left : (p.settle.report.cycle.getD []).length = p.grid.dirty.size := by
    rw [cycle, h.cycle]
    split
    · rename_i empty
      rw [Std.ExtTreeSet.isEmpty_iff.mp empty]
      rfl
    · exact Std.ExtTreeSet.length_toList
  dsimp only
  rw [left, recomputed, (foldl_giveUp_counts _ p).1, settle_progress, h.progress,
    show total - p.grid.dirty.size = p.report.recomputed by omega]
  refine ⟨count, by omega, ?_, rfl⟩
  rw [cycle, h.cycle, ← Std.ExtTreeSet.eq_empty_iff_size_eq_zero, ← Std.ExtTreeSet.isEmpty_iff]
  simp

end Pass

namespace Grid

/-- **The reports of a pass** that is not cancelled, for every grid.  Their counts ascend; they are the
multiples of the cadence, and the number of all cells, as far as the cells are computed one by one.  The
last report says that all is done if and only if no cells are left on cycles or behind them.  A short
pass reports nothing. -/
theorem progress_recompute (g : Grid) (hooks : Hooks) (shown : hooks.progress = true)
    (completed : (g.recompute hooks).2.cancelled = false) :
    let report := (g.recompute hooks).2
    let total := g.dirty.size
    let left := (report.cycle.getD []).length
    let counts := report.progress.toList.map Progress.done
    (∀ p ∈ report.progress.toList, p.total = total) ∧ counts.Pairwise (· < ·) ∧
      report.recomputed = total ∧ left ≤ total ∧
      (∀ k, k ∈ counts ↔ g.options.progressMinCells < total ∧ 1 ≤ k ∧ k ≤ total - left ∧
        (max g.options.progressEvery 1 ∣ k ∨ k = total)) ∧
      (g.options.progressMinCells < total →
        (counts.getLast? = some total ↔ report.cycle = none)) ∧
      (total ≤ g.options.progressMinCells → report.progress = #[]) := by
  let p := Pass.run hooks g.dirty.size g.dirty.size (Pass.start g)
  have counted : Pass.Counted hooks g.dirty.size g p := (Pass.counted_start hooks g).run _
  have uncancelled : p.report.cancelled = false := by
    by_contra cancelled
    rw [Bool.not_eq_false] at cancelled
    have same : p.settle = p := by rw [Pass.settle, cancelled]; rfl
    have ends : p.settle.report.cancelled = false := completed
    rw [same, cancelled] at ends
    cases ends
  obtain ⟨recomputed, within, uncycled, progress⟩ := counted.settle uncancelled
  rw [if_pos shown] at progress
  intro report total left counts
  have listed : report.progress.toList = Pass.reports g.options total (total - left) := progress
  have here : counts = (Pass.reports g.options total (total - left)).map Progress.done :=
    congrArg (List.map Progress.done) listed
  refine ⟨?_, ?_, recomputed, within, ?_, ?_, ?_⟩
  · rw [listed]
    exact fun p mem => Pass.total_of_mem_reports _ _ _ mem
  · rw [here]
    exact Pass.pairwise_reports _ _ _
  · rw [here]
    exact Pass.mem_map_done_reports _ _ _
  · intro long
    have all : left = 0 ↔ report.cycle = none := uncycled
    have below : left ≤ total := within
    rw [here, Pass.getLast?_reports_iff (Nat.sub_le _ _) long, ← all]
    omega
  · intro short
    refine Array.toList_eq_nil_iff.mp (List.eq_nil_iff_forall_not_mem.mpr fun p mem => ?_)
    rw [listed] at mem
    have counted := (Pass.mem_map_done_reports _ _ _ _).mp (List.mem_map_of_mem mem)
    omega

/-- Five numbers are computed, and the counts that are reported are those of every second cell and the
last. -/
theorem progress_recompute_five :
    let g := (List.range' 1 5).foldl (fun g row => g.store ⟨0, row, 1⟩ (.ofFormula "1"))
      (new { progressMinCells := 3, progressEvery := 2 })
    let report := (g.recompute { progress := true }).2
    report.cancelled = false ∧ report.progress.toList.map Progress.done = [2, 4, 5] ∧
      report.cycle = none := by
  intro g report
  have completed : report.cancelled = false := by decide +kernel
  have counts : report.progress.toList.map Progress.done = [2, 4, 5] := by decide +kernel
  have total : g.dirty.size = 5 := by decide +kernel
  obtain ⟨-, -, -, -, -, last, -⟩ := progress_recompute g { progress := true } rfl completed
  refine ⟨completed, counts, (last (by rw [total]; decide)).mp ?_⟩
  rw [total]
  exact congrArg List.getLast? counts

/-- A cell that reads itself is the last cell of its pass, and is not reported. -/
theorem not_ended_of_cycle :
    ¬ ∀ (g : Grid) (hooks : Hooks), hooks.progress = true →
      (g.recompute hooks).2.cancelled = false → g.options.progressMinCells < g.dirty.size →
        ((g.recompute hooks).2.progress.toList.map Progress.done).getLast? = some g.dirty.size := by
  intro all
  let g := (new { progressMinCells := 0, progressEvery := 1 }).store ⟨0, 1, 1⟩ (.ofFormula "A1+1")
  have total : g.dirty.size = 1 := by decide +kernel
  have completed : (g.recompute { progress := true }).2.cancelled = false := by decide +kernel
  have counts : (g.recompute { progress := true }).2.progress.toList.map Progress.done = [] := by
    decide +kernel
  have last := all g { progress := true } rfl completed (by rw [total]; decide)
  rw [counts] at last
  cases last

end Grid

end Spreadsheet
