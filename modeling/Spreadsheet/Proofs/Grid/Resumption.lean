import Spreadsheet.Proofs.Grid.History
import Spreadsheet.Proofs.Grid.Scheduling

/-!
# Resuming a pass

A pass that is cancelled forgets which cells were ready and which cells others were waiting for.  It
leaves a grid in which the cells that it did not come to are dirty, and a later pass finds out the
rest again.  Nothing is lost: at every point of a pass the cells that are ready are given by the grid
alone (`Pass.Reached.ready`), so two passes that have come to the same grid go on in the same way.

* `Pass.Follows first p q`: after a pass with the report `first`, a second pass has come with `p` to
  where a single pass is with `q`.
* `Pass.Follows.compute`, `Pass.Follows.run` and `Pass.Follows.settle`: it stays so, step by step and
  to the end.
* `Pass.exists_of_cancelled`: a pass that nobody cancels comes through the state in which another one
  was cancelled.
* `Grid.Linked.recompute_resumed`: a cancelled pass and the pass after it do what a single pass does.
* `Grid.recompute_resumed_ofHistory`: so it is in every grid that has a history, whatever is dirty.
-/

namespace Spreadsheet

namespace Pass

/-- After a pass with the report `first`, a second pass has come with `p` to where a single pass is
with `q`. -/
structure Follows (first : Report) (p q : Pass) : Prop where
  grid : p.grid = q.grid
  recomputed : q.report.recomputed = first.recomputed + p.report.recomputed
  changed : q.report.changed.toList = first.changed.toList ++ p.report.changed.toList

variable {hooks hooks' : Hooks} {draws draws' : Nat → Formula.Draws} {total total' : Nat}
  {g g' : Grid} {order order' : List CellId} {first : Report} {p q : Pass}

/-! ### One step -/

theorem Follows.ready_eq (same : Follows first p q) (h : Reached hooks total g order p)
    (h' : Reached hooks' total' g' order' q) : p.ready = q.ready := by
  ext x
  rw [h.ready, h'.ready, same.grid]

theorem Follows.compute (same : Follows first p q)
    (agree : p.grid.DrawsAgree (hooks.draws 0) (hooks'.draws 0)) (id : CellId) :
    Follows first (p.compute hooks total id) (q.compute hooks' total' id) where
  grid := by rw [compute_grid, compute_grid, Grid.refresh_congr_draws (agree id), same.grid]
  recomputed := by
    rw [(compute_report id hooks total p).1, (compute_report id hooks' total' q).1,
      same.recomputed, Nat.add_assoc]
  changed := by
    rw [(compute_report id hooks total p).2.2.2, (compute_report id hooks' total' q).2.2.2,
      Grid.refresh_congr_draws (agree id), same.changed, same.grid, List.append_assoc]

theorem Follows.giveUp (same : Follows first p q) (id : CellId) :
    Follows first (p.giveUp id) (q.giveUp id) := by
  have grid : (p.giveUp id).grid = (q.giveUp id).grid := by
    rw [giveUp_grid, giveUp_grid, same.grid]
  refine ⟨grid, ?_, ?_⟩
  · rw [(giveUp_report p id).1, (giveUp_report q id).1, same.recomputed]
  · rw [(giveUp_report p id).2.2, (giveUp_report q id).2.2, same.changed, grid, same.grid,
      List.append_assoc]

/-! ### To the end -/

theorem run_of_idle (idle : p.ready.toList.head? = none) (n : Nat) : run hooks total n p = p := by
  cases n with
  | zero => rfl
  | succ n => rw [Pass.run, idle]

/-- **Two passes at the same grid go on in the same way**, when they have time enough, nobody cancels
them, and the same numbers are drawn for their formulas. -/
theorem Follows.run (linked : g.Linked) (linked' : g'.Linked)
    (agree : g.DrawsAgree (draws 0) (draws' 0)) (same : Follows first p q)
    (h : Reached { draws } total g order p) (h' : Reached { draws := draws' } total' g' order' q)
    {n m : Nat} (enough : g.dirty.size ≤ order.length + n)
    (enough' : g'.dirty.size ≤ order'.length + m) :
    ∃ ends ends', Reached { draws } total g ends (run { draws } total n p) ∧
      Reached { draws := draws' } total' g' ends' (run { draws := draws' } total' m q) ∧
      Follows first (run { draws } total n p) (run { draws := draws' } total' m q) := by
  induction n generalizing p q order order' m with
  | zero =>
    have idle : p.ready = ∅ :=
      Std.ExtTreeSet.eq_empty_iff_forall_not_mem.mpr (h.not_ready_of_full (by omega))
    have idle' : q.ready.toList.head? = none := by
      rw [← same.ready_eq h h', idle]
      rfl
    rw [run_of_idle idle']
    exact ⟨order, order', h, h', same⟩
  | succ n ih =>
    cases head : p.ready.toList.head? with
    | none =>
      have head' := head
      rw [same.ready_eq h h'] at head'
      rw [run_of_idle head, run_of_idle head']
      exact ⟨order, order', h, h', same⟩
    | some id =>
      have ready : id ∈ p.ready := Std.ExtTreeSet.mem_toList.mp (List.mem_of_head? head)
      have head' := head
      have ready' := ready
      rw [same.ready_eq h h'] at head' ready'
      cases m with
      | zero => exact absurd ready' (h'.not_ready_of_full (by omega) id)
      | succ m =>
        rw [Pass.run, head, Pass.run, head']
        have agrees : p.grid.DrawsAgree (draws 0) (draws' 0) := agree.of_alike h.alike
        refine ih (same.compute agrees id) (h.compute linked.forth ready)
          (h'.compute linked'.forth ready') ?_ ?_
        · rw [List.length_append, List.length_singleton]
          omega
        · rw [List.length_append, List.length_singleton]
          omega

theorem Follows.foldl_giveUp (same : Follows first p q) (ids : List CellId) :
    Follows first (ids.foldl Pass.giveUp p) (ids.foldl Pass.giveUp q) := by
  induction ids generalizing p q with
  | nil => exact same
  | cons id ids ih => exact ih (same.giveUp id)

theorem Follows.settle (same : Follows first p q) (h : p.report.cancelled = false)
    (h' : q.report.cancelled = false) : Follows first p.settle q.settle := by
  have given := same.foldl_giveUp q.grid.dirty.toList
  obtain ⟨grid, recomputed, -, changed, -⟩ := settle_eq p h
  obtain ⟨grid', recomputed', -, changed', -⟩ := settle_eq q h'
  rw [same.grid] at grid recomputed changed
  refine ⟨?_, ?_, ?_⟩
  · rw [grid, grid', given.grid]
  · rw [recomputed, recomputed', given.recomputed, Nat.add_assoc]
  · rw [changed, changed', given.changed]

theorem Follows.cycle_settle (same : Follows first p q) (h : Reached hooks total g order p)
    (h' : Reached hooks' total' g' order' q) :
    p.settle.report.cycle = q.settle.report.cycle := by
  rw [(settle_eq p h.cancelled).2.2.2.2, (settle_eq q h'.cancelled).2.2.2.2, same.grid, h.cycle,
    h'.cycle]

/-! ### The state in which a pass is cancelled -/

/-- The state in which a pass of a grid has no cell left that is ready, or is cancelled. -/
def last (hooks : Hooks) (g : Grid) : Pass := run hooks g.dirty.size g.dirty.size (start g)

/-- The state with the note that the pass is cancelled. -/
def stop (p : Pass) : Pass := { p with report := { p.report with cancelled := true } }

/-- **A pass that nobody cancels comes through the state in which another one was cancelled**, with
the same report so far. -/
theorem exists_of_cancelled (linked : g.Linked) (agree : g.DrawsAgree (hooks.draws 0) (draws 0))
    (n : Nat) (same : Follows {} p q)
    (h : Reached hooks total g order p) (h' : Reached { draws } total g order q)
    (cancelled : (run hooks total n p).report.cancelled = true) :
    ∃ order' p' q' m, run hooks total n p = p'.stop ∧
      run { draws } total n q = run { draws } total m q' ∧
      order'.length + m = order.length + n ∧ Reached hooks total g order' p' ∧
      Reached { draws } total g order' q' ∧ Follows {} p' q' := by
  induction n generalizing p q order with
  | zero =>
    rw [Pass.run, h.cancelled] at cancelled
    cases cancelled
  | succ n ih =>
    cases head : p.ready.toList.head? with
    | none =>
      rw [run_of_idle head, h.cancelled] at cancelled
      cases cancelled
    | some id =>
      have ready : id ∈ p.ready := Std.ExtTreeSet.mem_toList.mp (List.mem_of_head? head)
      rw [Pass.run, head] at cancelled ⊢
      dsimp only at cancelled ⊢
      by_cases stops : hooks.cancel p.report.recomputed = true
      · rw [if_pos stops]
        exact ⟨order, p, q, n + 1, rfl, rfl, rfl, h, h', same⟩
      · rw [if_neg stops] at cancelled ⊢
        have head' := head
        have ready' := ready
        rw [same.ready_eq h h'] at head' ready'
        obtain ⟨order', p', q', m, ended, passed, fuel, rest⟩ :=
          ih (same.compute (agree.of_alike h.alike) id) (h.compute linked.forth ready)
            (h'.compute linked.forth ready') cancelled
        rw [List.length_append, List.length_singleton] at fuel
        refine ⟨order', p', q', m, ended, ?_, by omega, rest⟩
        rw [← passed, Pass.run, head']
        rfl

end Pass

namespace Grid

variable {g g' : Grid} {hooks : Hooks}

theorem Alike.linked (h : g.Alike g') (linked : g.Linked) : g'.Linked where
  forth x y hx := by
    rw [h.precedents] at hx
    rw [h.readers]
    exact linked.forth x y hx
  inert y filling := by
    rw [h.filling] at filling
    rw [h.precedents]
    exact linked.inert y filling

theorem recompute_eq_last (g : Grid) (hooks : Hooks) :
    g.recompute hooks = ((Pass.last hooks g).settle.grid, (Pass.last hooks g).settle.report) := rfl

/-- A pass is cancelled only while there are cells that are ready. -/
theorem last_cancelled_of_recompute (linked : g.Linked)
    (cancelled : (g.recompute hooks).2.cancelled = true) :
    (Pass.last hooks g).report.cancelled = true := by
  obtain ⟨order, p, reached, ⟨ended, idle⟩ | ⟨-, stopped⟩⟩ :=
    (Pass.reached_start hooks g.dirty.size g).run linked.forth g.dirty.size (by simp)
  · rw [recompute, ended, (reached.settle linked idle).cancelled] at cancelled
    cases cancelled
  · rw [Pass.last, stopped]

/-- **A cancelled pass and the pass after it do what a single pass does** for which the same numbers
are drawn. -/
theorem Linked.recompute_resumed (linked : g.Linked)
    (cancelled : (g.recompute hooks).2.cancelled = true) {draws draws' : Nat → Formula.Draws}
    (agree : g.DrawsAgree (hooks.draws 0) (draws' 0)) (agree' : g.DrawsAgree (draws 0) (draws' 0)) :
    let first := g.recompute hooks
    let second := first.1.recompute { draws }
    let whole := g.recompute { draws := draws' }
    second.1 = whole.1 ∧ whole.1.dirty = ∅ ∧
      first.2.changed ++ second.2.changed = whole.2.changed ∧
      first.2.recomputed + second.2.recomputed = whole.2.recomputed ∧
      second.2.cycle = whole.2.cycle := by
  intro first second whole
  obtain ⟨order, p, q, m, ended, passed, fuel, hp, hq, same⟩ :=
    Pass.exists_of_cancelled linked agree g.dirty.size ⟨rfl, rfl, rfl⟩
      (Pass.reached_start hooks g.dirty.size g) (Pass.reached_start _ g.dirty.size g)
      (last_cancelled_of_recompute linked cancelled)
  have stopped : first = (p.grid, p.stop.report) := by
    show g.recompute hooks = _
    rw [recompute_eq_last, Pass.last, ended]
    rfl
  -- The second pass starts from the grid at which the single pass is with `q`.
  have start : Pass.Follows p.stop.report (Pass.start p.grid) q :=
    ⟨same.grid, by rw [same.recomputed, Nat.zero_add]; rfl,
      by rw [same.changed, List.nil_append]; exact (List.append_nil _).symm⟩
  obtain ⟨_, _, reached, reached', follows⟩ := start.run (hp.alike.linked linked) linked
    (agree'.of_alike hp.alike) (Pass.reached_start { draws } p.grid.dirty.size p.grid) hq
    (n := p.grid.dirty.size) (m := m) (by simp) (by rw [fuel]; simp)
  rw [← passed] at reached' follows
  have ends : Pass.Follows first.2 (Pass.last { draws } first.1).settle
      (Pass.last { draws := draws' } g).settle := by
    rw [stopped]
    exact follows.settle reached.cancelled reached'.cancelled
  refine ⟨ends.grid, ?_, ?_, ends.recomputed.symm, ?_⟩
  · show (Pass.last { draws := draws' } g).settle.grid.dirty = ∅
    rw [Pass.last, (Pass.settle_eq _ reached'.cancelled).1]
  · refine Array.toList_inj.mp ?_
    rw [Array.toList_append]
    exact ends.changed.symm
  · show (Pass.last { draws } first.1).settle.report.cycle = _
    rw [stopped]
    exact follows.cycle_settle reached reached'

/-- **Cancelling and resuming is one uninterrupted pass**, in every grid that has a history, whatever
is dirty in it and whenever the pass is cancelled.  No formula calls `RAND`, or the same numbers are
drawn for it in all three passes. -/
theorem recompute_resumed_ofHistory (options : Options) (history : List Action) (dirty : CellSet)
    (hooks : Hooks)
    (cancelled : (({ ofHistory options history with dirty } : Grid).recompute hooks).2.cancelled =
      true) (draws draws' : Nat → Formula.Draws)
    (agree : (ofHistory options history).DrawsAgree (hooks.draws 0) (draws' 0))
    (agree' : (ofHistory options history).DrawsAgree (draws 0) (draws' 0)) :
    let g : Grid := { ofHistory options history with dirty }
    let first := g.recompute hooks
    let second := first.1.recompute { draws }
    let whole := g.recompute { draws := draws' }
    second.1 = whole.1 ∧ whole.1.dirty = ∅ ∧
      first.2.changed ++ second.2.changed = whole.2.changed ∧
      first.2.recomputed + second.2.recomputed = whole.2.recomputed ∧
      second.2.cycle = whole.2.cycle := by
  have linked := ((Alike.refl _).dirty dirty).linked (regular_ofHistory options history).wired.linked
  exact linked.recompute_resumed cancelled agree agree'

/-- A chain of three cells and a cycle of two, the pass cancelled in front of the last cell of the
chain. -/
theorem recompute_resumed_ofHistory_chain :
    let history : List Action :=
      [.edit { cancel := fun _ => true } (.set ⟨0, 1, 1⟩ "5"), .edit {} (.set ⟨0, 1, 3⟩ "=B1*2"),
        .edit {} (.set ⟨0, 1, 2⟩ "=A1+1"), .edit {} (.set ⟨0, 2, 2⟩ "=A2"),
        .edit {} (.set ⟨0, 2, 1⟩ "=B2")]
    let hooks : Hooks := { cancel := fun done => 2 ≤ done }
    let dirty : CellSet := .ofList
      [(⟨0, 1, 1⟩ : CellId), ⟨0, 1, 2⟩, ⟨0, 1, 3⟩, ⟨0, 2, 1⟩, ⟨0, 2, 2⟩]
    let g : Grid := { ofHistory {} history with dirty }
    let first := g.recompute hooks
    let second := first.1.recompute {}
    let whole := g.recompute {}
    first.2.cancelled = true ∧ first.2.changed = #[⟨0, 1, 1⟩, ⟨0, 1, 2⟩] ∧
      second.2.changed = #[⟨0, 1, 3⟩] ∧ second.2.cycle = some [⟨0, 2, 1⟩, ⟨0, 2, 2⟩] ∧
      second.1 = whole.1 ∧ whole.2.changed = #[⟨0, 1, 1⟩, ⟨0, 1, 2⟩, ⟨0, 1, 3⟩] ∧
      whole.2.recomputed = 5 := by
  intro history hooks dirty g first second whole
  have cancelled : first.2.cancelled = true := by decide +kernel
  have before : first.2.changed = #[⟨0, 1, 1⟩, ⟨0, 1, 2⟩] := by decide +kernel
  have after : second.2.changed = #[⟨0, 1, 3⟩] := by decide +kernel
  have cycle : second.2.cycle = some [⟨0, 2, 1⟩, ⟨0, 2, 2⟩] := by decide +kernel
  have counts : first.2.recomputed + second.2.recomputed = 5 := by decide +kernel
  obtain ⟨same, -, changed, recomputed, -⟩ :=
    recompute_resumed_ofHistory {} history dirty hooks cancelled (fun _ => .zero) (fun _ => .zero)
      (fun _ _ => rfl) fun _ _ => rfl
  refine ⟨cancelled, before, after, cycle, same, ?_, recomputed ▸ counts⟩
  exact changed ▸ by rw [before, after]; rfl

end Grid

end Spreadsheet
