import Spreadsheet.Proofs.Grid.Batches

/-!
# Formulas that wait

Formulas that fill other cells are run one after the other when the first pass of an edit is over,
and a second pass follows the last of them.  What one of them writes is out of date until then,
together with everything that depends on it, so the next one may read cells that are still to be
computed.

* `Grid.runQueue g draws queue`: the grid after the formulas of a queue have been run.
* `Grid.queueWrites g draws queue`: what they write, each after those in front of it.
* `Grid.finish_of_waiting`: what happens between the two passes.
* `Grid.fillWrites_congr`: what a formula writes depends on the cells that it reads.
* `Grid.clean_inputs_iff`: when a waiting formula reads nothing that is still to be computed.
-/

namespace Spreadsheet.Grid

open Relation

variable {g g' : Grid} {hooks : Hooks} {id : CellId} {formula : String}
  {before after queue : List (CellId × String)} {draws : Nat → Formula.Draws}

/-- Does the cell still hold the formula that waits to fill the cells beside it? -/
def awaits (g : Grid) (id : CellId) (formula : String) : Bool :=
  (g.cell id).isFilling && (g.cell id).formula == formula

/-- What a formula that fills other cells writes: its status, and a literal into each cell that it
fills. -/
def fillWrites (g : Grid) (id : CellId) (formula : String) (draws : Formula.Draws) :
    List (CellId × Cell) :=
  (id, .filling formula (Formula.evaluate (g.view draws) id formula).toText) ::
    ((Formula.outputs (g.view draws) id formula).filter (·.cell != id)).map fun o =>
      (o.cell, .ofFormula o.value.literal)

theorem fill_eq (g : Grid) (id : CellId) (formula : String) (draws : Formula.Draws) :
    (g.fill id formula draws).1 = g.storeAll (g.fillWrites id formula draws) := by
  rw [fillWrites, storeAll_cons, storeAll, List.foldl_map]
  rfl

def runNext (g : Grid) (draws : Formula.Draws) (entry : CellId × String) : Grid :=
  if g.awaits entry.1 entry.2 then (g.fill entry.1 entry.2 draws).1 else g

/-- The grid after the formulas of a queue have been run, each with its draws. -/
def runQueue (g : Grid) (draws : Nat → Formula.Draws) : List (CellId × String) → Grid
  | [] => g
  | entry :: queue => (g.runNext (draws 0) entry).runQueue (fun turn => draws (turn + 1)) queue

/-- What the formulas of a queue write.  One whose cell has been overwritten writes nothing. -/
def queueWrites (g : Grid) (draws : Nat → Formula.Draws) :
    List (CellId × String) → List (CellId × Cell)
  | [] => []
  | entry :: queue =>
    (if g.awaits entry.1 entry.2 then g.fillWrites entry.1 entry.2 (draws 0) else []) ++
      (g.runNext (draws 0) entry).queueWrites (fun turn => draws (turn + 1)) queue

theorem runQueue_append (g : Grid) (draws : Nat → Formula.Draws)
    (before after : List (CellId × String)) :
    g.runQueue draws (before ++ after) =
      (g.runQueue draws before).runQueue (fun turn => draws (turn + before.length)) after := by
  induction before generalizing g draws with
  | nil => rfl
  | cons entry before ih =>
    rw [List.cons_append, runQueue, ih, runQueue]
    rfl

theorem runQueue_of_awaits (awaited : g.awaits id formula = true)
    (queue : List (CellId × String)) :
    g.runQueue draws ((id, formula) :: queue) =
      (g.fill id formula (draws 0)).1.runQueue (fun turn => draws (turn + 1)) queue := by
  have next : g.runNext (draws 0) (id, formula) = (g.fill id formula (draws 0)).1 :=
    if_pos awaited
  rw [runQueue, next]

/-- **Running a queue** is writing what its formulas write. -/
theorem runQueue_eq (g : Grid) (draws : Nat → Formula.Draws) (queue : List (CellId × String)) :
    g.runQueue draws queue = g.storeAll (g.queueWrites draws queue) := by
  induction queue generalizing g draws with
  | nil => rfl
  | cons entry queue ih =>
    have next : g.runNext (draws 0) entry = g.storeAll
        (if g.awaits entry.1 entry.2 then g.fillWrites entry.1 entry.2 (draws 0) else []) := by
      rw [runNext]
      split
      · exact fill_eq g entry.1 entry.2 (draws 0)
      · rfl
    rw [queueWrites, storeAll_append, ← next, ← ih]
    rfl

/-! ### Between the two passes -/

theorem runQueue_eq_foldl (g : Grid) (draws : Nat → Formula.Draws)
    (queue : List (CellId × String)) (turn : Nat) :
    g.runQueue (fun later => draws (later + turn)) queue =
      (queue.zipIdx turn).foldl (fun g entry => g.runNext (draws entry.2) entry.1) g := by
  induction queue generalizing g turn with
  | nil => rfl
  | cons entry queue ih =>
    rw [runQueue, List.zipIdx_cons, List.foldl_cons, ← ih]
    simp only [Nat.zero_add, Nat.add_assoc, Nat.add_comm 1 turn]

theorem runWaiting_eq (g : Grid) (draws : Nat → Formula.Draws) :
    (g.runWaiting draws).1 = ({ g with waiting := [] } : Grid).runQueue draws g.waiting := by
  refine Eq.trans ?_ (runQueue_eq_foldl _ draws g.waiting 0).symm
  rw [runWaiting]
  refine (List.foldl_hom Prod.fst ?_).symm
  intro state entry
  dsimp only
  rw [runNext, awaits]
  split <;> rfl

/-- The grid on which the first of the waiting formulas is run. -/
def queueStart (g : Grid) (hooks : Hooks) : Grid := { (g.recompute hooks).1 with waiting := [] }

/-- The draws of the formulas that wait. -/
def queueDraws (hooks : Hooks) (turn : Nat) : Formula.Draws := hooks.draws (turn + 1)

/-- What accompanies the pass after the formulas that wait. -/
def secondHooks (g : Grid) (hooks : Hooks) : Hooks :=
  { draws := fun _ => queueDraws hooks g.waiting.length }

/-- **Between the two passes** of an edit the waiting formulas are run. -/
theorem finish_of_waiting (waiting : g.waiting ≠ []) (hooks : Hooks) (written : List CellId)
    (invalidate : Bool) : (g.finish hooks written invalidate).1 =
      (((g.queueStart hooks).runQueue (queueDraws hooks) g.waiting).recompute
        (g.secondHooks hooks)).1 := by
  have some : ¬ (g.recompute hooks).1.waiting.isEmpty = true := by
    rwa [recompute_waiting, List.isEmpty_iff]
  rw [finish]
  dsimp only
  rw [if_neg some, runWaiting_eq, recompute_waiting]
  rfl

/-- **The turn of a waiting formula** comes when those in front of it have been run. -/
theorem finish_of_awaits (queue : g.waiting = before ++ (id, formula) :: after)
    (awaited : ((g.queueStart hooks).runQueue (queueDraws hooks) before).awaits id formula = true)
    (written : List CellId) (invalidate : Bool) :
    let turn := (g.queueStart hooks).runQueue (queueDraws hooks) before
    (g.finish hooks written invalidate).1 =
      (((turn.fill id formula (queueDraws hooks before.length)).1.runQueue
        (fun later => queueDraws hooks (later + 1 + before.length)) after).recompute
          (g.secondHooks hooks)).1 := by
  intro turn
  rw [finish_of_waiting (by simp [queue]), queue, runQueue_append, runQueue_of_awaits awaited,
    Nat.zero_add]

/-! ### What is out of date -/

theorem regular_queueStart (regular : g.Regular) (hooks : Hooks) :
    (g.queueStart hooks).Regular := by
  have pass : Rewrites (fun _ => True) g (g.recompute hooks).1 := .recompute hooks .refl
  exact (Rewrites.await [] pass).regular regular

theorem Regular.runQueue (regular : g.Regular) (draws : Nat → Formula.Draws)
    (queue : List (CellId × String)) : (g.runQueue draws queue).Regular := by
  rw [runQueue_eq]
  exact (rewrites_storeAll g _).regular regular

theorem dirty_queueStart (regular : g.Regular) (never : ∀ done, hooks.cancel done = false) :
    (g.queueStart hooks).dirty = ∅ := by
  have linked := regular.wired.linked
  obtain ⟨order, p, settled, ends⟩ :=
    linked.exists_settled (recompute_not_cancelled linked never)
  rw [queueStart, ends]
  exact settled.clean

/-- **What is out of date while the queue is run**: what depends on a cell that has been written. -/
theorem mem_dirty_runQueue_iff (clean : g.dirty = ∅) (queue : List (CellId × String))
    (x : CellId) :
    x ∈ (g.runQueue draws queue).dirty ↔
      ∃ w ∈ g.queueWrites draws queue,
        ReflTransGen (ReadBy (g.runQueue draws queue).cells) w.1 x := by
  rw [runQueue_eq, mem_dirty_storeAll_iff, clean]
  simp

theorem value_runQueue_of_clean (queue : List (CellId × String)) {x : CellId}
    (clean : x ∉ (g.runQueue draws queue).dirty) :
    (g.runQueue draws queue).value x = g.value x := by
  rw [runQueue_eq] at clean ⊢
  exact (storeAll_of_not_mem fun c mem => clean (mem_dirty_storeAll (Or.inr ⟨c, mem⟩))).2

/-- **What a formula writes depends on the cells that it reads.** -/
theorem fillWrites_congr (sheets : g'.sheets = g.sheets)
    (values : ∀ x, Formula.Reads id.sheet g.directory formula x → g'.value x = g.value x)
    (draws : Formula.Draws) :
    g'.fillWrites id formula draws = g.fillWrites id formula draws := by
  have directory : (g'.view draws).toDirectory = (g.view draws).toDirectory := by
    show g'.directory = g.directory
    rw [Grid.directory, Grid.directory, sheets]
  have random : Formula.CallsRandom formula →
      (g'.view draws).draw id = (g.view draws).draw id := fun _ => rfl
  have same : ∀ m ∈ Formula.mentions formula, m.1.sheet? id.sheet (g'.view draws).toDirectory =
      m.1.sheet? id.sheet (g.view draws).toDirectory := fun m _ => by rw [directory]
  have terms : ∀ x, Formula.Reads id.sheet (g.view draws).toDirectory formula x →
      (g'.view draws).term x = (g.view draws).term x := by
    intro x reads
    rw [view_term, view_term, values x reads]
  rw [fillWrites, fillWrites, Formula.evaluate_congr random same terms,
    Formula.outputs_congr (by rw [directory]) random same terms]

theorem exists_listed {home : Nat} {directory : Directory} {test : CellSet → Bool}
    (passed : (Formula.reads home directory formula).toOption.elim false test = true) :
    ∃ cells, Formula.reads home directory formula = .ok cells ∧ test cells = true := by
  cases ok : Formula.reads home directory formula with
  | error token =>
    rw [ok] at passed
    cases passed
  | ok cells =>
    rw [ok] at passed
    exact ⟨cells, rfl, passed⟩

theorem Regular.write {edit : Edit} {written : List CellId} {invalidate : Bool}
    (regular : g.Regular) (wrote : g.write edit = .ok ((g', written), invalidate)) :
    g'.Regular := by
  rcases write_cases inherited_true regular (fun _ => trivial) wrote with
    rewrites | ⟨name, -, added⟩ | ⟨index, -, removed⟩
  · exact rewrites.regular regular
  · exact regular.addSheet added
  · exact regular.removeSheet removed

/-- **When a waiting formula reads nothing that is still to be computed.**  After an edit whose first
pass is not cancelled, none of the cells that the formula reads is dirty when its turn comes if and
only if they depend on no cell that the formulas in front of it have written.  Then it writes what
it would write with the same draws if the grid were recomputed, which is also what it would write as
the first. -/
theorem clean_inputs_iff (options : Options) (history : List Action) {edit : Edit} {hooks : Hooks}
    {written : List CellId} {invalidate : Bool} (never : ∀ done, hooks.cancel done = false)
    (wrote : (ofHistory options history).write edit = .ok ((g', written), invalidate))
    (queue : g'.waiting = before ++ (id, formula) :: after)
    (awaited :
      ((g'.queueStart hooks).runQueue (queueDraws hooks) before).awaits id formula = true) :
    let first := g'.queueStart hooks
    let turn := first.runQueue (queueDraws hooks) before
    let inputs := Formula.Reads id.sheet turn.directory formula
    ofHistory options (.edit hooks edit :: history) =
        (((turn.fill id formula (queueDraws hooks before.length)).1.runQueue
          (fun later => queueDraws hooks (later + 1 + before.length)) after).recompute
            (g'.secondHooks hooks)).1 ∧
      ((∀ x, inputs x → x ∉ turn.dirty) ↔
        ∀ w ∈ first.queueWrites (queueDraws hooks) before, ∀ x, inputs x →
          ¬ ReflTransGen (ReadBy turn.cells) w.1 x) ∧
      ((∀ x, inputs x → x ∉ turn.dirty) → ∀ draws again,
        turn.fillWrites id formula draws =
            (turn.recompute again).1.fillWrites id formula draws ∧
          turn.fillWrites id formula draws = first.fillWrites id formula draws) := by
  intro first turn inputs
  have regular : g'.Regular := (regular_ofHistory options history).write wrote
  have start : first.Regular := regular_queueStart regular hooks
  have clean : first.dirty = ∅ := dirty_queueStart regular never
  have dirty : ∀ x, x ∈ turn.dirty ↔
      ∃ w ∈ first.queueWrites (queueDraws hooks) before,
        ReflTransGen (ReadBy turn.cells) w.1 x :=
    mem_dirty_runQueue_iff clean before
  refine ⟨?_, ?_, ?_⟩
  · exact (perform_of_write wrote).trans (finish_of_awaits queue awaited written invalidate)
  · simp only [dirty, not_exists, not_and]
    exact ⟨fun h w mem x reads => h x reads w mem, fun h x reads w mem => h w mem x reads⟩
  · intro fresh draws again
    have wired : turn.Wired := (start.runQueue _ before).wired
    have writes : turn = first.storeAll (first.queueWrites _ before) := runQueue_eq first _ before
    obtain ⟨sheets, -⟩ := first.storeAll_fields (first.queueWrites (queueDraws hooks) before)
    rw [← writes] at sheets
    have directory : turn.directory = first.directory := by
      rw [Grid.directory, Grid.directory, sheets]
    have alike := recompute_alike wired again
    constructor
    · refine (fillWrites_congr alike.sheets (fun x reads => ?_) draws).symm
      exact value_eq_of_cells (recompute_outside wired.linked again (fresh x reads))
    · refine fillWrites_congr sheets (fun x reads => ?_) draws
      rw [← directory] at reads
      exact value_runQueue_of_clean before (fresh x reads)

/-- Two regressions of the same data: the second does not read what the first has filled. -/
theorem clean_inputs_iff_pair :
    let data : Action :=
      .edit {} (.batch [⟨0, 1, 1⟩, ⟨0, 2, 1⟩, ⟨0, 1, 2⟩, ⟨0, 2, 2⟩] ["1", "3", "0", "1"])
    let formula := "OLS(A1:A2,B1:B2)"
    let edit : Edit := .batch [⟨0, 1, 4⟩, ⟨0, 1, 10⟩] ["=OLS(A1:A2,B1:B2)", "=OLS(A1:A2,B1:B2)"]
    ∃ g' written invalidate, (ofHistory {} [data]).write edit = .ok ((g', written), invalidate) ∧
      g'.waiting = [(⟨0, 1, 4⟩, formula), (⟨0, 1, 10⟩, formula)] ∧
      let first := g'.queueStart {}
      let turn := first.runQueue (queueDraws {}) [(⟨0, 1, 4⟩, formula)]
      turn.awaits ⟨0, 1, 10⟩ formula = true ∧
        (∀ x, Formula.Reads 0 turn.directory formula x → x ∉ turn.dirty) ∧
        (∀ w ∈ first.queueWrites (queueDraws {}) [(⟨0, 1, 4⟩, formula)], ∀ x,
          Formula.Reads 0 turn.directory formula x → ¬ ReflTransGen (ReadBy turn.cells) w.1 x) ∧
        turn.fillWrites ⟨0, 1, 10⟩ formula .zero = first.fillWrites ⟨0, 1, 10⟩ formula .zero := by
  intro data formula edit
  have waiting : ((ofHistory {} [data]).write edit).toOption.map (·.1.1.waiting) =
      some [(⟨0, 1, 4⟩, formula), (⟨0, 1, 10⟩, formula)] := by decide +kernel
  have turns : (((ofHistory {} [data]).write edit).toOption.map fun result =>
      let turn := (result.1.1.queueStart {}).runQueue (queueDraws {}) [(⟨0, 1, 4⟩, formula)]
      turn.awaits ⟨0, 1, 10⟩ formula &&
        (Formula.reads 0 turn.directory formula).toOption.elim false fun cells =>
          cells.toList.all fun x => !turn.dirty.contains x) = some true := by decide +kernel
  cases wrote : (ofHistory {} [data]).write edit with
  | error e =>
    rw [wrote] at waiting
    cases waiting
  | ok result =>
    obtain ⟨⟨g', written⟩, invalidate⟩ := result
    rw [wrote] at waiting turns
    have queue : g'.waiting = [(⟨0, 1, 4⟩, formula)] ++ (⟨0, 1, 10⟩, formula) :: [] :=
      Option.some.inj waiting
    have both := Option.some.inj turns
    rw [Bool.and_eq_true] at both
    obtain ⟨awaited, listed⟩ := both
    obtain ⟨cells, ok, undone⟩ := exists_listed listed
    rw [List.all_eq_true] at undone
    let turn := (g'.queueStart {}).runQueue (queueDraws {}) [(⟨0, 1, 4⟩, formula)]
    have clean : ∀ x, Formula.Reads 0 turn.directory formula x → x ∉ turn.dirty := by
      intro x reads
      have left := undone x (Std.ExtTreeSet.mem_toList.mpr ((Formula.mem_reads_iff ok x).mpr reads))
      rwa [Bool.not_eq_true', ← Bool.not_eq_true, Std.ExtTreeSet.contains_iff_mem] at left
    have never : ∀ done, ({} : Hooks).cancel done = false := fun _ => rfl
    obtain ⟨-, exact_iff, same⟩ := clean_inputs_iff {} [data] never wrote queue awaited
    exact ⟨g', written, invalidate, rfl, queue, awaited, clean, exact_iff.mp clean,
      (same clean .zero {}).2⟩

/-- The second of two regressions reads coefficients that the first has filled in again, and they
are still to be computed then. -/
theorem not_clean_inputs_of_filled :
    ¬ ∀ (options : Options) (history : List Action) (edit : Edit) (hooks : Hooks) (g' : Grid)
      (written : List CellId) (invalidate : Bool) (before after : List (CellId × String))
      (id : CellId) (formula : String),
      (∀ action ∈ history, ∀ done, action.hooks.cancel done = false) →
      (∀ done, hooks.cancel done = false) →
      (ofHistory options history).write edit = .ok ((g', written), invalidate) →
      g'.waiting = before ++ (id, formula) :: after →
      let turn := (g'.queueStart hooks).runQueue (queueDraws hooks) before
      turn.awaits id formula = true →
        ∀ x, Formula.Reads id.sheet turn.directory formula x → x ∉ turn.dirty := by
  intro all
  let first := "OLS(A1:A2,B1:B2)"
  let second := "OLS(H1:H2,B1:B2)"
  let history : List Action := [.edit {} (.batch [⟨0, 1, 1⟩, ⟨0, 2, 1⟩, ⟨0, 1, 2⟩, ⟨0, 2, 2⟩,
    ⟨0, 1, 4⟩] ["1", "3", "0", "1", "=OLS(A1:A2,B1:B2)"])]
  let edit : Edit := .batch [⟨0, 1, 4⟩, ⟨0, 1, 10⟩] ["=OLS(A1:A2,B1:B2)", "=OLS(H1:H2,B1:B2)"]
  have waiting : ((ofHistory {} history).write edit).toOption.map (·.1.1.waiting) =
      some [(⟨0, 1, 4⟩, first), (⟨0, 1, 10⟩, second)] := by decide +kernel
  have turns : (((ofHistory {} history).write edit).toOption.map fun result =>
      let turn := (result.1.1.queueStart {}).runQueue (queueDraws {}) [(⟨0, 1, 4⟩, first)]
      turn.awaits ⟨0, 1, 10⟩ second && turn.dirty.contains ⟨0, 1, 8⟩ &&
        (Formula.reads 0 turn.directory second).toOption.elim false
          (·.contains ⟨0, 1, 8⟩)) = some true := by decide +kernel
  cases wrote : (ofHistory {} history).write edit with
  | error e =>
    rw [wrote] at waiting
    cases waiting
  | ok result =>
    obtain ⟨⟨g', written⟩, invalidate⟩ := result
    rw [wrote] at waiting turns
    have facts := Option.some.inj turns
    rw [Bool.and_eq_true, Bool.and_eq_true] at facts
    obtain ⟨⟨awaited, dirty⟩, listed⟩ := facts
    obtain ⟨cells, ok, mem⟩ := exists_listed listed
    have reads := (Formula.mem_reads_iff ok _).mp (Std.ExtTreeSet.contains_iff_mem.mp mem)
    exact all {} history edit {} g' written invalidate [_] [] ⟨0, 1, 10⟩ second
      (by simp [history, Action.hooks]) (fun _ => rfl) wrote (Option.some.inj waiting) awaited
      ⟨0, 1, 8⟩ reads (Std.ExtTreeSet.contains_iff_mem.mp dirty)

end Spreadsheet.Grid
