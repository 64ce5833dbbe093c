import Spreadsheet.Proofs.Grid.Displacement
import Spreadsheet.Proofs.Grid.History

/-!
# Every value is the value of its formula

After each step of a history nothing is dirty, nothing waits, and the cached values are those that the
formulas have in the grid as it is.

* `Grid.tracked_ofHistory`: the invariant of values, also for passes that are cancelled.
* `Grid.waiting_ofHistory` and `Grid.clean_ofHistory`: nothing waits, and nothing is dirty when no pass
  is cancelled.
* `Grid.current_ofHistory`: incremental recomputation gives what evaluation from scratch gives.
-/

namespace Spreadsheet

/-- No pass of the action is cancelled. -/
def Action.NeverCancels (action : Action) : Prop := ∀ done, action.hooks.cancel done = false

namespace Grid

variable {g g' : Grid} {removed : List String}

def removedName? (g : Grid) : Action → Option String
  | .edit _ (.removeSheet index) =>
    match g.removeSheet index with
    | .ok _ => (g.sheets[index]?).map Sheet.name
    | .error _ => none
  | _ => none

/-- The names of the sheets that are removed in a history. -/
def removedNames (options : Options) : List Action → List String
  | [] => []
  | action :: before =>
    ((ofHistory options before).removedName? action).toList ++ removedNames options before

/-- No sheet gets the name of one that was removed earlier. -/
def NeverReuses (options : Options) : List Action → Prop
  | [] => True
  | action :: before => NeverReuses options before ∧
    ∀ hooks name, action = .edit hooks (.addSheet name) → name ∉ removedNames options before

/-! ### The invariant along a history -/

theorem tracked_new (options : Options) : (new options).Tracked [] where
  regular := regular_new options
  traced := traced_new options
  named y _ m hm := by
    rw [formula, cell_new] at hm
    rw [show Cell.blank.formula = "" from rfl, mentions_empty] at hm
    exact absurd hm List.not_mem_nil
  closed x dirty := absurd dirty Std.ExtTreeSet.not_mem_empty
  current := by
    constructor
    · intro y _ _ _ _
      have blank : (new options).formula y = "" := by rw [formula, cell_new]; rfl
      rw [value, cell_new, formulaValue, blank, evaluate_empty]
      exact Or.inl rfl
    · intro y _ cycle
      obtain ⟨x, -, edge⟩ := Relation.TransGen.tail'_iff.mp cycle
      rw [Edge, cell_new] at edge
      exact absurd edge Std.ExtTreeSet.not_mem_empty

theorem Prepared.tracked {options : Options} {history : List Action} {action : Action} {g₁ : Grid}
    (h : (ofHistory options history).Tracked (removedNames options history))
    (added : ∀ hooks name g', action = .edit hooks (.addSheet name) →
      (ofHistory options history).addSheet name = .ok g' →
        g'.Tracked (removedNames options history))
    (prepared : Prepared (ofHistory options history) action g₁) :
    ∃ removed, g₁.Tracked removed ∧ ∀ name ∈ removed,
      name ∈ removedNames options (action :: history) := by
  cases prepared with
  | same => exact ⟨_, h, fun name used => List.mem_append_right _ used⟩
  | added hooks name same ok =>
    exact ⟨_, added hooks name _ same ok, fun name used => List.mem_append_right _ used⟩
  | removed hooks index same ok =>
    obtain ⟨⟨s, found⟩, -⟩ := removeSheet_eq_ok_iff.mp ok
    refine ⟨_, h.removeSheet ok found, ?_⟩
    intro name used
    subst same
    rw [removedNames, removedName?, ok, found]
    exact used

theorem Tracked.mono {removed' : List String} (h : g.Tracked removed)
    (more : ∀ name ∈ removed, name ∈ removed') : g.Tracked removed' where
  regular := h.regular
  traced := h.traced
  named y notFilling m hm unresolved := by
    obtain ⟨name, used, written⟩ := h.named y notFilling m hm unresolved
    exact ⟨name, more name used, written⟩
  closed := h.closed
  current := h.current

/-- **The invariant of values holds along every history**, whichever passes are cancelled. -/
theorem tracked_ofHistory (options : Options) (history : List Action)
    (fresh : NeverReuses options history) :
    (ofHistory options history).Tracked (removedNames options history) := by
  induction history with
  | nil => exact tracked_new options
  | cons action history ih =>
    have h := ih fresh.1
    obtain ⟨g₁, prepared, rewrites⟩ :=
      rewrites_perform inherited_true h.regular (fun _ => trivial) action
    obtain ⟨removed, tracked, more⟩ := prepared.tracked h fun hooks name _ same ok =>
      h.addSheet ok (fresh.2 hooks name same)
    exact (rewrites.tracked tracked).mono more

/-! ### Nothing is left to do -/

theorem recompute_clean (wired : g.Wired) {hooks : Hooks}
    (never : ∀ done, hooks.cancel done = false) : (g.recompute hooks).1.dirty = ∅ := by
  obtain ⟨order, p, settled, ends⟩ :=
    wired.linked.exists_settled (recompute_not_cancelled wired.linked never)
  rw [ends]
  exact settled.clean

theorem fill_waiting (g : Grid) (id : CellId) (formula : String) (draws : Formula.Draws) :
    (g.fill id formula draws).1.waiting = g.waiting :=
  List.foldlRecOn (motive := fun g' : Grid => g'.waiting = g.waiting) _ _ (store_waiting g _ _)
    fun g' before o _ => (store_waiting g' o.cell _).trans before

theorem runWaiting_waiting (g : Grid) (draws : Nat → Formula.Draws) :
    (g.runWaiting draws).1.waiting = [] := by
  refine runWaiting_induction (motive := fun g' _ => g'.waiting = []) rfl ?_
  exact fun g' _ id formula turn _ _ _ idle =>
    (fill_waiting g' id formula (draws turn)).trans idle

theorem finish_waiting (regular : g.Regular) (hooks : Hooks) (written : List CellId)
    (invalidate : Bool) : (g.finish hooks written invalidate).1.waiting = [] := by
  have first : Rewrites (fun _ => True) g (g.recompute hooks).1 := .recompute hooks .refl
  have regular₁ := first.regular regular
  rw [finish]
  dsimp only
  split
  · rename_i none
    exact List.isEmpty_iff.mp none
  · have regular₂ := fun draws =>
      (rewrites_runWaiting inherited_true regular₁ (fun _ => trivial) draws).regular regular₁
    exact (recompute_alike (regular₂ _).wired _).waiting.trans (runWaiting_waiting _ _)

theorem finish_of_idle (wired : g.Wired) (idle : g.waiting = []) {hooks : Hooks}
    {written : List CellId} {invalidate : Bool} {outcome : Outcome}
    (done : g.finish hooks written invalidate = (g', outcome)) :
    g' = (g.recompute hooks).1 ∧ outcome.report = (g.recompute hooks).2 := by
  have none : (g.recompute hooks).1.waiting = [] := by
    rw [(recompute_alike wired hooks).waiting, idle]
  rw [finish] at done
  dsimp only at done
  rw [if_pos (by rw [none]; rfl), Prod.mk.injEq] at done
  rw [← done.1, ← done.2]
  exact ⟨rfl, rfl⟩

theorem finish_clean (regular : g.Regular) {hooks : Hooks}
    (never : ∀ done, hooks.cancel done = false) (written : List CellId) (invalidate : Bool) :
    (g.finish hooks written invalidate).1.dirty = ∅ := by
  have first : Rewrites (fun _ => True) g (g.recompute hooks).1 := .recompute hooks .refl
  have regular₁ := first.regular regular
  rw [finish]
  dsimp only
  split
  · exact recompute_clean regular.wired never
  · have regular₂ := fun draws =>
      (rewrites_runWaiting inherited_true regular₁ (fun _ => trivial) draws).regular regular₁
    exact recompute_clean (regular₂ _).wired fun _ => rfl

/-- **Nothing waits** after a history, whichever passes are cancelled. -/
theorem waiting_ofHistory (options : Options) (history : List Action) :
    (ofHistory options history).waiting = [] := by
  induction history with
  | nil => rfl
  | cons action history ih =>
    have regular := regular_ofHistory options history
    rcases perform_cases inherited_true regular (fun _ => trivial) action with
      same | ⟨g₁, g₂, written, invalidate, prepared, rewrites, ends⟩
    · rw [ofHistory, same]
      exact ih
    · rw [ofHistory, ← ends]
      exact finish_waiting (rewrites.regular (prepared.regular regular)) _ _ _

/-- **Nothing is dirty** after a history in which no pass is cancelled. -/
theorem clean_ofHistory (options : Options) (history : List Action)
    (never : ∀ action ∈ history, action.NeverCancels) :
    (ofHistory options history).dirty = ∅ := by
  induction history with
  | nil => rfl
  | cons action history ih =>
    have before := ih fun a h => never a (List.mem_cons_of_mem _ h)
    have regular := regular_ofHistory options history
    rcases perform_cases inherited_true regular (fun _ => trivial) action with
      same | ⟨g₁, g₂, written, invalidate, prepared, rewrites, ends⟩
    · rw [ofHistory, same]
      exact before
    · rw [ofHistory, ← ends]
      exact finish_clean (rewrites.regular (prepared.regular regular))
        (never action List.mem_cons_self) written invalidate

/-! ### Refinement -/

/-- The formula of `y` reads `x`.  A formula that fills other cells is run only once and reads nothing
from then on. -/
def FormulaReads (g : Grid) (x y : CellId) : Prop :=
  (g.cell y).isFilling = false ∧ Formula.Reads y.sheet g.directory (g.formula y) x

/-- **Incremental recomputation refines evaluation from scratch.**  After every history in which no
pass is cancelled and no name of a removed sheet is used again, nothing is dirty and nothing waits.
Every stored cell that fills no others, calls no `RAND` and is not behind a cycle of reading formulas
has the value that its formula has in the grid as it is, and every cell on such a cycle says so. -/
theorem current_ofHistory (options : Options) (history : List Action)
    (never : ∀ action ∈ history, action.NeverCancels) (fresh : NeverReuses options history) :
    let g := ofHistory options history
    g.dirty = ∅ ∧ g.waiting = [] ∧
      (∀ y ∈ g.cells, (g.cell y).isFilling = false → ¬ Formula.CallsRandom (g.formula y) →
        ¬ BehindCycle g.FormulaReads y →
          (g.value y).agrees (Formula.evaluate g.view y (g.formula y)).toValue) ∧
      ∀ y, OnCycle g.FormulaReads y →
        g.value y = .text ("Circular reference: " ++ g.formula y) := by
  intro g
  have tracked : g.Tracked (removedNames options history) := tracked_ofHistory options history fresh
  have clean : g.dirty = ∅ := clean_ofHistory options history never
  have idle : g.waiting = [] := waiting_ofHistory options history
  have edge : g.Edge = g.FormulaReads := by
    funext x y
    cases filling : (g.cell y).isFilling with
    | true =>
      refine propext ⟨fun edge => ?_, fun reads => absurd (filling.symm.trans reads.1) nofun⟩
      rw [Edge, tracked.regular.wired.inert y filling] at edge
      exact absurd edge Std.ExtTreeSet.not_mem_empty
    | false => exact propext ((tracked.traced y filling x).trans ⟨fun h => ⟨filling, h⟩, And.right⟩)
  have cleanAt : ∀ y, y ∉ g.dirty := by
    intro y dirty
    rw [clean] at dirty
    exact Std.ExtTreeSet.not_mem_empty dirty
  refine ⟨clean, idle, ?_, ?_⟩
  · intro y _ notFilling noRandom free
    rw [← edge] at free
    exact tracked.current.value y (cleanAt y) notFilling noRandom free
  · intro y cycle
    rw [← edge] at cycle
    exact tracked.current.circular y (cleanAt y) cycle

theorem current_ofHistory_loop :
    let history : List Action :=
      [.edit {} (.set ⟨0, 1, 2⟩ "=A1"), .edit {} (.removeSheet 1), .edit {} (.set ⟨0, 1, 1⟩ "=B1")]
    (∀ action ∈ history, action.NeverCancels) ∧ NeverReuses {} history ∧
      (ofHistory {} history).dirty = ∅ ∧
        (ofHistory {} history).value ⟨0, 1, 1⟩ = .text ("Circular reference: " ++ "B1") := by
  intro history
  have never : ∀ action ∈ history, action.NeverCancels := by
    intro action h
    simp only [history, List.mem_cons, List.not_mem_nil, or_false] at h
    rcases h with rfl | rfl | rfl <;> exact fun _ => rfl
  have fresh : NeverReuses {} history := ⟨⟨⟨trivial, nofun⟩, nofun⟩, nofun⟩
  obtain ⟨clean, -, -, circular⟩ := current_ofHistory {} history never fresh
  have formulaA : (ofHistory {} history).formula ⟨0, 1, 1⟩ = "B1" := by decide +kernel
  have formulaB : (ofHistory {} history).formula ⟨0, 1, 2⟩ = "A1" := by decide +kernel
  have readsA : (ofHistory {} history).FormulaReads ⟨0, 1, 2⟩ ⟨0, 1, 1⟩ := by
    refine ⟨by decide +kernel, ?_⟩
    rw [formulaA]
    exact ⟨(.cell { sheet := none, row := 1, col := 2 }, "B1".toList), by decide +kernel, 0, rfl,
      by decide⟩
  have readsB : (ofHistory {} history).FormulaReads ⟨0, 1, 1⟩ ⟨0, 1, 2⟩ := by
    refine ⟨by decide +kernel, ?_⟩
    rw [formulaB]
    exact ⟨(.cell { sheet := none, row := 1, col := 1 }, "A1".toList), by decide +kernel, 0, rfl,
      by decide⟩
  refine ⟨never, fresh, clean, ?_⟩
  rw [circular ⟨0, 1, 1⟩ (.tail (.single readsB) readsA), formulaA]

theorem forall_cells {P : CellId → Cell → Bool} (blank : ∀ x, P x .blank = true)
    (stored : (g.cells.toList.all fun p => P p.1 p.2) = true) (x : CellId) :
    P x (g.cell x) = true := by
  rw [cell, Std.ExtTreeMap.getD_eq_getD_getElem?]
  cases found : g.cells[x]? with
  | none => exact blank x
  | some c =>
    exact List.all_eq_true.mp stored _ (Std.ExtTreeMap.mem_toList_iff_getElem?_eq_some.mpr found)

/-- A formula that fills other cells and refers to its own cell is on a cycle of formulas as they are
written, but it shows its status. -/
theorem not_circular_of_filling :
    ¬ ∀ (options : Options) (history : List Action), (∀ action ∈ history, action.NeverCancels) →
      NeverReuses options history →
        (∀ y, ¬ Formula.CallsRandom ((ofHistory options history).formula y)) →
          ∀ y, OnCycle (fun x y => Formula.Reads y.sheet (ofHistory options history).directory
            ((ofHistory options history).formula y) x) y →
              (ofHistory options history).value y =
                .text ("Circular reference: " ++ (ofHistory options history).formula y) := by
  intro all
  let history : List Action := [.edit {} (.set ⟨0, 1, 1⟩ "=OLS(A1)")]
  have formula : (ofHistory {} history).formula ⟨0, 1, 1⟩ = "OLS(A1)" := by decide +kernel
  have noRandom : ∀ y, ¬ Formula.CallsRandom ((ofHistory {} history).formula y) := fun y =>
    of_decide_eq_true (forall_cells (P := fun _ c => ¬ Formula.CallsRandom c.formula)
      (fun _ => by decide +kernel) (by decide +kernel) y)
  have value := all {} history ?_ ⟨trivial, nofun⟩ noRandom ⟨0, 1, 1⟩ ?_
  · rw [formula] at value
    revert value
    decide +kernel
  · intro action h
    rw [List.mem_singleton.mp h]
    exact fun _ => rfl
  · refine .single ?_
    rw [formula]
    exact ⟨(.cell { sheet := none, row := 1, col := 1 }, "A1".toList), by decide +kernel, 0, rfl,
      by decide⟩

end Grid

end Spreadsheet
