import Spreadsheet.Proofs.Formula.Filling
import Spreadsheet.Proofs.Grid.Literals

/-!
# Formulas that are marked

A formula that fills the cells beside it is run once, after it is written.  A pass leaves it alone,
because its cell is marked; if the mark were missing, the pass would evaluate the call and lose what it
fills in.  The mark is set when the formula is typed and handed on with the formula when it is copied,
cut or sorted, while its text is written anew.

* `Grid.Marked g`: every formula with such a call is marked.
* `Grid.Marked.store` and the others: one step each.
* `Grid.Marked.write` and `Grid.Marked.finish`: edits and what follows them.
* `Grid.PassStart options history start`: the grids from which a pass starts.
* `Grid.isFilling_of_callsFilling`: no call is missed, neither by the look at its text nor in any grid
  that has a history, and no pass evaluates one.
-/

namespace Spreadsheet.Grid

open Formula

variable {g g' : Grid} {id : CellId}

/-- Every formula that calls a function that fills other cells is marked. -/
structure Marked (g : Grid) : Prop where
  regular : g.Regular
  flagged : ∀ x, Flagged (g.formula x) (g.cell x).isFilling

theorem flagged_resolved (g : Grid) (sheet : Nat) {c : Cell} (h : Flagged c.formula c.isFilling) :
    Flagged (g.resolved sheet c).formula (g.resolved sheet c).isFilling := by
  rw [resolved]
  split
  · exact h
  · split
    · exact h
    · exact flagged_quote _ _

namespace Marked

theorem of_places (h : g.Marked) (regular : g'.Regular)
    (place : ∀ x, ∃ y, g'.formula x = g.formula y ∧ (g'.cell x).isFilling = (g.cell y).isFilling) :
    g'.Marked where
  regular := regular
  flagged x := by
    obtain ⟨y, formula, filling⟩ := place x
    rw [formula, filling]
    exact h.flagged y

variable (h : g.Marked)

include h

/-! ### One step -/

/-- **A write.** -/
theorem store (id : CellId) {c : Cell} (flagged : Flagged c.formula c.isFilling) :
    (g.store id c).Marked where
  regular := (Rewrites.store (P := fun _ => True) id c trivial .refl).regular h.regular
  flagged x := by
    rw [formula_store, isFilling_store]
    split
    · exact flagged_resolved g id.sheet flagged
    · exact h.flagged x

theorem growSheet (index rows cols : Nat) : (g.growSheet index rows cols).Marked :=
  h.of_places (h.regular.growSheet index rows cols) fun x => ⟨x, rfl, rfl⟩

theorem await (waiting : List (CellId × String)) : { g with waiting }.Marked :=
  h.of_places ((Rewrites.await (P := fun _ => True) waiting .refl).regular h.regular)
    fun x => ⟨x, rfl, rfl⟩

/-- **A pass.** -/
theorem recompute (hooks : Hooks) : (g.recompute hooks).1.Marked := by
  have alike := recompute_alike h.regular.wired hooks
  exact h.of_places (alike.regular h.regular) fun x => ⟨x, alike.formula x, alike.filling x⟩

theorem addSheet {name : String} (ok : g.addSheet name = .ok g') : g'.Marked := by
  have cell : ∀ x, g'.cell x = g.cell x := fun x => by rw [Grid.cell, Grid.cell, cells_addSheet ok]
  exact h.of_places (h.regular.addSheet ok) fun x =>
    ⟨x, congrArg Cell.formula (cell x), congrArg Cell.isFilling (cell x)⟩

theorem removeSheet {index : Nat} (ok : g.removeSheet index = .ok g') : g'.Marked := by
  have regular := h.regular.removeSheet ok
  obtain ⟨-, -, rfl⟩ := removeSheet_eq_ok_iff.mp ok
  rw [sheetRemoved_eq] at regular ⊢
  exact h.of_places regular fun x =>
    ⟨restored index x, formula_dropSheet g index x, isFilling_dropSheet g index x⟩

/-! ### Writing formulas -/

theorem enqueue (id : CellId) {formula : String} (tidy : Tidy formula) :
    (g.enqueue id formula).Marked := by
  have flagged : Flagged (Cell.filling formula "").formula (Cell.filling formula "").isFilling :=
    ⟨tidy, fun _ => rfl⟩
  exact (h.store id flagged).await _

theorem update {u : Update} (flagged : Flagged u.formula u.filling) : (g.update u).Marked := by
  rw [Grid.update]
  split
  · exact h.enqueue u.cell flagged.tidy
  · rename_i unmarked
    rw [Bool.not_eq_true] at unmarked
    rw [unmarked] at flagged
    exact h.store u.cell flagged

theorem updateAll {us : List Update} (flagged : ∀ u ∈ us, Flagged u.formula u.filling) :
    (g.updateAll us).1.Marked :=
  List.foldlRecOn us _ h fun _ before u mem => before.update (flagged u mem)

theorem clearAll (ids : List CellId) : (g.clearAll ids).1.Marked :=
  List.foldlRecOn ids _ h fun _ before id _ => before.store id (flagged_literalFormula "" false)

end Marked

/-- An edit after whose writes nothing waits ends with its first pass. -/
theorem finish_of_nil (idle : g.waiting = []) (hooks : Hooks) (written : List CellId)
    (invalidate : Bool) : (g.finish hooks written invalidate).1 = (g.recompute hooks).1 := by
  rw [finish]
  dsimp only
  rw [recompute_waiting, idle]
  rfl

theorem flagged_ofText (text : String) :
    Flagged (Input.ofText text).stored (Input.ofText text).fills := by
  have typed : Input.ofText text = .literal (literalFormula text) ∨ ∃ body, Input.ofText text =
      if !isValid body then .invalid body
      else if mentionsFilling body then .filling body else .formula body := by
    rw [Input.ofText]
    split
    · exact Or.inr ⟨_, rfl⟩
    · exact Or.inl rfl
  rcases typed with literal | ⟨body, typed⟩
  · rw [literal]
    exact flagged_literalFormula text false
  · rw [typed]
    by_cases valid : isValid body = true
    · rw [if_neg (by simp [valid])]
      by_cases mentions : mentionsFilling body = true
      · rw [if_pos mentions]
        exact ⟨Or.inl valid, fun _ => rfl⟩
      · rw [if_neg mentions]
        exact ⟨Or.inl valid, fun names => absurd names.mentionsFilling mentions⟩
    · rw [if_pos (by simpa using valid)]
      exact flagged_quote _ _

namespace Marked

variable (h : g.Marked)

include h

theorem enter (id : CellId) (text : String) : (g.enter id text).Marked := by
  rw [enter_eq_update]
  exact h.update (flagged_ofText text)

/-! ### Blocks and lines -/

theorem flagged_copied (source target : CellId) :
    Flagged (g.copied source target).formula (g.copied source target).filling :=
  (h.flagged source).relocate source target false g.directory

theorem flagged_moved (cut : Cut) (source target : CellId) :
    Flagged (g.moved cut source target).formula (g.moved cut source target).filling :=
  (h.flagged source).retarget source.sheet target.sheet cut g.directory

theorem copyBlock (source destination : BoundRange) : (g.copyBlock source destination).1.Marked := by
  refine h.updateAll fun u hu => ?_
  obtain ⟨pair, -, rfl⟩ := List.mem_map.mp hu
  exact h.flagged_copied pair.2 pair.1

theorem copyBlockValues (source destination : BoundRange) :
    (g.copyBlockValues source destination).1.Marked := by
  refine h.updateAll fun u hu => ?_
  obtain ⟨pair, -, rfl⟩ := List.mem_map.mp hu
  exact flagged_literal _ _

theorem sortBlock (range : BoundRange) (column : Nat) (ascending : Bool) :
    (g.sortBlock range column ascending).1.Marked := by
  refine h.updateAll fun u hu => ?_
  obtain ⟨row, -, hu⟩ := List.mem_flatMap.mp hu
  obtain ⟨col, -, rfl⟩ := List.mem_map.mp hu
  exact h.flagged_copied _ _

theorem cutBlock (source destination : BoundRange) : (g.cutBlock source destination).1.Marked := by
  have moved := h.flagged_moved (cutOf source destination (g.mapping source destination))
  refine cutBlock_induction h ?_ ?_ fun _ id _ before =>
    before.store id (flagged_literalFormula "" false)
  · exact fun _ target id _ before => before.update (moved id target)
  · exact fun _ id _ before => before.update (moved id id)

theorem editLine (kind : LineKind) (edit : LineEdit) (id : CellId) (size : Bounds) :
    (g.editLine kind edit id size).1.Marked :=
  editLine_induction kind edit id size (h.clearAll _) (fun rows cols => h.growSheet _ rows cols)
    fun _ source destination before => before.cutBlock source destination

/-! ### What follows the writes -/

theorem fill (id : CellId) {formula : String} (tidy : Tidy formula) (draws : Draws) :
    (g.fill id formula draws).1.Marked :=
  List.foldlRecOn _ _ (h.store id ⟨tidy, fun _ => rfl⟩) fun _ before o _ =>
    before.store o.cell (flagged_literal o.value false)

/-- **The waiting formulas** are run. -/
theorem runNext (draws : Draws) (entry : CellId × String) : (g.runNext draws entry).Marked := by
  rw [Grid.runNext]
  split
  · rename_i awaited
    rw [awaits, Bool.and_eq_true, beq_iff_eq] at awaited
    exact h.fill entry.1 (awaited.2 ▸ (h.flagged entry.1).tidy) draws
  · exact h

theorem runQueue (draws : Nat → Draws) (queue : List (CellId × String)) :
    (g.runQueue draws queue).Marked := by
  induction queue generalizing g draws with
  | nil => exact h
  | cons entry queue ih => exact ih (h.runNext (draws 0) entry) _

theorem queueStart (hooks : Hooks) : (g.queueStart hooks).Marked := (h.recompute hooks).await []

/-- **What follows the writes of an edit**, two passes and the formulas that fill cells between them. -/
theorem finish (hooks : Hooks) (written : List CellId) (invalidate : Bool) :
    (g.finish hooks written invalidate).1.Marked := by
  refine finish_induction hooks h (fun _ hooks before => before.recompute hooks)
    (fun _ before => before.await []) ?_ written invalidate
  exact fun _ id draws _ _ before => before.fill id (before.flagged id).tidy draws

/-! ### Edits -/

/-- **An edit that is accepted.** -/
theorem write {edit : Edit} {written : List CellId} {invalidate : Bool}
    (ok : g.write edit = .ok ((g', written), invalidate)) : g'.Marked := by
  cases writes_of_write ok with
  | set id text => exact h.enter id text
  | batch ids texts => exact List.foldlRecOn _ _ h fun _ before pair _ => before.enter pair.1 pair.2
  | copy source destination => exact h.copyBlock source destination
  | cut source destination => exact h.cutBlock source destination
  | copyValues source destination => exact h.copyBlockValues source destination
  | sort range column ascending => exact h.sortBlock range column ascending
  | resize index rows cols => exact h.growSheet index rows cols
  | addSheet name added => exact h.addSheet added
  | removeSheet index removed => exact h.removeSheet removed
  | line kind edit id => exact h.editLine kind edit id _
  | clear range => exact h.clearAll range.cells

theorem importUpdates (index : Nat) (rows : List (List String)) :
    ((g.growSheet index rows.length ((rows.map List.length).foldl max 0)).updateAll
      (Grid.importUpdates index rows)).1.Marked := by
  refine (h.growSheet index _ _).updateAll fun u hu => ?_
  obtain ⟨row, -, hu⟩ := List.mem_flatMap.mp hu
  obtain ⟨⟨text, col⟩, -, rfl⟩ := List.mem_map.mp hu
  dsimp only
  exact flagged_literalFormula _ _

/-- **An action**, accepted or refused. -/
theorem perform (action : Action) : (g.perform action).Marked := by
  cases action with
  | importRows index rows draws =>
    rw [Grid.perform]
    split
    · rename_i done
      exact importRows_eq done ▸ (h.importUpdates index rows).finish _ _ _
    · exact h
  | edit hooks edit =>
    cases wrote : g.write edit with
    | error e => rwa [perform_of_refused wrote]
    | ok result =>
      obtain ⟨⟨g₁, written⟩, invalidate⟩ := result
      rw [perform_of_write wrote]
      exact (h.write wrote).finish hooks written invalidate

end Marked

/-! ### Every grid that has a history -/

theorem marked_new (options : Options) : (new options).Marked where
  regular := regular_new options
  flagged x := by
    rw [formula, cell_new]
    exact flagged_literalFormula "" false

theorem marked_ofHistory (options : Options) (history : List Action) :
    (ofHistory options history).Marked := by
  induction history with
  | nil => exact marked_new options
  | cons action history ih => exact ih.perform action

/-- The grids from which a pass starts when a history has come to its end: the grid itself, and in the
next action the grid after the writes, and the one after the waiting formulas have been run. -/
inductive PassStart (options : Options) (history : List Action) : Grid → Prop
  | rest : PassStart options history (ofHistory options history)
  | edit {edit : Edit} {g : Grid} {written : List CellId} {invalidate : Bool} :
      (ofHistory options history).write edit = .ok ((g, written), invalidate) →
        PassStart options history g
  | importRows (index : Nat) (rows : List (List String)) :
      PassStart options history
        (((ofHistory options history).growSheet index rows.length
          ((rows.map List.length).foldl max 0)).updateAll (importUpdates index rows)).1
  | queue {g : Grid} (hooks : Hooks) : PassStart options history g →
      PassStart options history ((g.queueStart hooks).runQueue (queueDraws hooks) g.waiting)

theorem PassStart.marked {options : Options} {history : List Action} {start : Grid}
    (h : PassStart options history start) : start.Marked := by
  induction h with
  | rest => exact marked_ofHistory options history
  | edit wrote => exact (marked_ofHistory options history).write wrote
  | importRows index rows => exact (marked_ofHistory options history).importUpdates index rows
  | queue hooks _ ih => exact (ih.queueStart hooks).runQueue _ _

theorem exists_passStart (options : Options) (history : List Action) (action : Action) :
    (ofHistory options history).perform action = ofHistory options history ∨
      ∃ start hooks, PassStart options history start ∧
        (ofHistory options history).perform action = (start.recompute hooks).1 := by
  have finishes : ∀ {g : Grid} (hooks : Hooks) (written : List CellId) (invalidate : Bool),
      PassStart options history g → ∃ start hooks', PassStart options history start ∧
        (g.finish hooks written invalidate).1 = (start.recompute hooks').1 := by
    intro g hooks written invalidate starts
    by_cases waiting : g.waiting = []
    · exact ⟨g, hooks, starts, finish_of_nil waiting hooks written invalidate⟩
    · exact ⟨_, _, .queue hooks starts, finish_of_waiting waiting hooks written invalidate⟩
  cases action with
  | importRows index rows draws =>
    rw [perform]
    split
    · rename_i done
      rw [← importRows_eq done]
      exact Or.inr (finishes _ _ _ (.importRows index rows))
    · exact Or.inl rfl
  | edit hooks edit =>
    cases wrote : (ofHistory options history).write edit with
    | error e => exact Or.inl (perform_of_refused wrote)
    | ok result =>
      obtain ⟨⟨g₁, written⟩, invalidate⟩ := result
      rw [perform_of_write wrote]
      exact Or.inr (finishes _ _ _ (.edit wrote))

/-- A pass evaluates no call that fills other cells, whichever cells it has computed before. -/
theorem Marked.not_calls_of_computed (h : g.Marked) (hooks : Hooks) (total : Nat)
    (order : List CellId) {x : CellId} {draws : Draws} {v : CellValue}
    (computed :
      (order.foldl (Pass.compute hooks total) (Pass.start g)).grid.computed? x draws = some v) :
    ¬ CallsFilling ((order.foldl (Pass.compute hooks total) (Pass.start g)).grid.formula x) := by
  intro calls
  have alike := Pass.alike_foldl_compute hooks total order (Pass.start g)
  rw [alike.formula] at calls
  have filling := (h.flagged x).marked calls.namesFilling
  rw [computed?_eq, alike.filling, show (Pass.start g).grid = g from rfl, filling] at computed
  cases computed

/-- **No call is missed.**  A look at its text finds every call that fills other cells, at any depth and
in any letter case.  In every grid that has a history each formula with such a call is marked.  So a
pass never evaluates one, and what is computed by a pass fills no cells. -/
theorem isFilling_of_callsFilling (options : Options) (history : List Action) :
    (∀ formula, CallsFilling formula → mentionsFilling formula = true) ∧
      (∀ x, CallsFilling ((ofHistory options history).formula x) →
        ((ofHistory options history).cell x).isFilling = true) ∧
      ∀ start, PassStart options history start → ∀ hooks total (order : List CellId) x draws v,
        let p := order.foldl (Pass.compute hooks total) (Pass.start start)
        p.grid.computed? x draws = some v → ¬ CallsFilling (p.grid.formula x) ∧
          ∀ view, Formula.outputs view x (p.grid.formula x) = [] := by
  refine ⟨fun _ calls => calls.namesFilling.mentionsFilling,
    fun x calls => ((marked_ofHistory options history).flagged x).marked calls.namesFilling, ?_⟩
  intro start starts hooks total order x draws v p computed
  have silent := starts.marked.not_calls_of_computed hooks total order computed
  exact ⟨silent, fun view => outputs_of_not_callsFilling silent view x⟩

/-- A call in small letters inside another call, and its copy; and a pass of the next edit that has
computed the first of two cells. -/
theorem isFilling_of_callsFilling_nested :
    let history : List Action :=
      [.edit {} (.copy (.single ⟨0, 1, 4⟩) (.single ⟨0, 5, 4⟩)),
        .edit {} (.set ⟨0, 1, 4⟩ "=SUM(C1,ols(A1,B1))")]
    let g := ofHistory {} history
    CallsFilling (g.formula ⟨0, 5, 4⟩) ∧ mentionsFilling (g.formula ⟨0, 5, 4⟩) = true ∧
      (g.cell ⟨0, 5, 4⟩).isFilling = true ∧
      ∃ start, PassStart {} history start ∧
        let p := [(⟨0, 1, 1⟩ : CellId)].foldl (Pass.compute {} 2) (Pass.start start)
        p.grid.computed? ⟨0, 1, 2⟩ = some (.number (Number.ofNat 4)) ∧
          ¬ CallsFilling (p.grid.formula ⟨0, 1, 2⟩) ∧
          ∀ view, Formula.outputs view ⟨0, 1, 2⟩ (p.grid.formula ⟨0, 1, 2⟩) = [] := by
  intro history g
  have calls : CallsFilling (g.formula ⟨0, 5, 4⟩) := by decide +kernel
  obtain ⟨found, marked, silent⟩ := isFilling_of_callsFilling {} history
  have filling : (g.cell ⟨0, 5, 4⟩).isFilling = true := marked ⟨0, 5, 4⟩ calls
  refine ⟨calls, found _ calls, filling, ?_⟩
  have second : (g.write (.batch [⟨0, 1, 1⟩, ⟨0, 1, 2⟩] ["3", "=A1+1"])).toOption.bind
      (fun result => ([(⟨0, 1, 1⟩ : CellId)].foldl (Pass.compute {} 2)
        (Pass.start result.1.1)).grid.computed? ⟨0, 1, 2⟩) =
          some (.number (Number.ofNat 4)) := by decide +kernel
  cases wrote : g.write (.batch [⟨0, 1, 1⟩, ⟨0, 1, 2⟩] ["3", "=A1+1"]) with
  | error e =>
    rw [wrote] at second
    cases second
  | ok result =>
    rw [wrote] at second
    have starts : PassStart {} history result.1.1 := .edit wrote
    obtain ⟨free, fillsNothing⟩ := silent _ starts {} 2 [⟨0, 1, 1⟩] ⟨0, 1, 2⟩ .zero _ second
    exact ⟨_, starts, second, free, fillsNothing⟩

end Spreadsheet.Grid
