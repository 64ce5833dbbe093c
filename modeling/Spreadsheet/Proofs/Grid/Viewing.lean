import Spreadsheet.Grid.Event
import Spreadsheet.Proofs.Grid.Refinement
import Spreadsheet.Proofs.Grid.Reporting
import Spreadsheet.Proofs.Reference.RoundTrip

/-!
# Viewers

A viewer holds the face of every cell, that is its display and its formula, and follows the events of
the actions that are accepted.  It knows the cells of an event by their sheet and by their letters and
row, which name them.

* `Screen.receive_event`: what the event of an outcome refreshes.
* `Grid.receive_act`: what a viewer shows stays true when an action is accepted.
* `Grid.display_followed_and_nodup_changed`: a viewer that begins with a new grid always shows the grid.
-/

namespace Spreadsheet

/-- What a viewer shows of a cell. -/
structure Face where
  display : String
  /-- The formula with a leading `=`; empty for a blank cell. -/
  formula : String
deriving DecidableEq, Repr

abbrev Screen := CellId → Face

def Grid.screen (g : Grid) : Screen := fun id => ⟨(g.viewed id).display, (g.viewed id).formula⟩

namespace Screen

def overwrite (screen : Screen) (change : ChangedCell) : Screen := fun id =>
  if change.sheet = id.sheet ∧ change.reference = id.a1 then ⟨change.display, change.formula⟩
  else screen id

def receive (screen : Screen) (g : Grid) : Event → Screen
  | .changed cells => cells.foldl overwrite screen
  | .invalidate => g.screen
  | _ => screen

variable {g : Grid}

/-- **A change is about one cell.** -/
theorem overwrite_viewed (screen : Screen) (id x : CellId) :
    screen.overwrite (g.viewed id) x = if x = id then g.screen x else screen x := by
  by_cases here : x = id
  · subst here
    rw [overwrite, if_pos ⟨rfl, rfl⟩, if_pos rfl]
    rfl
  · rw [overwrite, if_neg here, if_neg]
    rintro ⟨sheet, reference⟩
    obtain ⟨row, col⟩ := CellId.a1_injective reference
    refine here ?_
    cases x
    cases id
    rw [CellId.mk.injEq]
    exact ⟨sheet.symm, row.symm, col.symm⟩

/-- **The changes of some cells** refresh these. -/
theorem foldl_overwrite (ids : List CellId) (screen : Screen) (x : CellId) :
    (ids.map g.viewed).foldl overwrite screen x = if x ∈ ids then g.screen x else screen x := by
  induction ids generalizing screen with
  | nil => rfl
  | cons id ids ih =>
    rw [List.map_cons, List.foldl_cons, ih, overwrite_viewed]
    by_cases later : x ∈ ids
    · rw [if_pos later, if_pos (List.mem_cons_of_mem id later)]
    · rw [if_neg later]
      simp only [List.mem_cons, later, or_false]

/-- **The event of an outcome** has everything read again, or the cells of the outcome. -/
theorem receive_event (screen : Screen) (g : Grid) (outcome : Outcome) :
    screen.receive g (outcome.event g) = g.screen ∨
      outcome.invalidate = false ∧ ∀ x, screen.receive g (outcome.event g) x =
        if x ∈ outcome.changed then g.screen x else screen x := by
  rw [Outcome.event]
  split
  · exact Or.inl rfl
  · rename_i few
    rw [Bool.or_eq_true, not_or, Bool.not_eq_true] at few
    exact Or.inr ⟨few.1, fun x => foldl_overwrite outcome.changed screen x⟩

end Screen

namespace Grid

variable {g g' : Grid} {outcome : Outcome} {screen : Screen}

/-- The result of an action. -/
def act (g : Grid) : Action → Except EditError (Grid × Outcome)
  | .edit hooks edit => g.apply hooks edit
  | .importRows index rows draws => g.importRows index rows draws

/-- What a viewer shows after a history that it has followed from a new grid on. -/
def followed (options : Options) : List Action → Screen
  | [] => (new options).screen
  | action :: before =>
    match (ofHistory options before).act action with
    | .ok (g, outcome) => (followed options before).receive g (outcome.event g)
    | .error _ => followed options before

theorem perform_of_act {action : Action} (ok : g.act action = .ok (g', outcome)) :
    g.perform action = g' := by
  cases action with
  | edit hooks edit =>
    have accepted : g.apply hooks edit = .ok (g', outcome) := ok
    rw [perform, accepted]
  | importRows index rows draws =>
    have accepted : g.importRows index rows draws = .ok (g', outcome) := ok
    rw [perform, accepted]

theorem perform_of_act_error {action : Action} {e : EditError} (refused : g.act action = .error e) :
    g.perform action = g := by
  cases action with
  | edit hooks edit =>
    have refused : g.apply hooks edit = .error e := refused
    rw [perform, refused]
  | importRows index rows draws =>
    have refused : g.importRows index rows draws = .error e := refused
    rw [perform, refused]

/-- The result of an action is what finishes its writes.  Either the layout has changed, or the cells
that are written account for the writes. -/
theorem act_eq {action : Action} (ok : g.act action = .ok (g', outcome)) :
    ∃ g₁ hooks written invalidate, g₁.finish hooks written invalidate = (g', outcome) ∧
      (invalidate = false → Accounts g written g₁) := by
  cases action with
  | edit hooks edit =>
    obtain ⟨⟨⟨g₁, written⟩, invalidate⟩, wrote, done⟩ := ok_of_bind ok
    refine ⟨g₁, hooks, written, invalidate, Except.ok.inj done, ?_⟩
    rintro rfl
    exact Accounts.write wrote
  | importRows index rows draws =>
    obtain ⟨-, -, done⟩ := ok_of_bind ok
    exact ⟨_, { draws }, _, true, Except.ok.inj done, nofun⟩

theorem screen_eq_of_accounts {ids : List CellId} (h : Accounts g ids g') {x : CellId}
    (unlisted : x ∉ ids) : g'.screen x = g.screen x := by
  have value := h.value x unlisted
  have formula := h.formula x unlisted
  simp only [screen, viewed, display, value, formula]

/-- **What a viewer shows stays true** when an action is accepted and nothing has been waiting. -/
theorem receive_act {action : Action} (idle : g.waiting = [])
    (ok : g.act action = .ok (g', outcome)) :
    g.screen.receive g' (outcome.event g') = g'.screen := by
  obtain ⟨g₁, hooks, written, invalidate, finished, accounts⟩ := act_eq ok
  have same := invalidate_finish g₁ hooks written invalidate
  rcases g.screen.receive_event g' outcome with all | ⟨layout, some⟩
  · exact all
  · funext x
    rw [some]
    split
    · rfl
    · rename_i unlisted
      rw [finished, layout] at same
      have rest := (accounts same.symm).finish idle hooks invalidate
      rw [finished] at rest
      exact (screen_eq_of_accounts rest unlisted).symm

theorem nodup_act {action : Action} (ok : g.act action = .ok (g', outcome)) :
    outcome.changed.Nodup := by
  obtain ⟨g₁, hooks, written, invalidate, finished, -⟩ := act_eq ok
  have once := nodup_finish g₁ hooks written invalidate
  rwa [finished] at once

theorem followed_eq (options : Options) (history : List Action) :
    followed options history = (ofHistory options history).screen := by
  induction history with
  | nil => rfl
  | cons action before ih =>
    rw [followed, ofHistory]
    cases result : (ofHistory options before).act action with
    | error e => rw [perform_of_act_error result, ih]
    | ok done =>
      obtain ⟨g', outcome⟩ := done
      rw [perform_of_act result]
      show (followed options before).receive g' (outcome.event g') = g'.screen
      rw [ih]
      exact receive_act (waiting_ofHistory options before) result

/-- **A viewer that begins with a new grid always shows the grid**, if it follows the events of the
actions that are accepted and refreshes nothing but what they tell it to, whatever numbers are drawn
for the calls of `RAND` in the passes and fillings of each action.  No outcome lists a cell twice. -/
theorem display_followed_and_nodup_changed (options : Options) (history : List Action) :
    let g := ofHistory options history
    (∀ id, (followed options history id).display = g.display id ∧
      (followed options history id).formula =
        if g.formula id = "" then "" else "=" ++ g.formula id) ∧
      ∀ action g' outcome, g.act action = .ok (g', outcome) → outcome.changed.Nodup := by
  intro g
  refine ⟨fun id => ?_, fun _ _ _ ok => nodup_act ok⟩
  rw [followed_eq]
  refine ⟨rfl, ?_⟩
  by_cases blank : g.formula id = ""
  · simp [screen, viewed, g, blank]
  · simp [screen, viewed, g, blank]

/-- A formula draws `0` when it is typed and `1` when the cell that it reads is written again. -/
theorem display_followed_and_nodup_changed_draw :
    let before : List Action :=
      [.edit {} (.set ⟨0, 1, 2⟩ "=A1*0+RAND()"), .edit {} (.set ⟨0, 1, 1⟩ "5")]
    let again : Action := .edit { draws := fun _ _ _ => Number.ofNat 1 } (.set ⟨0, 1, 1⟩ "6")
    (followed {} before ⟨0, 1, 2⟩).display = "0" ∧
      (followed {} (again :: before) ⟨0, 1, 2⟩).display = "1" ∧
      ∃ g' outcome, (ofHistory {} before).act again = .ok (g', outcome) ∧
        outcome.changed.Nodup := by
  intro before again
  have accepted : ((ofHistory {} before).act again).toBool = true := by decide +kernel
  have first : (ofHistory {} before).display ⟨0, 1, 2⟩ = "0" := by decide +kernel
  have second : (ofHistory {} (again :: before)).display ⟨0, 1, 2⟩ = "1" := by decide +kernel
  refine ⟨((display_followed_and_nodup_changed {} before).1 _).1.trans first,
    ((display_followed_and_nodup_changed {} (again :: before)).1 _).1.trans second, ?_⟩
  cases ok : (ofHistory {} before).act again with
  | error e =>
    rw [ok] at accepted
    cases accepted
  | ok result =>
    exact ⟨result.1, result.2, rfl, (display_followed_and_nodup_changed {} before).2 _ _ _ ok⟩

end Grid

end Spreadsheet
