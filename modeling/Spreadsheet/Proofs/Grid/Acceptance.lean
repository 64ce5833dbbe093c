import Spreadsheet.Grid.Edit

/-!
# Edits that are accepted

An edit is refused unless its checks pass, and only then it writes.  `Grid.Writes` has a constructor for
each edit, with the checks that have passed and what is written.  What all edits keep is proved by
cases on it, and one edit is looked at by matching its constructor.

* `Grid.checkInside_eq_ok_iff`, `Grid.checkRange_eq_ok_iff`: the cells and ranges that pass.
* `Grid.addSheet_eq_ok_iff`, `Grid.removeSheet_eq_ok_iff`: the sheets that are added and removed.
* `Grid.writes_of_write`, `Grid.Writes.write_eq`: an edit is accepted just if its checks pass.
* `Grid.apply_eq_ok_iff`: then it writes, and what follows the writes is done.
-/

namespace Spreadsheet

theorem ok_of_bind {ε α β : Type} {x : Except ε α} {f : α → Except ε β} {b : β}
    (h : x >>= f = .ok b) : ∃ a, x = .ok a ∧ f a = .ok b := by
  cases x with
  | error e => exact absurd h nofun
  | ok a => exact ⟨a, rfl, h⟩

theorem Sheet.contains_iff {s : Sheet} {row col : Nat} : s.contains row col = true ↔
    1 ≤ row ∧ row ≤ s.rows ∧ 1 ≤ col ∧ col ≤ s.cols := by
  simp only [contains, Bool.and_eq_true, decide_eq_true_eq, and_assoc]

namespace Grid

variable {g g' : Grid}

/-! ### Checks -/

theorem sheet_eq_ok_iff {index : Nat} {s : Sheet} :
    g.sheet index = .ok s ↔ g.sheets[index]? = some s := by
  rw [sheet]
  cases g.sheets[index]? <;> simp

theorem checkInside_eq_ok_iff {id : CellId} {place : String} :
    g.checkInside id place = .ok () ↔
      ∃ s, g.sheets[id.sheet]? = some s ∧ s.contains id.row id.col = true := by
  constructor
  · intro ok
    obtain ⟨s, found, ok⟩ := ok_of_bind ok
    refine ⟨s, sheet_eq_ok_iff.mp found, ?_⟩
    split at ok
    · assumption
    · cases ok
  · rintro ⟨s, found, inside⟩
    rw [checkInside, sheet_eq_ok_iff.mpr found]
    exact if_pos inside

theorem checkRange_eq_ok_iff {r : BoundRange} :
    g.checkRange r = .ok () ↔ ∃ s, g.sheets[r.sheet]? = some s ∧
      s.contains r.top r.left = true ∧ s.contains r.bottom r.right = true := by
  constructor
  · intro ok
    obtain ⟨s, found, ok⟩ := ok_of_bind ok
    refine ⟨s, sheet_eq_ok_iff.mp found, ?_⟩
    split at ok
    · rwa [← Bool.and_eq_true]
    · cases ok
  · rintro ⟨s, found, inside⟩
    rw [checkRange, sheet_eq_ok_iff.mpr found]
    exact if_pos (Bool.and_eq_true _ _ ▸ inside)

theorem one_le_of_checkRange {r : BoundRange} (ok : g.checkRange r = .ok ()) :
    1 ≤ r.top ∧ 1 ≤ r.left := by
  obtain ⟨s, -, first, -⟩ := checkRange_eq_ok_iff.mp ok
  obtain ⟨top, -, left, -⟩ := Sheet.contains_iff.mp first
  exact ⟨top, left⟩

/-- The rows and the columns of all sheets stay below a limit. -/
def SizedBelow (g : Grid) (limit : Nat) : Prop :=
  ∀ s ∈ g.sheets, s.rows < limit ∧ s.cols < limit

instance (g : Grid) (limit : Nat) : Decidable (g.SizedBelow limit) :=
  inferInstanceAs (Decidable (∀ s ∈ g.sheets, _ ∧ _))

theorem SizedBelow.of_checkRange {limit : Nat} (sized : g.SizedBelow limit) {r : BoundRange}
    (ok : g.checkRange r = .ok ()) : r.bottom < limit ∧ r.right < limit := by
  obtain ⟨s, found, -, last⟩ := checkRange_eq_ok_iff.mp ok
  obtain ⟨-, bottom, -, right⟩ := Sheet.contains_iff.mp last
  obtain ⟨rows, cols⟩ := sized s (List.mem_of_getElem? found)
  exact ⟨Nat.lt_of_le_of_lt bottom rows, Nat.lt_of_le_of_lt right cols⟩

/-! ### Sheets -/

theorem addSheet_eq_ok_iff {name : String} : g.addSheet name = .ok g' ↔
    Sheet.isValidName name = true ∧ name ∉ g.sheets.map Sheet.name ∧
      g' = { g with sheets := g.sheets ++ [freshSheet g.options name] } := by
  have used : g.sheets.any (·.name == name) = true ↔ name ∈ g.sheets.map Sheet.name := by simp
  rw [addSheet]
  cases Sheet.isValidName name with
  | false => simp
  | true =>
    by_cases mem : name ∈ g.sheets.map Sheet.name
    · simp [used.mpr mem, mem]
    · rw [if_neg (by decide), if_neg (mt used.mp mem), Except.ok.injEq, eq_comm]
      exact ⟨fun same => ⟨rfl, mem, same⟩, fun h => h.2.2⟩

theorem addSheet_eq {name : String} (ok : g.addSheet name = .ok g') :
    g' = { g with sheets := g.sheets ++ [freshSheet g.options name] } :=
  (addSheet_eq_ok_iff.mp ok).2.2

theorem cells_addSheet {name : String} (ok : g.addSheet name = .ok g') : g'.cells = g.cells := by
  rw [addSheet_eq ok]

theorem removeSheet_eq_ok_iff {index : Nat} : g.removeSheet index = .ok g' ↔
    (∃ s, g.sheets[index]? = some s) ∧ g.sheets.length ≠ 1 ∧ g' = g.sheetRemoved index := by
  constructor
  · intro ok
    obtain ⟨s, found, ok⟩ := ok_of_bind ok
    refine ⟨⟨s, sheet_eq_ok_iff.mp found⟩, ?_⟩
    dsimp only at ok
    split at ok
    · cases ok
    · exact ⟨‹_›, (Except.ok.inj ok).symm⟩
  · rintro ⟨⟨s, found⟩, several, rfl⟩
    rw [removeSheet, sheet_eq_ok_iff.mpr found]
    exact if_neg several

/-! ### Writes -/

/-- The edit passes its checks and writes: the grid that it leaves, the cells that it lists, and whether
the layout of the sheets has changed. -/
inductive Writes (g : Grid) : Edit → Grid → List CellId → Bool → Prop
  | set (id : CellId) (text : String) (inside : g.checkCell id = .ok ()) :
      Writes g (.set id text) (g.enter id text) [id] false
  | batch (ids : List CellId) (texts : List String) (even : ids.length = texts.length)
      (inside : ids.forM g.checkCell = .ok ()) : Writes g (.batch ids texts)
        ((ids.zip texts).foldl (fun g (id, text) => g.enter id text) g) ids false
  | copy (source destination : BoundRange) (sourceInside : g.checkRange source = .ok ())
      (inside : g.checkRange destination = .ok ()) : Writes g (.copy source destination)
        (g.copyBlock source destination).1 (g.copyBlock source destination).2 false
  | cut (source destination : BoundRange) (sourceInside : g.checkRange source = .ok ())
      (inside : g.checkRange destination = .ok ()) : Writes g (.cut source destination)
        (g.cutBlock source destination).1 (g.cutBlock source destination).2 false
  | copyValues (source destination : BoundRange) (sourceInside : g.checkRange source = .ok ())
      (inside : g.checkRange destination = .ok ()) : Writes g (.copyValues source destination)
        (g.copyBlockValues source destination).1 (g.copyBlockValues source destination).2 false
  | sort (range : BoundRange) (column : Nat) (ascending : Bool)
      (inside : g.checkRange range = .ok ())
      (beside : range.left ≤ column ∧ column ≤ range.right) : Writes g (.sort range column ascending)
        (g.sortBlock range column ascending).1 (g.sortBlock range column ascending).2 false
  | resize (index rows cols : Nat) {s : Sheet} (found : g.sheets[index]? = some s) :
      Writes g (.resize index rows cols) (g.growSheet index rows cols) [] true
  | addSheet (name : String) {g' : Grid} (added : g.addSheet name = .ok g') :
      Writes g (.addSheet name) g' [] true
  | removeSheet (index : Nat) {g' : Grid} (removed : g.removeSheet index = .ok g') :
      Writes g (.removeSheet index) g' [] true
  | line (kind : LineKind) (edit : LineEdit) (id : CellId) {s : Sheet}
      (found : g.sheets[id.sheet]? = some s) (inside : s.contains id.row id.col = true) :
      Writes g (.line kind edit id) (g.editLine kind edit id s.bounds).1
        (g.editLine kind edit id s.bounds).2 true
  | clear (range : BoundRange) (inside : g.checkRange range = .ok ()) :
      Writes g (.clear range) (g.clearAll range.cells).1 (g.clearAll range.cells).2 false

variable {edit : Edit} {written : List CellId} {invalidate : Bool}

theorem Writes.of_ok {p : Grid × List CellId} {layout : Bool} (h : Writes g edit p.1 p.2 layout)
    (done : (.ok (p, layout) : Except EditError _) = .ok ((g', written), invalidate)) :
    Writes g edit g' written invalidate := by
  cases done
  exact h

/-- **An edit that is accepted** has passed its checks. -/
theorem writes_of_write (ok : g.write edit = .ok ((g', written), invalidate)) :
    Writes g edit g' written invalidate := by
  cases edit with
  | set id text =>
    obtain ⟨⟨⟩, inside, done⟩ := ok_of_bind ok
    exact .of_ok (p := (_, _)) (.set id text inside) done
  | batch ids texts =>
    rw [write] at ok
    split at ok
    · cases ok
    · rename_i even
      obtain ⟨⟨⟩, inside, done⟩ := ok_of_bind ok
      exact .of_ok (p := (_, _)) (.batch ids texts (Decidable.not_not.mp even) inside) done
  | copy source destination =>
    obtain ⟨⟨⟩, sourceInside, ok⟩ := ok_of_bind ok
    obtain ⟨⟨⟩, inside, done⟩ := ok_of_bind ok
    exact .of_ok (.copy source destination sourceInside inside) done
  | cut source destination =>
    obtain ⟨⟨⟩, sourceInside, ok⟩ := ok_of_bind ok
    obtain ⟨⟨⟩, inside, done⟩ := ok_of_bind ok
    exact .of_ok (.cut source destination sourceInside inside) done
  | copyValues source destination =>
    obtain ⟨⟨⟩, sourceInside, ok⟩ := ok_of_bind ok
    obtain ⟨⟨⟩, inside, done⟩ := ok_of_bind ok
    exact .of_ok (.copyValues source destination sourceInside inside) done
  | sort range column ascending =>
    obtain ⟨⟨⟩, inside, ok⟩ := ok_of_bind ok
    dsimp only at ok
    split at ok
    · cases ok
    · exact .of_ok (.sort range column ascending inside (by omega)) ok
  | resize index rows cols =>
    obtain ⟨s, found, done⟩ := ok_of_bind ok
    exact .of_ok (p := (_, _)) (.resize index rows cols (sheet_eq_ok_iff.mp found)) done
  | addSheet name =>
    obtain ⟨g₁, added, done⟩ := ok_of_bind ok
    exact .of_ok (p := (_, _)) (.addSheet name added) done
  | removeSheet index =>
    obtain ⟨g₁, removed, done⟩ := ok_of_bind ok
    exact .of_ok (p := (_, _)) (.removeSheet index removed) done
  | line kind edit id =>
    obtain ⟨⟨⟩, inside, ok⟩ := ok_of_bind ok
    obtain ⟨s, found, done⟩ := ok_of_bind ok
    obtain ⟨s', known, inside⟩ := checkInside_eq_ok_iff.mp inside
    cases known.symm.trans (sheet_eq_ok_iff.mp found)
    exact .of_ok (.line kind edit id known inside) done
  | clear range =>
    obtain ⟨⟨⟩, inside, done⟩ := ok_of_bind ok
    exact .of_ok (.clear range inside) done

theorem Writes.write_eq (h : Writes g edit g' written invalidate) :
    g.write edit = .ok ((g', written), invalidate) := by
  cases h with
  | set id text inside =>
    rw [write, inside]
    rfl
  | batch ids texts even inside =>
    rw [write, if_neg (Decidable.not_not.mpr even), inside]
    rfl
  | copy source destination sourceInside inside =>
    rw [write, sourceInside, inside]
    rfl
  | cut source destination sourceInside inside =>
    rw [write, sourceInside, inside]
    rfl
  | copyValues source destination sourceInside inside =>
    rw [write, sourceInside, inside]
    rfl
  | sort range column ascending inside beside =>
    rw [write, inside]
    exact if_neg (by omega)
  | resize index rows cols found =>
    rw [write, sheet_eq_ok_iff.mpr found]
    rfl
  | addSheet name added =>
    rw [write, added]
    rfl
  | removeSheet index removed =>
    rw [write, removed]
    rfl
  | line kind edit id found inside =>
    have checked : g.checkCell id = .ok () := checkInside_eq_ok_iff.mpr ⟨_, found, inside⟩
    rw [write, checked, sheet_eq_ok_iff.mpr found]
    rfl
  | clear range inside =>
    rw [write, inside]
    rfl

theorem apply_eq_ok_iff {hooks : Hooks} {outcome : Outcome} :
    g.apply hooks edit = .ok (g', outcome) ↔ ∃ g₁ written invalidate,
      Writes g edit g₁ written invalidate ∧ g₁.finish hooks written invalidate = (g', outcome) := by
  constructor
  · intro ok
    obtain ⟨⟨⟨g₁, written⟩, invalidate⟩, wrote, done⟩ := ok_of_bind ok
    exact ⟨g₁, written, invalidate, writes_of_write wrote, Except.ok.inj done⟩
  · rintro ⟨g₁, written, invalidate, wrote, done⟩
    rw [apply, wrote.write_eq]
    exact congrArg Except.ok done

end Grid

end Spreadsheet
