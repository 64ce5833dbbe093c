import Spreadsheet.Proofs.Grid.Anchoring
import Spreadsheet.Proofs.Grid.Preservation

/-!
# Edits of lines in grids that have a history

What the insertion and the removal of a line have in common.

* `Grid.Lawful removed g`: what is known of every grid that has a history.
* `Grid.Vacant g x`: the cell `x` shows nothing, and its formula has no content.
* `Grid.vacant_after_pass`: a cut leaves a vacant cell vacant if it lays out nothing on it.
* `Grid.GrowsBelow g kind sheet limit`: the coordinates of a sheet with one line more stay below a limit.
* `Grid.apply_line`: an edit of a line that is accepted rewrites the sheet and finishes.
-/

namespace Spreadsheet

open Formula Range

/-- What holds of the cells that move and of those that are left says what holds in front of a line and
from there on, if it holds anyway of the other cells from there on. -/
theorem forall_before_and_after_iff {after moves P Q : CellId → Prop} {a b : BoundRange}
    (within : ∀ x, moves x → after x)
    (before : ∀ x, ¬ after x → a.contains x = false ∧ b.contains x = false)
    (rest : ∀ x, after x → ¬ moves x → P x)
    (apart : ∀ x, after x → a.contains x = false → b.contains x = false → Q x) :
    ((∀ x, moves x → P x) ∧ ∀ x, a.contains x = false → b.contains x = false → Q x) ↔
      (∀ x, ¬ after x → Q x) ∧ ∀ x, after x → P x := by
  constructor
  · rintro ⟨moved, left⟩
    refine ⟨fun x front => left x (before x front).1 (before x front).2, fun x behind => ?_⟩
    by_cases moves : moves x
    · exact moved x moves
    · exact rest x behind moves
  · rintro ⟨left, moved⟩
    refine ⟨fun x moves => moved x (within x moves), fun x ha hb => ?_⟩
    by_cases behind : after x
    · exact apart x behind ha hb
    · exact left x behind

namespace Grid

variable {removed : List String} {g g' : Grid} {draws : Draws}

/-! ### Grids that have a history -/

/-- What is known of a grid that has a history, in which no name of a removed sheet is used again, if its
formulas lie inside its sheets. -/
structure Lawful (removed : List String) (g : Grid) : Prop where
  tracked : g.Tracked removed
  tidy : ∀ x, Tidy (g.formula x)
  inside : g.Inside
  contained : g.Contained
  content : ∀ x, IsQuotes (g.formula x).toList → IsEmptyText (g.formula x)
  idle : g.waiting = []

theorem lawful_ofHistory {options : Options} {history : List Action}
    (fresh : NeverReuses options history) (contained : (ofHistory options history).Contained) :
    (ofHistory options history).Lawful (removedNames options history) where
  tracked := tracked_ofHistory options history fresh
  tidy := tidy_ofHistory options history
  inside := inside_ofHistory options history fresh
  contained := contained
  content := (regular_holds_ofHistory inherited_isEmptyText options history).2
  idle := waiting_ofHistory options history

theorem Lawful.of_rewrites (h : g.Lawful removed)
    (rewrites : ∀ P : String → Prop, Inherited P → Rewrites P g g') (contained : g'.Contained)
    (idle : g'.waiting = []) : g'.Lawful removed where
  tracked := (rewrites _ inherited_true).tracked h.tracked
  tidy := (rewrites _ inherited_tidy).holds inherited_tidy h.tracked.regular h.tidy
  inside := (rewrites _ inherited_true).inside h.tracked.regular h.inside
  contained := contained
  content := (rewrites _ inherited_isEmptyText).holds inherited_isEmptyText h.tracked.regular h.content
  idle := idle

theorem Lawful.growSheet (h : g.Lawful removed) (index rows cols : Nat) :
    (g.growSheet index rows cols).Lawful removed :=
  h.of_rewrites (fun _ _ => .grow index rows cols .refl)
    (contained_growSheet h.contained index rows cols) h.idle

theorem Lawful.clearAll (h : g.Lawful removed) (ids : List CellId) :
    (g.clearAll ids).1.Lawful removed :=
  h.of_rewrites (fun _ hP => rewrites_clearAll hP g ids) ((confined_clearAll ids).contained h.contained)
    (by rw [clearAll_eq, (g.storeAll_fields _).2.2, h.idle])

/-! ### Vacant cells -/

/-- The cell shows nothing, and its formula has no content. -/
def Vacant (g : Grid) (x : CellId) : Prop := (g.cell x).isBlank = true ∧ g.value x = .text ""

theorem isBlank_iff (g : Grid) (x : CellId) :
    (g.cell x).isBlank = true ↔ IsQuotes (g.formula x).toList := by
  simp [Cell.isBlank, formula, IsQuotes]

theorem isBlank_of_isEmptyText {x : CellId} (empty : IsEmptyText (g.formula x)) :
    (g.cell x).isBlank = true := by
  show (g.formula x).toList.all (· == '"') = true
  rcases empty with empty | empty <;>
  · rw [empty]
    decide

theorem Lawful.vacant (h : g.Lawful removed) (plain : g.Plain) {x : CellId} (clean : x ∉ g.dirty)
    (blank : (g.cell x).isBlank = true) : g.Vacant x := by
  refine ⟨blank, ?_⟩
  have empty := h.content x ((g.isBlank_iff x).mp blank)
  have current := h.tracked.current.value x clean (plain.free x) (plain.noRandom x) (by
    rintro ⟨z, cycle, -⟩
    rw [plain.edge_eq h.tracked.traced] at cycle
    exact plain.acyclic z cycle)
  rw [formulaValue, evaluate_of_isEmptyText empty] at current
  exact (CellValue.keep_of_agrees current).symm.trans (CellValue.keep_text _ "")

theorem Lawful.value_eq_of_vacant (h : g.Lawful removed) {x : CellId} (vacant : g.Vacant x) :
    g.value x = g.formulaValue x := by
  rw [vacant.2, formulaValue,
    evaluate_of_isEmptyText (h.content x ((g.isBlank_iff x).mp vacant.1))]
  rfl

theorem Lawful.vacant_of_not_has (h : g.Lawful removed) (plain : g.Plain) (clean : g.dirty = ∅)
    {x : CellId} (outside : ¬ g.Has x) : g.Vacant x :=
  h.vacant plain (clean ▸ Std.ExtTreeSet.not_mem_empty) (h.contained.isBlank outside)

theorem Lawful.vacant_of_settled (h : g.Lawful removed) {order : List CellId} {p : Pass}
    (settled : Pass.Settled draws g order p) {x : CellId} (vacant : g.Vacant x) : p.grid.Vacant x := by
  have empty := h.content x ((g.isBlank_iff x).mp vacant.1)
  refine ⟨isBlank_of_isEmptyText ?_, settled.value_of_isEmptyText h.tracked.traced empty vacant.2⟩
  rw [settled.alike.formula]
  exact empty

theorem Lawful.vacant_after_pass (h : g.Lawful removed) {source destination : BoundRange}
    (room : g.HasRoom source destination) {order : List CellId} {p : Pass}
    (settled : Pass.Settled draws (g.storeAll (g.cutWrites source destination)) order p) {x : CellId}
    (vacant : g.Vacant x) (apart : (image source destination).contains x = false) :
    p.grid.Vacant x := by
  have traced := ((g.rewrites_storeAll (g.cutWrites source destination)).tracked h.tracked).traced
  obtain ⟨empty, value⟩ := empty_after_cut room apart
    (h.content x ((g.isBlank_iff x).mp vacant.1)) vacant.2
  refine ⟨isBlank_of_isEmptyText ?_, settled.value_of_isEmptyText traced empty value⟩
  rw [settled.alike.formula]
  exact empty

/-- A cut and the pass after it leave the source vacant where nothing is laid out on it. -/
theorem Lawful.vacant_of_source (h : g.Lawful removed) {source destination : BoundRange}
    (room : g.HasRoom source destination) {order : List CellId} {p : Pass}
    (settled : Pass.Settled draws (g.storeAll (g.cutWrites source destination)) order p) {x : CellId}
    (moves : source.contains x = true) (apart : (image source destination).contains x = false) :
    p.grid.Vacant x := by
  have traced := ((g.rewrites_storeAll (g.cutWrites source destination)).tracked h.tracked).traced
  obtain ⟨empty, value⟩ := blank_after_cut room moves apart
  refine ⟨isBlank_of_isEmptyText (Or.inl ?_),
    settled.value_of_isEmptyText traced (Or.inl empty) value⟩
  rw [settled.alike.formula]
  exact empty

/-! ### The size of a sheet -/

theorem Has.index_le {x : CellId} (h : g.Has x) {kind : LineKind} {sheet : Nat} {s : Sheet}
    (found : g.sheets[sheet]? = some s) (here : x.sheet = sheet) :
    kind.index x ≤ kind.count s.bounds := by
  obtain ⟨bounds, known, -, rows, -, cols⟩ := (has_iff x).mp h
  rw [here, bounds?_of_sheet found] at known
  cases known
  cases kind
  · exact rows
  · exact cols

/-- The coordinates of a sheet with one line more stay below a limit. -/
def GrowsBelow (g : Grid) (kind : LineKind) (sheet limit : Nat) : Prop :=
  ∀ bounds, g.directory.bounds? sheet = some bounds →
    (kind.grown bounds).rows < limit ∧ (kind.grown bounds).cols < limit

theorem growsBelow_of_bounds {kind : LineKind} {sheet limit : Nat} {bounds : Bounds}
    (known : g.directory.bounds? sheet = some bounds)
    (lower : (kind.grown bounds).rows < limit ∧ (kind.grown bounds).cols < limit) :
    g.GrowsBelow kind sheet limit := by
  rw [GrowsBelow, known]
  rintro _ ⟨⟩
  exact lower

theorem checkRange_of_bounds {r : BoundRange} {bounds : Bounds}
    (known : g.directory.bounds? r.sheet = some bounds) (first : 1 ≤ r.top ∧ 1 ≤ r.left)
    (last : r.bottom ≤ bounds.rows ∧ r.right ≤ bounds.cols) : g.checkRange r = .ok () := by
  obtain ⟨s, found, rfl⟩ := Option.map_eq_some_iff.mp known
  have rows := r.top_le_bottom
  have cols := r.left_le_right
  refine checkRange_eq_ok_iff.mpr ⟨s, found, ?_⟩
  simp only [Sheet.contains_iff]
  simp only [Sheet.bounds] at last
  omega

/-! ### The edit -/

/-- A cut changes nothing but cells, where no formula fills other cells. -/
theorem cutBlock_fields {source destination : BoundRange} (free : ∀ x, (g.cell x).isFilling = false) :
    (g.cutBlock source destination).1.sheets = g.sheets ∧
      (g.cutBlock source destination).1.waiting = g.waiting := by
  by_cases empty : g.mapping source destination = []
  · rw [cutBlock, empty]
    exact ⟨rfl, rfl⟩
  · rw [cutBlock_eq free empty]
    exact ⟨(g.storeAll_fields _).1, (g.storeAll_fields _).2.2⟩

theorem waiting_cutBlock {source destination : BoundRange} (free : ∀ x, (g.cell x).isFilling = false) :
    (g.cutBlock source destination).1.waiting = g.waiting :=
  (cutBlock_fields free).2

theorem Lawful.wired_cutBlock (h : g.Lawful removed) (source destination : BoundRange) :
    (g.cutBlock source destination).1.Wired :=
  ((rewrites_cutBlock inherited_true (fun _ => trivial) source destination).regular
    h.tracked.regular).wired

theorem apply_line {hooks : Hooks} {kind : LineKind} {edit : LineEdit} {id : CellId}
    {outcome : Outcome} (accepted : g.apply hooks (.line kind edit id) = .ok (g', outcome)) :
    ∃ s, g.sheets[id.sheet]? = some s ∧ (1 ≤ kind.index id ∧ kind.index id ≤ kind.count s.bounds) ∧
      (1 ≤ s.rows ∧ 1 ≤ s.cols) ∧ ∃ written invalidate,
        (g.editLine kind edit id s.bounds).1.finish hooks written invalidate = (g', outcome) := by
  obtain ⟨g₁, written, invalidate, wrote, done⟩ := apply_eq_ok_iff.mp accepted
  cases wrote with
  | line _ _ _ found inside =>
    obtain ⟨line, size⟩ := index_of_contains kind inside
    exact ⟨_, found, line, size, _, _, done⟩

end Grid

end Spreadsheet
