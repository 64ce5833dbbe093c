import Mathlib.Algebra.Order.BigOperators.Group.Finset
import Spreadsheet.Proofs.Grid.Marking

/-!
# Marking turn by turn

A marking can be run with a stack and the set of the cells that have been visited.  In each turn one
cell leaves the stack.  If it is new, it becomes dirty and its readers are put on the stack, in whatever
order they are listed.  Edges may run in circles and lead to cells that are not stored, and a cell can
stand on the stack many times.

A turn that visits a cell uses up its edges, so all runs end, and the ones that have ended have taken
one turn more than there are edges from the cells that can be reached.

* `Marking.Step`, `Marking.Steps`: one turn and some turns.
* `Marking.Steps.count`: how many turns it takes to come to a stack.
* `Marking.Reached`: the invariant; what can be reached has been visited or waits behind the stack.
* `Grid.mem_dirty_markDirty_and_steps_end`: every run ends, and with the cells that `markDirty` marks.
-/

namespace Spreadsheet

open Relation

/-- A marking that is under way. -/
structure Marking where
  visited : CellSet
  stack : List CellId
  dirty : CellSet

namespace Marking

/-- The beginning of the marking of a cell. -/
def start (id : CellId) (dirty : CellSet) : Marking := ⟨∅, [id], dirty⟩

/-- One turn.  The readers of a cell that is visited are put on the stack in any order; a cell that is
not stored has none. -/
inductive Step (cells : CellMap Cell) : Marking → Marking → Prop
  | pass {visited dirty : CellSet} {stack : List CellId} {id : CellId} (seen : id ∈ visited) :
    Step cells ⟨visited, id :: stack, dirty⟩ ⟨visited, stack, dirty⟩
  | visit {visited dirty : CellSet} {stack readers : List CellId} {id : CellId} (new : id ∉ visited)
      (order : readers.Perm (cells.getD id .blank).readers.toList) :
    Step cells ⟨visited, id :: stack, dirty⟩
      ⟨visited.insert id, readers ++ stack, dirty.insert id⟩

/-- As many turns as the number says. -/
inductive Steps (cells : CellMap Cell) (s : Marking) : Nat → Marking → Prop
  | refl : Steps cells s 0 s
  | tail {n : Nat} {t u : Marking} (before : Steps cells s n t) (turn : Step cells t u) :
    Steps cells s (n + 1) u

variable {cells : CellMap Cell} {s t : Marking} {n : Nat}

theorem exists_step_iff : (∃ t, Step cells s t) ↔ s.stack ≠ [] := by
  constructor
  · rintro ⟨t, turn⟩
    cases turn <;> exact List.cons_ne_nil _ _
  · intro more
    obtain ⟨visited, stack, dirty⟩ := s
    cases stack with
    | nil => exact absurd rfl more
    | cons id stack =>
      by_cases seen : id ∈ visited
      · exact ⟨_, .pass seen⟩
      · exact ⟨_, .visit seen (List.Perm.refl _)⟩

/-! ### The number of turns -/

def degree (cells : CellMap Cell) (id : CellId) : Nat := (cells.getD id .blank).readers.size

/-- The number of edges from some cells. -/
def edges (cells : CellMap Cell) (ids : CellSet) : Nat :=
  ∑ x ∈ ids.toList.toFinset, degree cells x

/-- The number of all edges. -/
def edgeCount (cells : CellMap Cell) : Nat := ∑ x ∈ cells.keys.toFinset, degree cells x

theorem edges_empty : edges cells ∅ = 0 := by simp [edges]

theorem edges_insert {ids : CellSet} {id : CellId} (new : id ∉ ids) :
    edges cells (ids.insert id) = degree cells id + edges cells ids := by
  have members : (ids.insert id).toList.toFinset = insert id ids.toList.toFinset := by
    ext x
    simp [Std.LawfulEqCmp.compare_eq_iff_eq, eq_comm (a := id)]
  rw [edges, members, Finset.sum_insert (by simpa using new)]
  rfl

theorem edges_le (ids : CellSet) : edges cells ids ≤ edgeCount cells := by
  refine Finset.sum_le_sum_of_ne_zero fun x _ some => ?_
  rw [List.mem_toFinset, Std.ExtTreeMap.mem_keys]
  by_contra missing
  refine some ?_
  rw [degree, Std.ExtTreeMap.getD_eq_fallback missing]
  rfl

/-- **What a turn costs.**  A cell leaves the stack, and the edges of a cell that is visited are put
on it. -/
theorem Step.count (turn : Step cells s t) :
    1 + t.stack.length + edges cells s.visited = s.stack.length + edges cells t.visited := by
  cases turn with
  | pass seen =>
    simp only [List.length_cons]
    omega
  | visit new order =>
    have pushed : _ = degree cells _ := order.length_eq.trans Std.ExtTreeSet.length_toList
    simp only [List.length_cons, List.length_append, edges_insert new, pushed]
    omega

/-- **How many turns it takes**: one for each cell that was on the stack or has been put on it, and that
is not there any more. -/
theorem Steps.count (run : Steps cells s n t) :
    n + t.stack.length + edges cells s.visited = s.stack.length + edges cells t.visited := by
  induction run with
  | refl => omega
  | tail before turn ih =>
    have last := turn.count
    omega

theorem Steps.count_start {id : CellId} {dirty : CellSet} (run : Steps cells (start id dirty) n t) :
    n + t.stack.length = 1 + edges cells t.visited := by
  have count := run.count
  rw [start, edges_empty] at count
  exact count

/-- **A marking ends**: it has no more turns than there are edges, and one. -/
theorem Steps.le_edgeCount {id : CellId} {dirty : CellSet} (run : Steps cells (start id dirty) n t) :
    n ≤ 1 + edgeCount cells := by
  have count := run.count_start
  have most : edges cells t.visited ≤ edgeCount cells := edges_le t.visited
  omega

/-- A run goes on until its stack is empty, if it does not end before. -/
theorem exists_steps (cells : CellMap Cell) (s : Marking) (k : Nat) :
    (∃ n t, Steps cells s n t ∧ t.stack = []) ∨ ∃ t, Steps cells s k t := by
  induction k with
  | zero => exact Or.inr ⟨s, .refl⟩
  | succ k ih =>
    rcases ih with ended | ⟨t, run⟩
    · exact Or.inl ended
    · by_cases done : t.stack = []
      · exact Or.inl ⟨k, t, run, done⟩
      · obtain ⟨u, turn⟩ := exists_step_iff.mpr done
        exact Or.inr ⟨u, run.tail turn⟩

theorem exists_end (cells : CellMap Cell) (id : CellId) (dirty : CellSet) :
    ∃ n t, Steps cells (start id dirty) n t ∧ t.stack = [] := by
  rcases exists_steps cells (start id dirty) (2 + edgeCount cells) with ended | ⟨t, run⟩
  · exact ended
  · have most := run.le_edgeCount
    omega

/-! ### What a run marks -/

/-- What holds after every turn of the marking of a cell.  All that can be reached from the cell has
been visited or can be reached from the stack, since the visited cells have their readers there. -/
structure Reached (cells : CellMap Cell) (id : CellId) (dirty : CellSet) (s : Marking) : Prop where
  source : id ∈ s.visited ∨ id ∈ s.stack
  sound : ∀ x, x ∈ s.visited ∨ x ∈ s.stack → ReflTransGen (ReadBy cells) id x
  closed : ∀ x ∈ s.visited, ∀ y, ReadBy cells x y → y ∈ s.visited ∨ y ∈ s.stack
  marks : ∀ x, x ∈ s.dirty ↔ x ∈ dirty ∨ x ∈ s.visited

section

variable {id : CellId} {dirty : CellSet}

theorem reached_start (cells : CellMap Cell) (id : CellId) (dirty : CellSet) :
    Reached cells id dirty (start id dirty) where
  source := Or.inr List.mem_cons_self
  sound x h := by
    rcases h with seen | waits
    · exact absurd seen Std.ExtTreeSet.not_mem_empty
    · rw [List.mem_singleton.mp waits]
  closed x seen := absurd seen Std.ExtTreeSet.not_mem_empty
  marks x := (or_iff_left Std.ExtTreeSet.not_mem_empty).symm

theorem mem_insert_iff {ids : CellSet} {new x : CellId} : x ∈ ids.insert new ↔ x = new ∨ x ∈ ids := by
  rw [Std.ExtTreeSet.mem_insert, Std.LawfulEqCmp.compare_eq_iff_eq, eq_comm]

theorem Step.mem (turn : Step cells s t) {x : CellId} (h : x ∈ s.visited ∨ x ∈ s.stack) :
    x ∈ t.visited ∨ x ∈ t.stack := by
  cases turn with
  | pass seen =>
    rcases h with h | h
    · exact Or.inl h
    · rcases List.mem_cons.mp h with rfl | h
      · exact Or.inl seen
      · exact Or.inr h
  | visit new order =>
    rw [mem_insert_iff, List.mem_append]
    rw [List.mem_cons] at h
    tauto

/-- **One turn keeps the invariant.** -/
theorem Reached.step (h : Reached cells id dirty s) (turn : Step cells s t) :
    Reached cells id dirty t := by
  have source := turn.mem h.source
  have kept := fun x hx y hy => turn.mem (h.closed x hx y hy)
  cases turn with
  | pass seen =>
    exact ⟨source, fun x hx => h.sound x (hx.imp_right (List.mem_cons_of_mem _)), kept, h.marks⟩
  | @visit visited now stack readers current new order =>
    have path : ReflTransGen (ReadBy cells) id current := h.sound current (Or.inr List.mem_cons_self)
    have listed : ∀ y, y ∈ readers ↔ ReadBy cells current y := fun y =>
      order.mem_iff.trans Std.ExtTreeSet.mem_toList
    refine ⟨source, ?_, ?_, ?_⟩
    · -- what is pushed is one edge behind the current cell
      intro x hx
      rcases hx with hx | hx
      · rcases mem_insert_iff.mp hx with rfl | hx
        · exact path
        · exact h.sound x (Or.inl hx)
      · rcases List.mem_append.mp hx with hx | hx
        · exact path.tail ((listed x).mp hx)
        · exact h.sound x (Or.inr (List.mem_cons_of_mem _ hx))
    · -- the current cell has its readers on the stack now, and the others lose none
      intro x hx y hy
      rcases mem_insert_iff.mp hx with rfl | hx
      · exact Or.inr (List.mem_append_left _ ((listed y).mpr hy))
      · exact kept x hx y hy
    · intro x
      rw [mem_insert_iff, mem_insert_iff, h.marks x]
      exact or_left_comm

/-- **So does a run.** -/
theorem Steps.reached (run : Steps cells (start id dirty) n t) : Reached cells id dirty t := by
  induction run with
  | refl => exact reached_start cells id dirty
  | tail before turn ih => exact ih.step turn

/-- When the stack is empty, the visited cells are closed under their edges. -/
theorem Reached.mem_visited_iff (h : Reached cells id dirty t) (done : t.stack = []) (x : CellId) :
    x ∈ t.visited ↔ ReflTransGen (ReadBy cells) id x := by
  have visited : ∀ {y}, y ∈ t.visited ∨ y ∈ t.stack → y ∈ t.visited := by
    intro y hy
    rw [done] at hy
    exact hy.resolve_right List.not_mem_nil
  refine ⟨fun seen => h.sound x (Or.inl seen), fun path => ?_⟩
  induction path with
  | refl => exact visited h.source
  | @tail y z _ edge ih => exact visited (h.closed y ih z edge)

end

end Marking

/-- **Marking is the exact closure, and it ends.**  In any grid, what is marked dirty beside the cells
that were is the cell itself and all that can be reached from it by readers, stored or not; nothing else
changes.  Turn by turn, a run of the marking comes to its end, no run has more turns than there are
edges and one, and each run that cannot go on has an empty stack, has visited just what can be reached,
in one turn more than there are edges from there, and has marked it. -/
theorem Grid.mem_dirty_markDirty_and_steps_end (g : Grid) (id : CellId) :
    (∀ x, x ∈ (g.markDirty id).dirty ↔ x ∈ g.dirty ∨ ReflTransGen (ReadBy g.cells) id x) ∧
      g.markDirty id = { g with dirty := (g.markDirty id).dirty } ∧
      (∃ n t, Marking.Steps g.cells (.start id g.dirty) n t ∧ ∀ u, ¬ Marking.Step g.cells t u) ∧
      (∀ n t, Marking.Steps g.cells (.start id g.dirty) n t → n ≤ 1 + Marking.edgeCount g.cells) ∧
      ∀ n t, Marking.Steps g.cells (.start id g.dirty) n t → (∀ u, ¬ Marking.Step g.cells t u) →
        t.stack = [] ∧ (∀ x, x ∈ t.visited ↔ ReflTransGen (ReadBy g.cells) id x) ∧
          n = 1 + Marking.edges g.cells t.visited ∧ t.dirty = (g.markDirty id).dirty := by
  have ends : ∀ t : Marking, (∀ u, ¬ Marking.Step g.cells t u) ↔ t.stack = [] := by
    intro t
    rw [← not_exists, Marking.exists_step_iff, not_not]
  refine ⟨g.mem_markDirty_iff id, rfl, ?_, fun n t run => run.le_edgeCount, ?_⟩
  · obtain ⟨n, t, run, done⟩ := Marking.exists_end g.cells id g.dirty
    exact ⟨n, t, run, (ends t).mpr done⟩
  · intro n t run stuck
    have done := (ends t).mp stuck
    have visited := run.reached.mem_visited_iff done
    have count := run.count_start
    rw [done] at count
    refine ⟨done, visited, count, Std.ExtTreeSet.ext_mem fun x => ?_⟩
    rw [run.reached.marks x, visited, g.mem_markDirty_iff id]

/-- A cell that reads itself and stands in a circle with a second one, and has a third reader that is
not stored.  Five turns mark the three, beside a fourth that was dirty. -/
theorem Grid.mem_dirty_markDirty_and_steps_end_circle :
    let a : CellId := ⟨0, 1, 1⟩
    let b : CellId := ⟨0, 1, 2⟩
    let c : CellId := ⟨0, 7, 7⟩
    let d : CellId := ⟨0, 2, 1⟩
    let cells : CellMap Cell :=
      (∅ : CellMap Cell).insert a { readers := .ofList [a, b, c] } |>.insert b { readers := .ofList [a] }
    let g : Grid := { sheets := [⟨"Sheet1", 9, 9⟩], cells, dirty := .ofList [d], options := {} }
    let t : Marking := ⟨(∅ : CellSet).insert a |>.insert c |>.insert b, [],
      g.dirty.insert a |>.insert c |>.insert b⟩
    Marking.Steps g.cells (.start a g.dirty) 5 t ∧ (∀ u, ¬ Marking.Step g.cells t u) ∧
      (g.markDirty a).dirty.toList = [a, b, d, c] := by
  intro a b c d cells g t
  have run : Marking.Steps g.cells (.start a g.dirty) 5 t := by
    have first := Marking.Steps.refl.tail
      (@Marking.Step.visit cells ∅ g.dirty [] [c, b, a] a Std.ExtTreeSet.not_mem_empty (by decide))
    have second := first.tail (@Marking.Step.visit _ _ _ _ [] _ (by decide) (by decide))
    have third := second.tail (@Marking.Step.visit _ _ _ _ [a] _ (by decide) (by decide))
    exact (third.tail (.pass (by decide))).tail (.pass (by decide))
  have stuck : ∀ u, ¬ Marking.Step g.cells t u := fun u turn =>
    Marking.exists_step_iff.mp ⟨u, turn⟩ rfl
  refine ⟨run, stuck, ?_⟩
  rw [← ((Grid.mem_dirty_markDirty_and_steps_end g a).2.2.2.2 5 t run stuck).2.2.2]
  decide

end Spreadsheet
