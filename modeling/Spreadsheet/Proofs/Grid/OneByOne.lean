import Spreadsheet.Proofs.Grid.Batches

/-!
# A batch and single edits

A pass after every single write computes values that later writes put out of date again, perhaps on cycles
that are there only for a while.  In the end they are all repaired: what counts is which cells have been
dirty at some time, and these are the ones that are dirty when all is written at once.

* `Grid.Refreshed g s`: the second grid is the first after its dirty cells have been brought up to date,
  in whatever way.
* `Grid.refreshed_recompute`: a pass brings them up to date.
* `Grid.Refreshed.store`: so does a pass after every write.
* `Grid.Refreshed.value_eq_iff`: without cycles, two ways come to the same values unless a cell holds `0`
  in one grid and `-0` in the other.
* `Grid.apply_batch_perm_and_value_enterEach_iff`: the order of a batch, and single edits in any order.
-/

namespace Spreadsheet.Grid

open Relation

variable {g g' s b : Grid} {hooks : Hooks}

/-! ### Writing into alike grids -/

theorem Alike.symm (h : g.Alike g') : g'.Alike g :=
  ⟨h.sheets.symm, h.options.symm, h.waiting.symm, fun x => (h.formula x).symm,
    fun x => (h.precedents x).symm, fun x => (h.readers x).symm, fun x => (h.filling x).symm⟩

theorem Alike.resolved (h : g.Alike g') (sheet : Nat) (c : Cell) :
    g'.resolved sheet c = g.resolved sheet c := by
  rw [Grid.resolved, Grid.resolved, h.directory]

theorem Alike.readBy (h : g.Alike g') : ReadBy g'.cells = ReadBy g.cells := by
  funext x y
  exact congrArg (y ∈ ·) (h.readers x)

theorem Alike.store (h : g.Alike g') (id : CellId) (c : Cell) :
    (g.store id c).Alike (g'.store id c) where
  sheets := h.sheets
  options := h.options
  waiting := h.waiting
  formula x := by rw [formula_store, formula_store, h.resolved, h.formula]
  precedents x := by rw [precedents_store, precedents_store, h.resolved, h.precedents]
  readers x := by
    refine Std.ExtTreeSet.ext_mem fun {y} => ?_
    rw [mem_readers_store, mem_readers_store, h.resolved, h.readers, h.precedents]
  filling x := by rw [isFilling_store, isFilling_store, h.resolved, h.filling]

/-! ### Bringing dirty cells up to date -/

/-- The second grid is the first after its dirty cells have been brought up to date. -/
structure Refreshed (g s : Grid) : Prop where
  alike : g.Alike s
  clean : s.dirty = ∅
  outside : ∀ x, x ∉ g.dirty → s.value x = g.value x
  filling : ∀ x, (g.cell x).isFilling = true → s.value x = g.value x
  current : ∀ x ∈ g.dirty, s.CurrentAt x

theorem refreshed_refl (clean : g.dirty = ∅) : Refreshed g g where
  alike := .refl g
  clean := clean
  outside _ _ := rfl
  filling _ _ := rfl
  current x dirty := by
    rw [clean] at dirty
    exact absurd dirty Std.ExtTreeSet.not_mem_empty

/-- **A pass that is not cancelled** brings the dirty cells up to date. -/
theorem refreshed_recompute (wired : g.Wired) (covered : g.Covered)
    (never : ∀ done, hooks.cancel done = false) : Refreshed g (g.recompute hooks).1 := by
  obtain ⟨order, p, settled, ends⟩ :=
    wired.linked.exists_settled (recompute_not_cancelled wired.linked never)
  rw [ends]
  refine ⟨settled.alike, settled.clean, ?_, ?_, ?_⟩
  · exact fun x clean => value_eq_of_cells (settled.outside x clean)
  · intro x filling
    by_cases dirty : x ∈ g.dirty
    · refine settled.filling x ((settled.mem x).mpr ⟨dirty, fun stuck => ?_⟩) filling
      obtain ⟨w, -, edge⟩ := Stuck.exists_before stuck
      rw [Edge, wired.inert x filling] at edge
      exact Std.ExtTreeSet.not_mem_empty edge
    · exact value_eq_of_cells (settled.outside x dirty)
  · exact fun x dirty => CurrentAt.settled covered settled dirty

/-- A write puts the same cells out of date in a grid that is refreshed. -/
theorem Refreshed.mem_dirty_store_iff (h : Refreshed g s) (id : CellId) (c : Cell) (x : CellId) :
    x ∈ (g.store id c).dirty ↔ x ∈ g.dirty ∨ x ∈ (s.store id c).dirty := by
  rw [mem_dirty_store, mem_dirty_store, h.clean, (h.alike.store id c).readBy]
  simp

/-- **A write and a pass** bring up to date what is dirty after all the writes so far. -/
theorem Refreshed.store (h : Refreshed g s) (wired : g.Wired) (traced : g.Traced)
    (never : ∀ done, hooks.cancel done = false) (id : CellId) {c : Cell}
    (free : c.isFilling = false) :
    Refreshed (g.store id c) ((s.store id c).recompute hooks).1 := by
  have alike := h.alike.store id c
  have dirty := h.mem_dirty_store_iff id c
  have traced' : s.Traced := h.alike.traced traced
  have wired' : s.Wired := h.alike.wired wired
  have closed' := (closed_of_clean h.clean).store id c wired'.forth
  have pass : Refreshed (s.store id c) ((s.store id c).recompute hooks).1 :=
    refreshed_recompute (wired'.store id c) (traced'.store id c).covered never
  refine ⟨alike.trans pass.alike, pass.clean, ?_, ?_, ?_⟩
  · intro x clean
    rw [dirty, not_or] at clean
    have other := (ne_and_not_mem_of_not_mem_store id c clean.2).1
    rw [pass.outside x clean.2, value_store, value_store, if_neg other, if_neg other,
      h.outside x clean.1]
  · intro x filling
    rw [pass.filling x (alike.filling x ▸ filling), value_store, value_store]
    rw [isFilling_store] at filling
    split at filling
    · rw [isFilling_resolved _ free] at filling
      cases filling
    · rename_i other
      rw [if_neg other, if_neg other, h.filling x filling]
  · intro x hx
    by_cases again : x ∈ (s.store id c).dirty
    · exact pass.current x again
    · have before : x ∈ g.dirty := ((dirty x).mp hx).resolve_right again
      exact CurrentAt.of_outside (traced'.store id c).covered closed' pass.alike pass.outside again
        (CurrentAt.store id c traced' closed' again (h.current x before))

/-! ### Two ways to the same values -/

/-- **Without cycles, two ways of bringing the same cells up to date come to the same values**, unless a
cell holds `0` in one grid and `-0` in the other. -/
theorem Refreshed.value_eq_iff (hs : Refreshed g s) (hb : Refreshed g b) (traced : g.Traced)
    (acyclic : ∀ x, ¬ OnCycle g.Edge x) (noRandom : ∀ x, ¬ Formula.CallsRandom (g.formula x)) :
    (∀ x, s.value x = b.value x) ↔
      ∀ x, (s.value x).same (b.value x) = true → s.value x = b.value x := by
  refine ⟨fun all x _ => all x, fun exact x => ?_⟩
  by_contra differs
  -- A cell whose values differ reads another such cell, so there would be a cycle.
  let S : Set CellId := {y | s.value y ≠ b.value y}
  have dirty : ∀ y ∈ S, y ∈ g.dirty := by
    intro y hy
    by_contra clean
    exact hy ((hs.outside y clean).trans (hb.outside y clean).symm)
  have fin : S.Finite := (List.finite_toSet g.dirty.toList).subset fun y hy =>
    Std.ExtTreeSet.mem_toList.mpr (dirty y hy)
  have free : ∀ h : Grid, g.Alike h → ∀ y, ¬ BehindCycle h.Edge y := by
    rintro h alike y ⟨z, cycle, -⟩
    rw [alike.edge] at cycle
    exact acyclic z cycle
  have supported : Supported g.Edge S := by
    intro y hy
    by_contra none
    have notFilling : (g.cell y).isFilling = false := by
      rw [← Bool.not_eq_true]
      exact fun filling => hy ((hs.filling y filling).trans (hb.filling y filling).symm)
    have values : ∀ x ∈ (s.cell y).precedents, b.value x = s.value x := by
      intro x edge
      rw [hs.alike.precedents] at edge
      by_contra differs
      exact none ⟨x, Ne.symm differs, edge⟩
    have formulas : b.formulaValue y = s.formulaValue y :=
      (hs.alike.traced traced).covered.formulaValue_eq (hs.alike.symm.trans hb.alike)
        ((hs.alike.filling y).trans notFilling) values .zero
    have agrees := hs.current y (dirty y hy) ((hs.alike.filling y).trans notFilling)
      (hs.alike.formula y ▸ noRandom y) (free s hs.alike y)
    have agrees' := hb.current y (dirty y hy) ((hb.alike.filling y).trans notFilling)
      (hb.alike.formula y ▸ noRandom y) (free b hb.alike y)
    rw [formulas] at agrees'
    exact hy (CellValue.eq_of_agrees_of_agrees agrees agrees' (exact y))
  obtain ⟨z, cycle, -⟩ := behindCycle_of_supported fin supported differs
  exact acyclic z cycle

/-! ### Single edits -/

/-- The grid after some texts have been typed one after the other. -/
def enterEach (hooks : Hooks) (g : Grid) (pairs : List (CellId × String)) : Grid :=
  pairs.foldl (fun g p => g.perform (.edit hooks (.set p.1 p.2))) g

theorem enterEach_append (hooks : Hooks) (g : Grid) (pairs pairs' : List (CellId × String)) :
    g.enterEach hooks (pairs ++ pairs') = (g.enterEach hooks pairs).enterEach hooks pairs' :=
  List.foldl_append ..

/-- **A single edit** in a grid that is refreshed. -/
theorem Refreshed.perform_set (h : Refreshed g s) (wired : g.Wired) (traced : g.Traced)
    (idle : g.waiting = []) (never : ∀ done, hooks.cancel done = false) {id : CellId} {text : String}
    (inside : g.Has id) (plain : Input.FillsNone text) :
    (∃ o, s.apply hooks (.set id text) = .ok (s.perform (.edit hooks (.set id text)), o)) ∧
      Refreshed (g.store id (.typed text)) (s.perform (.edit hooks (.set id text))) := by
  have inside' : s.Has id := by
    rw [Has, h.alike.sheets]
    exact inside
  have wrote := write_set inside' plain
  refine ⟨exists_apply_eq_perform (by rw [apply, wrote]; rfl), ?_⟩
  rw [perform_of_write_of_idle wrote (h.alike.waiting.trans idle)]
  exact h.store wired traced never id rfl

/-- **Single edits one after the other** bring up to date what is dirty after all the writes. -/
theorem Refreshed.enterEach (h : Refreshed g s) (wired : g.Wired) (traced : g.Traced)
    (idle : g.waiting = []) (never : ∀ done, hooks.cancel done = false)
    {pairs : List (CellId × String)} (inside : ∀ p ∈ pairs, g.Has p.1)
    (plain : ∀ p ∈ pairs, Input.FillsNone p.2) :
    Refreshed (g.storeAll (typedAll pairs)) (s.enterEach hooks pairs) := by
  induction pairs generalizing g s with
  | nil => exact h
  | cons p pairs ih =>
    obtain ⟨id, text⟩ := p
    have step := (h.perform_set wired traced idle never (inside _ List.mem_cons_self)
      (plain _ List.mem_cons_self)).2
    exact ih step (wired.store id _) (traced.store id _) idle
      (fun q hq => inside q (List.mem_cons_of_mem _ hq))
      (fun q hq => plain q (List.mem_cons_of_mem _ hq))

/-! ### A batch and single edits -/

/-- **A batch does not depend on its order, and single edits do the same.**  In every order a batch is
accepted and gives the same grid, the same report and the same changed cells, if each cell draws the same
numbers for its calls of `RAND`.  If no pass is cancelled, single edits are accepted in every order and lead to the same formulas and edges, through cycles if need
be.  If the formulas have no cycle in the end and none of them calls `RAND`, they lead to the same values
as well, unless a cell holds `0` in one grid and `-0` in the other. -/
theorem apply_batch_perm_and_value_enterEach_iff (options : Options) (history : List Action)
    (fresh : NeverReuses options history) (clean : (ofHistory options history).dirty = ∅) (hooks : Hooks)
    {pairs pairs' : List (CellId × String)} (perm : pairs.Perm pairs')
    (distinct : (pairs.map Prod.fst).Nodup)
    (inside : ∀ p ∈ pairs, (ofHistory options history).Has p.1)
    (plain : ∀ p ∈ pairs, Input.FillsNone p.2) :
    let g := ofHistory options history
    let b := g.perform (.edit hooks (.batch (pairs.map Prod.fst) (pairs.map Prod.snd)))
    let s := g.enterEach hooks pairs'
    (∃ o o', g.apply hooks (.batch (pairs.map Prod.fst) (pairs.map Prod.snd)) = .ok (b, o) ∧
      g.apply hooks (.batch (pairs'.map Prod.fst) (pairs'.map Prod.snd)) = .ok (b, o') ∧
      o.report = o'.report ∧ o.changed.Perm o'.changed) ∧
    ((∀ done, hooks.cancel done = false) →
      (∀ before p, before ++ [p] <+: pairs' → ∃ o,
        (g.enterEach hooks before).apply hooks (.set p.1 p.2) =
          .ok (g.enterEach hooks (before ++ [p]), o)) ∧
      b.dirty = ∅ ∧ s.dirty = ∅ ∧ b.Alike s ∧
      ((∀ x, ¬ OnCycle b.FormulaReads x) → (∀ x, ¬ Formula.CallsRandom (b.formula x)) →
        ((∀ x, s.value x = b.value x) ↔
          ∀ x, (s.value x).same (b.value x) = true → s.value x = b.value x))) := by
  intro g b s
  have h : g.Tracked (removedNames options history) := tracked_ofHistory options history fresh
  have idle : g.waiting = [] := waiting_ofHistory options history
  refine ⟨apply_batch_perm hooks perm distinct inside plain, fun never => ?_⟩
  have inside' : ∀ p ∈ pairs', g.Has p.1 := fun p hp => inside p (perm.mem_iff.mpr hp)
  have plain' : ∀ p ∈ pairs', Input.FillsNone p.2 := fun p hp => plain p (perm.mem_iff.mpr hp)
  have start : Refreshed g g := refreshed_refl clean
  -- Both ways bring up to date what is dirty after all the writes.
  let written := g.storeAll (typedAll pairs)
  have tracked : written.Tracked (removedNames options history) :=
    (rewrites_storeAll g _).tracked h
  have idle' : written.waiting = [] := (storeAll_fields g _).2.2.trans idle
  have batch : Refreshed written b := by
    show Refreshed written (g.perform _)
    rw [perform_of_write_of_idle (write_batch inside plain) idle']
    exact refreshed_recompute tracked.regular.wired tracked.traced.covered never
  have single : Refreshed written s := by
    have perm' : written = g.storeAll (typedAll pairs') :=
      storeAll_perm g (perm.map _) (by rwa [map_fst_typedAll])
    rw [perm']
    exact start.enterEach h.regular.wired h.traced idle never inside' plain'
  refine ⟨?_, batch.clean, single.clean, batch.alike.symm.trans single.alike,
    fun acyclic noRandom => ?_⟩
  · rintro before p ⟨rest, rfl⟩
    have here : p ∈ before ++ [p] ++ rest := by simp
    have earlier := fun q (hq : q ∈ before) =>
      List.mem_append_left rest (List.mem_append_left [p] hq)
    have reached : Refreshed (g.storeAll (typedAll before)) (g.enterEach hooks before) :=
      start.enterEach h.regular.wired h.traced idle never (fun q hq => inside' q (earlier q hq))
        (fun q hq => plain' q (earlier q hq))
    have tracked := (rewrites_storeAll g (typedAll before)).tracked h
    obtain ⟨sheets, -, waiting⟩ := storeAll_fields g (typedAll before)
    have has : (g.storeAll (typedAll before)).Has p.1 := by
      rw [Has, sheets]
      exact inside' p here
    rw [enterEach_append]
    exact (reached.perform_set tracked.regular.wired tracked.traced (waiting.trans idle) never has
      (plain' p here)).1
  · refine single.value_eq_iff batch tracked.traced (fun x cycle => acyclic x ?_) fun x =>
      batch.alike.formula x ▸ noRandom x
    rw [← edge_eq_formulaReads (batch.alike.wired tracked.regular.wired)
      (batch.alike.traced tracked.traced), batch.alike.edge]
    exact cycle

/-- In a grid whose edges all go to the right there are no cycles. -/
theorem not_onCycle_of_rightward {removed : List String} (h : g.Tracked removed)
    (rightward : (g.cells.toList.all fun p =>
      p.2.precedents.toList.all fun x => x.col < p.1.col) = true) (x : CellId) :
    ¬ OnCycle g.FormulaReads x := by
  have step : ∀ u v, g.Edge u v → u.col < v.col := by
    intro u v edge
    have all := forall_cells (P := fun v c => c.precedents.toList.all fun u => u.col < v.col)
      (fun _ => rfl) rightward v
    exact of_decide_eq_true (List.all_eq_true.mp all u (Std.ExtTreeSet.mem_toList.mpr edge))
  have grows : ∀ y, TransGen g.Edge x y → x.col < y.col := by
    intro y path
    induction path with
    | single edge => exact step _ _ edge
    | tail _ edge ih => exact Nat.lt_trans ih (step _ _ edge)
  rw [← edge_eq_formulaReads h.regular.wired h.traced]
  exact fun cycle => Nat.lt_irrefl _ (grows x cycle)

/-- The first of two single edits makes a cycle, and the second one takes it away. -/
theorem apply_batch_perm_and_value_enterEach_iff_loop :
    let history : List Action := [.edit {} (.set ⟨0, 1, 1⟩ "=B1")]
    let pairs : List (CellId × String) := [(⟨0, 1, 1⟩, "1"), (⟨0, 1, 2⟩, "=A1")]
    let pairs' : List (CellId × String) := [(⟨0, 1, 2⟩, "=A1"), (⟨0, 1, 1⟩, "1")]
    let g := ofHistory {} history
    let b := g.perform (.edit {} (.batch (pairs.map Prod.fst) (pairs.map Prod.snd)))
    let s := g.enterEach {} pairs'
    NeverReuses {} history ∧ g.dirty = ∅ ∧ pairs.Perm pairs' ∧ (pairs.map Prod.fst).Nodup ∧
      (∀ p ∈ pairs, g.Has p.1) ∧ (∀ p ∈ pairs, Input.FillsNone p.2) ∧
      (g.enterEach {} [(⟨0, 1, 2⟩, "=A1")]).value ⟨0, 1, 2⟩ = .text "Circular reference: A1" ∧
      (∀ x, s.value x = b.value x) ∧ b.value ⟨0, 1, 2⟩ = .number 1 := by
  intro history pairs pairs' g b s
  have fresh : NeverReuses {} history := ⟨trivial, nofun⟩
  have clean : g.dirty = ∅ := Std.ExtTreeSet.isEmpty_iff.mp (by decide +kernel)
  have perm : pairs.Perm pairs' := .swap _ _ _
  have distinct : (pairs.map Prod.fst).Nodup := by decide
  have inside : ∀ p ∈ pairs, g.Has p.1 := by
    have checked : ∀ p ∈ pairs, g.checkCell p.1 = .ok () := by decide +kernel
    exact fun p hp => has_of_checkInside (checked p hp)
  have plain : ∀ p ∈ pairs, Input.FillsNone p.2 := by decide +kernel
  have never : ∀ done, ({} : Hooks).cancel done = false := fun _ => rfl
  obtain ⟨-, rest⟩ :=
    apply_batch_perm_and_value_enterEach_iff {} history fresh clean {} perm distinct inside plain
  obtain ⟨-, -, -, alike, values⟩ := rest never
  have tracked : b.Tracked _ := tracked_ofHistory {}
    (.edit {} (.batch (pairs.map Prod.fst) (pairs.map Prod.snd)) :: history) ⟨fresh, nofun⟩
  have acyclic : ∀ x, ¬ OnCycle b.FormulaReads x :=
    not_onCycle_of_rightward tracked (by decide +kernel)
  have noRandom : ∀ x, ¬ Formula.CallsRandom (b.formula x) := fun x =>
    of_decide_eq_true (forall_cells (g := b) (P := fun _ c => ¬ Formula.CallsRandom c.formula)
      (fun _ => by decide +kernel) (by decide +kernel) x)
  refine ⟨fresh, clean, perm, distinct, inside, plain, by decide +kernel, ?_, by decide +kernel⟩
  refine (values acyclic noRandom).mpr fun x same => ?_
  have blank : ∀ v : CellValue, (CellValue.text "").same v = true → .text "" = v := by
    intro v same
    cases v with
    | text t => rw [eq_of_beq same]
    | _ => cases same
  have all := forall_cells (g := s)
    (P := fun x c => decide (c.value.same (b.value x) = true → c.value = b.value x))
    (fun x => decide_eq_true (blank _)) (by decide +kernel) x
  exact of_decide_eq_true all same

/-- A product is `0`.  If both factors change at once and it becomes `-0`, the `0` stays.  If they change one
after the other, it becomes `-1` in between and `-0` in the end. -/
theorem not_batch_of_zero :
    ¬ ∀ (options : Options) (history : List Action), NeverReuses options history →
      (ofHistory options history).dirty = ∅ →
      ∀ (pairs pairs' : List (CellId × String)), pairs.Perm pairs' → (pairs.map Prod.fst).Nodup →
      (∀ p ∈ pairs, (ofHistory options history).Has p.1) → (∀ p ∈ pairs, Input.FillsNone p.2) →
      (∀ p ∈ pairs, ¬ Formula.CallsRandom (Input.ofText p.2).stored) →
      let b := (ofHistory options history).perform
        (.edit {} (.batch (pairs.map Prod.fst) (pairs.map Prod.snd)))
      (∀ x, ¬ OnCycle b.FormulaReads x) →
        ∀ x, ((ofHistory options history).enterEach {} pairs').value x = b.value x := by
  intro all
  let history : List Action :=
    [.edit {} (.set ⟨0, 1, 4⟩ "=1/C1"), .edit {} (.set ⟨0, 1, 3⟩ "=A1*B1"),
      .edit {} (.set ⟨0, 1, 2⟩ "1"), .edit {} (.set ⟨0, 1, 1⟩ "0")]
  let pairs : List (CellId × String) := [(⟨0, 1, 1⟩, "-1"), (⟨0, 1, 2⟩, "0")]
  let g := ofHistory {} history
  let b := g.perform (.edit {} (.batch (pairs.map Prod.fst) (pairs.map Prod.snd)))
  have fresh : NeverReuses {} history := ⟨⟨⟨⟨trivial, nofun⟩, nofun⟩, nofun⟩, nofun⟩
  have inside : ∀ p ∈ pairs, g.Has p.1 := by
    have checked : ∀ p ∈ pairs, g.checkCell p.1 = .ok () := by decide +kernel
    exact fun p hp => has_of_checkInside (checked p hp)
  have plain : ∀ p ∈ pairs, Input.FillsNone p.2 := by decide +kernel
  have tracked : b.Tracked _ := tracked_ofHistory {}
    (.edit {} (.batch (pairs.map Prod.fst) (pairs.map Prod.snd)) :: history) ⟨fresh, nofun⟩
  have acyclic : ∀ x, ¬ OnCycle b.FormulaReads x :=
    not_onCycle_of_rightward tracked (by decide +kernel)
  have same := all {} history fresh (Std.ExtTreeSet.isEmpty_iff.mp (by decide +kernel)) pairs pairs
    (.refl _) (by decide) inside plain (by decide +kernel) acyclic ⟨0, 1, 4⟩
  revert same
  decide +kernel

end Spreadsheet.Grid
