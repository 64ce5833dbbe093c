import Spreadsheet.Proofs.Formula.Carrying
import Spreadsheet.Proofs.Grid.Editing
import Spreadsheet.Proofs.Grid.Transport

/-!
# What a cut writes

A cut whose source is laid out as a whole writes each cell at most once: the places of the source, the
formulas that follow it, and blanks where the source was.

* `Grid.mem_followers`: the cells that read a moved cell and are neither moved nor overwritten.
* `Grid.HasRoom g source destination`: there are cells to cut, and they can be laid out in one piece.
* `Grid.HasRoom.laysOut`: the cut moves its source onto its image.
* `Grid.HasRoom.mem_cutWrites`: what is written where.
-/

namespace Spreadsheet

open Formula Range

def Cell.bare (c : Cell) : Cell := { c with readers := ∅ }

namespace Grid

variable {g : Grid}

/-! ### Writing some cells -/

theorem bare_store (g : Grid) (id : CellId) (c : Cell) (x : CellId) :
    ((g.store id c).cell x).bare =
      if x = id then (g.resolved id.sheet c).bare else (g.cell x).bare := by
  rw [cell_store]
  dsimp only
  split_ifs <;> rfl

def storeAll (g : Grid) (writes : List (CellId × Cell)) : Grid :=
  writes.foldl (fun g (id, c) => g.store id c) g

theorem storeAll_cons (g : Grid) (id : CellId) (c : Cell) (writes : List (CellId × Cell)) :
    g.storeAll ((id, c) :: writes) = (g.store id c).storeAll writes := rfl

variable {writes : List (CellId × Cell)} {x : CellId} {c : Cell}

theorem bare_storeAll_of_not_mem (h : ∀ c, (x, c) ∉ writes) :
    ((g.storeAll writes).cell x).bare = (g.cell x).bare := by
  induction writes generalizing g with
  | nil => rfl
  | cons head writes ih =>
    obtain ⟨id, c⟩ := head
    have other : x ≠ id := by
      rintro rfl
      exact h c List.mem_cons_self
    rw [storeAll_cons, ih fun c mem => h c (List.mem_cons_of_mem _ mem), bare_store, if_neg other]

theorem bare_storeAll_of_mem (h : (x, c) ∈ writes) (only : ∀ c', (x, c') ∈ writes → c' = c) :
    ((g.storeAll writes).cell x).bare = (g.resolved x.sheet c).bare := by
  induction writes generalizing g with
  | nil => exact absurd h nofun
  | cons head writes ih =>
    obtain ⟨id, d⟩ := head
    have rest : ∀ c', (x, c') ∈ writes → c' = c := fun c' mem => only c' (List.mem_cons_of_mem _ mem)
    rw [storeAll_cons]
    by_cases later : (x, c) ∈ writes
    · exact ih later rest
    · have last : ∀ c', (x, c') ∉ writes := fun c' mem => later (rest c' mem ▸ mem)
      obtain ⟨rfl, rfl⟩ : x = id ∧ c = d := by
        rcases List.mem_cons.mp h with same | mem
        · exact Prod.mk.inj same
        · exact absurd mem later
      rw [bare_storeAll_of_not_mem last, bare_store, if_pos rfl]

theorem mem_dirty_storeAll (h : x ∈ g.dirty ∨ ∃ c, (x, c) ∈ writes) :
    x ∈ (g.storeAll writes).dirty := by
  induction writes generalizing g with
  | nil =>
    rcases h with dirty | ⟨c, mem⟩
    · exact dirty
    · exact absurd mem nofun
  | cons head writes ih =>
    obtain ⟨id, d⟩ := head
    refine ih ?_
    rw [mem_dirty_store]
    rcases h with dirty | ⟨c, mem⟩
    · exact Or.inl (Or.inl dirty)
    · rcases List.mem_cons.mp mem with same | mem
      · cases same
        exact Or.inl (Or.inr .refl)
      · exact Or.inr ⟨c, mem⟩

theorem rewrites_storeAll (g : Grid) (writes : List (CellId × Cell)) :
    Rewrites (fun _ => True) g (g.storeAll writes) :=
  Rewrites.foldl writes (fun write _ _ => .store write.1 write.2 trivial .refl) g

theorem storeAll_fields (g : Grid) (writes : List (CellId × Cell)) :
    (g.storeAll writes).sheets = g.sheets ∧ (g.storeAll writes).options = g.options ∧
      (g.storeAll writes).waiting = g.waiting := by
  induction writes generalizing g with
  | nil => exact ⟨rfl, rfl, rfl⟩
  | cons head writes ih => exact ih _

theorem storeAll_directory (g : Grid) (writes : List (CellId × Cell)) :
    (g.storeAll writes).directory = g.directory := by
  rw [directory, directory, (g.storeAll_fields writes).1]

/-- A formula whose references lie inside their sheets is stored as it is. -/
theorem resolved_of_grounded {sheet : Nat} (notFilling : c.isFilling = false)
    (grounded : Grounded sheet g.directory c.formula) :
    (g.resolved sheet c).formula = c.formula ∧ (g.resolved sheet c).value = c.value := by
  obtain ⟨cells, ok⟩ := grounded.exists_reads
  rw [resolved, if_neg (by simp [notFilling]), ok]
  exact ⟨rfl, rfl⟩

theorem isFilling_resolved (sheet : Nat) (notFilling : c.isFilling = false) :
    (g.resolved sheet c).isFilling = false := by
  rw [resolved, if_neg (by simp [notFilling])]
  split
  · exact notFilling
  · rfl

theorem storeAll_of_mem (h : (x, c) ∈ writes) (only : ∀ c', (x, c') ∈ writes → c' = c)
    (notFilling : c.isFilling = false) (grounded : Grounded x.sheet g.directory c.formula) :
    (g.storeAll writes).formula x = c.formula ∧ (g.storeAll writes).value x = c.value := by
  have same := bare_storeAll_of_mem (g := g) h only
  obtain ⟨formula, value⟩ := resolved_of_grounded notFilling grounded
  exact ⟨(congrArg Cell.formula same).trans formula, (congrArg Cell.value same).trans value⟩

theorem storeAll_of_not_mem (h : ∀ c, (x, c) ∉ writes) :
    (g.storeAll writes).formula x = g.formula x ∧ (g.storeAll writes).value x = g.value x := by
  have same := bare_storeAll_of_not_mem (g := g) h
  have formula : ((g.storeAll writes).cell x).bare.formula = (g.cell x).bare.formula := by rw [same]
  have value : ((g.storeAll writes).cell x).bare.value = (g.cell x).bare.value := by rw [same]
  exact ⟨formula, value⟩

theorem storeAll_append (g : Grid) (writes writes' : List (CellId × Cell)) :
    g.storeAll (writes ++ writes') = (g.storeAll writes).storeAll writes' :=
  List.foldl_append ..

theorem updateAll_eq (g : Grid) {us : List Update} (h : ∀ u ∈ us, u.filling = false) :
    (g.updateAll us).1 = g.storeAll (us.map fun u => (u.cell, .ofFormula u.formula)) := by
  rw [updateAll]
  induction us generalizing g with
  | nil => rfl
  | cons u us ih =>
    rw [List.foldl_cons, ih _ fun u hu => h u (List.mem_cons_of_mem _ hu), List.map_cons,
      storeAll_cons, update, h u List.mem_cons_self]
    rfl

theorem clearAll_eq (g : Grid) (ids : List CellId) :
    (g.clearAll ids).1 = g.storeAll (ids.map (·, .blank)) := by
  rw [clearAll]
  induction ids generalizing g with
  | nil => rfl
  | cons id ids ih => exact ih _

/-! ### The cells that follow a cut -/

theorem mem_followers (g : Grid) (cut : Cut) (targets : CellSet) (y : CellId) :
    y ∈ g.followers cut targets ↔
      (∃ x, x ∈ cut.moved ∧ y ∈ (g.cell x).readers) ∧ y ∉ cut.moved ∧ y ∉ targets := by
  have inner : ∀ (readers : List CellId) (found : CellSet),
      y ∈ readers.foldl (fun found reader =>
        if cut.moved.contains reader || targets.contains reader then found
        else found.insert reader) found ↔
          y ∈ found ∨ (y ∈ readers ∧ y ∉ cut.moved ∧ y ∉ targets) := by
    intro readers
    induction readers with
    | nil => simp
    | cons reader readers ih =>
      intro found
      rw [List.foldl_cons, ih]
      by_cases same : y = reader
      · subst same
        by_cases taken : y ∈ cut.moved ∨ y ∈ targets
        · rcases taken with taken | taken <;> simp [taken]
        · rw [not_or] at taken
          simp [taken.1, taken.2]
      · split
        · simp [same]
        · simp [same, Std.ExtTreeSet.mem_insert, Ne.symm same]
  have outer : ∀ (moved : List (CellId × CellId)) (found : CellSet),
      y ∈ moved.foldl (fun found (pair : CellId × CellId) =>
        (g.cell pair.1).readers.toList.foldl (fun found reader =>
          if cut.moved.contains reader || targets.contains reader then found
          else found.insert reader) found) found ↔
            y ∈ found ∨ ((∃ pair ∈ moved, y ∈ (g.cell pair.1).readers) ∧
              y ∉ cut.moved ∧ y ∉ targets) := by
    intro moved
    induction moved with
    | nil => simp
    | cons pair moved ih =>
      intro found
      rw [List.foldl_cons, ih, inner]
      simp only [Std.ExtTreeSet.mem_toList, List.exists_mem_cons_iff]
      tauto
  rw [followers, Std.ExtTreeMap.foldl_eq_foldl_toList]
  simp only [Std.ExtTreeSet.foldl_eq_foldl_toList]
  rw [outer]
  simp only [Std.ExtTreeSet.not_mem_empty, false_or]
  refine and_congr_left fun _ => ?_
  constructor
  · rintro ⟨⟨x, target⟩, mem, reads⟩
    refine ⟨x, ?_, reads⟩
    rw [Std.ExtTreeMap.mem_iff_isSome_getElem?,
      Std.ExtTreeMap.mem_toList_iff_getElem?_eq_some.mp mem]
    rfl
  · rintro ⟨x, mem, reads⟩
    rw [Std.ExtTreeMap.mem_iff_isSome_getElem?] at mem
    obtain ⟨target, found⟩ := Option.isSome_iff_exists.mp mem
    exact ⟨(x, target), Std.ExtTreeMap.mem_toList_iff_getElem?_eq_some.mpr found, reads⟩

/-! ### The cut of a mapping -/

section

variable {source destination : BoundRange}

theorem isSome_of_mem_mapping {mapping : List (CellId × CellId)} (moved : CellMap CellId)
    {id : CellId} (h : moved[id]?.isSome = true ∨ ∃ target, (target, id) ∈ mapping) :
    (mapping.foldl (fun moved (target, source) => moved.insertIfNew source target)
      moved)[id]?.isSome = true := by
  induction mapping generalizing moved with
  | nil =>
    rcases h with h | ⟨target, mem⟩
    · exact h
    · exact absurd mem nofun
  | cons head mapping ih =>
    obtain ⟨t, s⟩ := head
    refine ih _ ?_
    simp only [Std.ExtTreeMap.getElem?_insertIfNew, Std.LawfulEqCmp.compare_eq_iff_eq]
    rcases h with h | ⟨target, mem⟩
    · left
      split
      · rfl
      · exact h
    · rcases List.mem_cons.mp mem with same | mem
      · cases same
        left
        split
        · rfl
        · rename_i old
          rw [Std.ExtTreeMap.mem_iff_isSome_getElem?] at old
          simpa using old
      · exact Or.inr ⟨target, mem⟩

variable {mapping : List (CellId × CellId)}

theorem moved_cutOf (pairs : ∀ target id, (target, id) ∈ mapping ↔
      source.contains id = true ∧ target = place source destination id) (id : CellId) :
    (cutOf source destination mapping).moved[id]? =
      if source.contains id then some (place source destination id) else none := by
  split
  · rename_i inside
    have some := isSome_of_mem_mapping ∅
      (Or.inr ⟨_, (pairs _ id).mpr ⟨inside, rfl⟩⟩)
    obtain ⟨target, found⟩ := Option.isSome_iff_exists.mp some
    rcases mem_of_moved found with none | mem
    · simp at none
    · obtain ⟨-, rfl⟩ := (pairs target id).mp mem
      exact found
  · rename_i outside
    rw [Option.eq_none_iff_forall_ne_some]
    intro target found
    rcases mem_of_moved found with none | mem
    · simp at none
    · exact outside ((pairs target id).mp mem).1

theorem distance_cutOf (pairs : ∀ target id, (target, id) ∈ mapping ↔
      source.contains id = true ∧ target = place source destination id) (nonempty : mapping ≠ []) :
    ∃ id, source.contains id = true ∧ (cutOf source destination mapping).distance =
      Distance.between id (place source destination id) := by
  obtain ⟨⟨target, id⟩, rest, rfl⟩ := List.exists_cons_of_ne_nil nonempty
  obtain ⟨inside, rfl⟩ := (pairs target id).mp List.mem_cons_self
  exact ⟨id, inside, rfl⟩

end

/-! ### The writes of a cut -/

def cutTo (g : Grid) (source destination : BoundRange) : Cut :=
  cutOf source destination (g.mapping source destination)

def cutWrites (g : Grid) (source destination : BoundRange) : List (CellId × Cell) :=
  let mapping := g.mapping source destination
  let cut := g.cutTo source destination
  let targets : CellSet := .ofList (mapping.map (·.1))
  let moves := mapping.map fun (target, source) => g.moved cut source target
  let follows := ((g.followers cut targets).toList.map fun id => g.moved cut id id).filter
    fun u => u.formula != g.formula u.cell
  ((moves ++ follows).map fun u => (u.cell, .ofFormula u.formula)) ++
    (source.cells.filter (!targets.contains ·)).map (·, .blank)

theorem cutBlock_eq {source destination : BoundRange} (free : ∀ x, (g.cell x).isFilling = false)
    (nonempty : g.mapping source destination ≠ []) :
    (g.cutBlock source destination).1 = g.storeAll (g.cutWrites source destination) := by
  rw [cutBlock]
  dsimp only
  rw [if_neg (by simpa using nonempty), clearAll_eq, updateAll_eq, ← storeAll_append]
  · rfl
  · intro u hu
    rcases List.mem_append.mp hu with hu | hu
    · obtain ⟨pair, -, rfl⟩ := List.mem_map.mp hu
      exact free pair.2
    · obtain ⟨id, -, rfl⟩ := List.mem_map.mp (List.mem_of_mem_filter hu)
      exact free id

/-! ### Room for a cut -/

/-- The source is laid out once, from the first cell of the destination, and its image is inside a sheet
whose coordinates fit 64 bits. -/
structure HasRoom (g : Grid) (source destination : BoundRange) : Prop where
  larger : destination.area ≤ source.area
  fits : g.checkRange (image source destination) = .ok ()
  sized : ∀ bounds, g.directory.bounds? destination.sheet = some bounds →
    bounds.rows < coordinateLimit ∧ bounds.cols < coordinateLimit

/-- The coordinates of the source and of the sheet of the destination are the same as signed 64-bit
integers. -/
def IsSigned (g : Grid) (source destination : BoundRange) : Prop :=
  (source.bottom < signedLimit ∧ source.right < signedLimit) ∧
    ∀ bounds, g.directory.bounds? destination.sheet = some bounds →
      bounds.rows < signedLimit ∧ bounds.cols < signedLimit

theorem bounds_of_checkRange {r : BoundRange} (ok : g.checkRange r = .ok ()) :
    ∃ bounds, g.directory.bounds? r.sheet = some bounds ∧ 1 ≤ r.top ∧ 1 ≤ r.left ∧
      r.bottom ≤ bounds.rows ∧ r.right ≤ bounds.cols := by
  obtain ⟨top, left⟩ := one_le_of_checkRange ok
  obtain ⟨s, found, -, last⟩ := checkRange_eq_ok_iff.mp ok
  obtain ⟨-, bottom, -, right⟩ := Sheet.contains_iff.mp last
  exact ⟨s.bounds, bounds?_of_sheet found, top, left, bottom, right⟩

namespace HasRoom

variable {source destination : BoundRange} (h : g.HasRoom source destination)

include h

theorem exists_bounds : ∃ bounds, g.directory.bounds? destination.sheet = some bounds ∧
    1 ≤ destination.top ∧ 1 ≤ destination.left ∧
      destination.top + (source.bottom - source.top) ≤ bounds.rows ∧
        destination.left + (source.right - source.left) ≤ bounds.cols := by
  obtain ⟨bounds, known, top, left, rows, cols⟩ := bounds_of_checkRange h.fits
  rw [image_top] at top
  rw [image_left] at left
  rw [image_bottom] at rows
  rw [image_right] at cols
  exact ⟨bounds, known, top, left, rows, cols⟩

theorem mem_mapping_iff (target id : CellId) :
    (target, id) ∈ g.mapping source destination ↔
      source.contains id = true ∧ target = place source destination id := by
  obtain ⟨bounds, known, -, -, rows, cols⟩ := h.exists_bounds
  obtain ⟨s, found, rfl⟩ := Option.map_eq_some_iff.mp known
  rw [mapping, found]
  exact mem_tiling_iff h.larger rows cols (h.sized s.bounds known) target id

theorem mapping_ne_nil : g.mapping source destination ≠ [] :=
  List.ne_nil_of_mem ((h.mem_mapping_iff _ source.start.cell).mpr
    ⟨(mem_cells_iff _ _).mp source.start_mem_cells, rfl⟩)

/-- **The cut lays out its source as a whole.** -/
theorem laysOut : (g.cutTo source destination).LaysOut destination g.directory := by
  obtain ⟨bounds, known, top, left, rows, cols⟩ := h.exists_bounds
  obtain ⟨sizedRows, sizedCols⟩ := h.sized bounds known
  have within : ∀ x, source.contains x = true →
      (place source destination x).row ≤ bounds.rows ∧
        (place source destination x).col ≤ bounds.cols := by
    intro x inside
    rw [contains_iff] at inside
    dsimp only [place]
    omega
  refine ⟨moved_cutOf h.mem_mapping_iff, ⟨top, left⟩, ?_, ?_⟩
  · intro x inside
    exact isWithin_of_le (x := place source destination x) known (within x inside).1
      (within x inside).2
  · intro x inside
    exact ⟨Nat.lt_of_le_of_lt (within x inside).1 sizedRows,
      Nat.lt_of_le_of_lt (within x inside).2 sizedCols⟩

/-- **Ranges go where their cells go**, as far as signed integers can say so. -/
theorem shifts (signed : g.IsSigned source destination) :
    (g.cutTo source destination).Shifts destination g.directory := by
  obtain ⟨bounds, known, top, left, rows, cols⟩ := h.exists_bounds
  obtain ⟨id, first, distance⟩ := distance_cutOf h.mem_mapping_iff h.mapping_ne_nil
  intro r inside
  rw [cutTo, distance]
  exact shiftOnto?_of_contains known rows cols ⟨top, left⟩ (signed.2 bounds known) signed.1 first
    inside

theorem mem_cutWrites (x : CellId) (c : Cell) :
    (x, c) ∈ g.cutWrites source destination ↔
      (∃ z, source.contains z = true ∧ x = place source destination z ∧
        c = .ofFormula (g.moved (g.cutTo source destination) z x).formula) ∨
      ((∃ z, source.contains z = true ∧ x ∈ (g.cell z).readers) ∧ source.contains x = false ∧
        (image source destination).contains x = false ∧
          (g.moved (g.cutTo source destination) x x).formula ≠ g.formula x ∧
            c = .ofFormula (g.moved (g.cutTo source destination) x x).formula) ∨
      (source.contains x = true ∧ (image source destination).contains x = false ∧ c = .blank) := by
  have inSource : ∀ z, z ∈ (g.cutTo source destination).moved ↔ source.contains z = true := by
    intro z
    rw [Std.ExtTreeMap.mem_iff_isSome_getElem?, cutTo, moved_cutOf h.mem_mapping_iff]
    split <;> simp [*]
  have inImage : ∀ z, z ∈ (.ofList ((g.mapping source destination).map (·.1)) : CellSet) ↔
      (image source destination).contains z = true := by
    intro z
    rw [Std.ExtTreeSet.mem_ofList, List.contains_iff_mem, List.mem_map]
    constructor
    · rintro ⟨⟨target, id⟩, mem, rfl⟩
      obtain ⟨inside, rfl⟩ := (h.mem_mapping_iff _ _).mp mem
      exact contains_image_place inside
    · intro covered
      obtain ⟨id, inside, rfl⟩ := exists_place covered
      exact ⟨(_, id), (h.mem_mapping_iff _ _).mpr ⟨inside, rfl⟩, rfl⟩
  rw [cutWrites]
  dsimp only
  rw [List.mem_append, List.map_append, List.mem_append, or_assoc]
  refine or_congr ?_ (or_congr ?_ ?_)
  · rw [List.map_map, List.mem_map]
    constructor
    · rintro ⟨⟨target, z⟩, mem, same⟩
      cases same
      obtain ⟨inside, rfl⟩ := (h.mem_mapping_iff _ _).mp mem
      exact ⟨z, inside, rfl, rfl⟩
    · rintro ⟨z, inside, rfl, rfl⟩
      exact ⟨(_, z), (h.mem_mapping_iff _ _).mpr ⟨inside, rfl⟩, rfl⟩
  · rw [List.mem_map]
    constructor
    · rintro ⟨u, filtered, same⟩
      obtain ⟨mapped, differs⟩ := List.mem_filter.mp filtered
      obtain ⟨id, follows, rfl⟩ := List.mem_map.mp mapped
      cases same
      rw [Std.ExtTreeSet.mem_toList, mem_followers, inSource, inImage] at follows
      obtain ⟨⟨z, inside, reads⟩, outside, free⟩ := follows
      exact ⟨⟨z, (inSource z).mp inside, reads⟩, Bool.eq_false_iff.mpr outside,
        Bool.eq_false_iff.mpr free, bne_iff_ne.mp differs, rfl⟩
    · rintro ⟨⟨z, inside, reads⟩, outside, free, differs, rfl⟩
      refine ⟨g.moved (g.cutTo source destination) x x,
        List.mem_filter.mpr ⟨List.mem_map.mpr ⟨x, ?_, rfl⟩, ?_⟩, rfl⟩
      · rw [Std.ExtTreeSet.mem_toList, mem_followers, inSource, inImage]
        exact ⟨⟨z, (inSource z).mpr inside, reads⟩, by simp [outside], by simp [free]⟩
      · exact bne_iff_ne.mpr differs
  · rw [List.mem_map]
    constructor
    · rintro ⟨id, mem, same⟩
      cases same
      obtain ⟨inside, free⟩ := List.mem_filter.mp mem
      refine ⟨(mem_cells_iff _ _).mp inside, ?_, rfl⟩
      rw [← Bool.not_eq_true, ← inImage]
      simpa using free
    · rintro ⟨inside, free, rfl⟩
      refine ⟨x, List.mem_filter.mpr ⟨(mem_cells_iff _ _).mpr inside, ?_⟩, rfl⟩
      rw [← Bool.not_eq_true, ← inImage] at free
      simpa using free

theorem cutWrites_unique {x : CellId} {c c' : Cell} (hc : (x, c) ∈ g.cutWrites source destination)
    (hc' : (x, c') ∈ g.cutWrites source destination) : c' = c := by
  rw [h.mem_cutWrites] at hc hc'
  have covered : ∀ z, source.contains z = true → x = place source destination z →
      (image source destination).contains x ≠ false := by
    rintro z inside rfl
    rw [contains_image_place inside]
    exact nofun
  rcases hc with ⟨z, inside, same, rfl⟩ | ⟨-, outside, apart, -, rfl⟩ | ⟨inside, apart, rfl⟩
  · rcases hc' with ⟨z', inside', same', rfl⟩ | ⟨-, -, apart, -⟩ | ⟨-, apart, -⟩
    · cases place_injective inside inside' (same.symm.trans same')
      rfl
    · exact absurd apart (covered z inside same)
    · exact absurd apart (covered z inside same)
  · rcases hc' with ⟨z', inside', same', -⟩ | ⟨-, -, -, -, rfl⟩ | ⟨inside, -⟩
    · exact absurd apart (covered z' inside' same')
    · rfl
    · exact absurd (inside.symm.trans outside) nofun
  · rcases hc' with ⟨z', inside', same', -⟩ | ⟨-, outside, -⟩ | ⟨-, -, rfl⟩
    · exact absurd apart (covered z' inside' same')
    · exact absurd (inside.symm.trans outside) nofun
    · rfl

end HasRoom

end Grid

end Spreadsheet
