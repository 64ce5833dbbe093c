import Spreadsheet.Proofs.Grid.Writing

/-!
# Removing a sheet

When a sheet is removed, the cells of later sheets get new places.  `restored index` gives each place
the one that it had before, so the new grid can be looked up in the old one.

* `Grid.cell_dropSheet`: the cell in a place is the one that was in its old place.
* `Grid.sheetRemoved_eq`: what becomes of a grid that loses a sheet.
* `Grid.Regular.removeSheet`: removing a sheet keeps a grid regular.
-/

namespace Spreadsheet

def restoredSheet (index sheet : Nat) : Nat := if sheet < index then sheet else sheet + 1

def restored (index : Nat) (id : CellId) : CellId :=
  { id with sheet := restoredSheet index id.sheet }

theorem restoredSheet_ne (index sheet : Nat) : restoredSheet index sheet ≠ index := by
  rw [restoredSheet]
  split <;> omega

theorem restored_injective (index : Nat) : Function.Injective (restored index) := by
  rintro ⟨s, r, c⟩ ⟨s', r', c'⟩ h
  simp only [restored, restoredSheet, CellId.mk.injEq] at h
  obtain ⟨sheet, rfl, rfl⟩ := h
  have : s = s' := by
    split at sheet <;> split at sheet <;> omega
  rw [this]

namespace Grid

theorem withoutSheet?_eq_some_iff (index : Nat) (id x : CellId) :
    withoutSheet? index id = some x ↔ id = restored index x := by
  obtain ⟨s, r, c⟩ := id
  obtain ⟨s', r', c'⟩ := x
  rw [withoutSheet?, restored, restoredSheet]
  dsimp only
  split
  · simp only [Option.some.injEq, CellId.mk.injEq]
    split <;> omega
  · split
    · simp only [reduceCtorEq, CellId.mk.injEq, false_iff]
      split <;> omega
    · simp only [Option.some.injEq, CellId.mk.injEq]
      split <;> omega

theorem mem_setWithoutSheet (index : Nat) (s : CellSet) (x : CellId) :
    x ∈ setWithoutSheet index s ↔ restored index x ∈ s := by
  rw [setWithoutSheet, Std.ExtTreeSet.mem_ofList, List.contains_iff_mem, List.mem_filterMap]
  simp [withoutSheet?_eq_some_iff]

variable (g : Grid) (index : Nat)

/-- What is listed when a sheet is removed: the cells that are not on it, with their new places. -/
theorem mem_filterMap_withoutSheet? (x : CellId) (c : Cell) :
    (x, c) ∈ (g.cells.toList.filterMap fun (id, c) =>
        (withoutSheet? index id).map (·, cellWithoutSheet index c)) ↔
      ∃ c', g.cells[restored index x]? = some c' ∧ c = cellWithoutSheet index c' := by
  rw [List.mem_filterMap]
  constructor
  · rintro ⟨⟨id, c'⟩, stored, h⟩
    obtain ⟨x', hx', same⟩ := Option.map_eq_some_iff.mp h
    cases same
    rw [withoutSheet?_eq_some_iff] at hx'
    rw [← hx']
    exact ⟨c', Std.ExtTreeMap.mem_toList_iff_getElem?_eq_some.mp stored, rfl⟩
  · rintro ⟨c', stored, rfl⟩
    refine ⟨(restored index x, c'), Std.ExtTreeMap.mem_toList_iff_getElem?_eq_some.mpr stored, ?_⟩
    exact Option.map_eq_some_iff.mpr ⟨x, (withoutSheet?_eq_some_iff _ _ _).mpr rfl, rfl⟩

/-- No two cells have the same place after a sheet is removed. -/
theorem pairwise_filterMap_withoutSheet? :
    (g.cells.toList.filterMap fun (id, c) =>
      (withoutSheet? index id).map (·, cellWithoutSheet index c)).Pairwise
        (fun a b => ¬ compare a.1 b.1 = .eq) := by
  refine Std.ExtTreeMap.distinct_keys_toList.filterMap _ ?_
  rintro ⟨a, _⟩ ⟨b, _⟩ other ⟨a', _⟩ ha ⟨b', _⟩ hb same
  obtain ⟨k, hk, ha⟩ := Option.map_eq_some_iff.mp ha
  obtain ⟨k', hk', hb⟩ := Option.map_eq_some_iff.mp hb
  cases ha
  cases hb
  rw [withoutSheet?_eq_some_iff] at hk hk'
  have equal : a' = b' := Std.LawfulEqCmp.eq_of_compare same
  rw [hk, hk', equal] at other
  exact other Std.ReflCmp.compare_self

theorem cells_dropSheet (x : CellId) :
    (g.dropSheet index).cells[x]? =
      (g.cells[restored index x]?).map (cellWithoutSheet index) := by
  show (Std.ExtTreeMap.ofList _ compare)[x]? = _
  cases found : g.cells[restored index x]? with
  | some c =>
    exact Std.ExtTreeMap.getElem?_ofList_of_mem Std.ReflCmp.compare_self
      (pairwise_filterMap_withoutSheet? g index)
      ((mem_filterMap_withoutSheet? g index x _).mpr ⟨c, found, rfl⟩)
  | none =>
    refine Std.ExtTreeMap.getElem?_ofList_of_contains_eq_false ?_
    rw [← Bool.not_eq_true, List.contains_iff_mem, List.mem_map]
    rintro ⟨⟨k, c⟩, listed, rfl⟩
    obtain ⟨c', stored, -⟩ := (mem_filterMap_withoutSheet? g index k c).mp listed
    rw [found] at stored
    cases stored

theorem cell_dropSheet (x : CellId) :
    (g.dropSheet index).cell x = cellWithoutSheet index (g.cell (restored index x)) := by
  rw [cell, cell, Std.ExtTreeMap.getD_eq_getD_getElem?, Std.ExtTreeMap.getD_eq_getD_getElem?,
    cells_dropSheet]
  cases g.cells[restored index x]? with
  | some c => rfl
  | none => rfl

variable {g} {index}

/-- Marking the readers of a sheet changes nothing but what is dirty. -/
theorem sheetRemoved_eq (g : Grid) (index : Nat) :
    g.sheetRemoved index = { g.dropSheet index with dirty := (g.sheetRemoved index).dirty } :=
  foldl_markDirty_eq _ _

theorem mem_cells_sheetRemoved (g : Grid) (index : Nat) (x : CellId) :
    x ∈ (g.sheetRemoved index).cells ↔ restored index x ∈ g.cells := by
  rw [sheetRemoved_eq]
  show x ∈ (g.dropSheet index).cells ↔ _
  rw [Std.ExtTreeMap.mem_iff_isSome_getElem?, cells_dropSheet, Option.isSome_map,
    ← Std.ExtTreeMap.mem_iff_isSome_getElem?]

theorem Wired.dropSheet (h : g.Wired) (index : Nat) : (g.dropSheet index).Wired where
  forth x y hx := by
    rw [cell_dropSheet] at hx ⊢
    rw [cellWithoutSheet, mem_setWithoutSheet] at hx ⊢
    exact h.forth _ _ hx
  back x y hxy hy := by
    rw [cell_dropSheet] at hy ⊢
    rw [cellWithoutSheet, mem_setWithoutSheet] at hy ⊢
    exact h.back _ _ (fun same => hxy (restored_injective index same)) hy
  inert x hx := by
    rw [cell_dropSheet] at hx ⊢
    have none := h.inert _ hx
    refine Std.ExtTreeSet.eq_empty_iff_forall_not_mem.mpr ?_
    intro y hy
    rw [cellWithoutSheet, mem_setWithoutSheet, none] at hy
    exact Std.ExtTreeSet.not_mem_empty hy

theorem ProperNames.dropSheet (h : g.ProperNames) (index : Nat) :
    (g.dropSheet index).ProperNames where
  valid s hs := h.valid s (List.mem_of_mem_eraseIdx hs)
  nodup := h.nodup.sublist ((List.eraseIdx_sublist g.sheets index).map Sheet.name)

/-- **Removing a sheet keeps a grid regular.** -/
theorem Regular.removeSheet {g' : Grid} (h : g.Regular) (ok : g.removeSheet index = .ok g') :
    g'.Regular := by
  obtain ⟨-, -, rfl⟩ := removeSheet_eq_ok_iff.mp ok
  rw [sheetRemoved_eq]
  exact ⟨(h.wired.dropSheet index).of_same (fun _ => rfl) (fun _ => rfl) (fun _ h => h),
    (h.names.dropSheet index).of_map_name rfl⟩

end Grid

end Spreadsheet
