import Spreadsheet.Proofs.Grid.Displacement
import Spreadsheet.Proofs.Grid.History

/-!
# The table of names

Instead of looking through the sheets for a name, a table of the indices can be kept.  A sheet that is
added is entered with the next index, the table is made anew when a sheet is removed, and nothing else
touches it.

* `Lists table names`: the table finds each name at its place in the list, and no others.
* `nameTable`: the table that is kept along a history.
* `Grid.lists_record`: the table goes on listing the sheets when an action is recorded in it.
* `getElem?_nameTable`: the table finds what looking through the sheets finds.
-/

namespace Spreadsheet

/-- The indices of sheets by their names. -/
abbrev NameTable := Std.ExtTreeMap String Nat

/-- The table of a list of names. -/
def NameTable.ofNames (names : List String) : NameTable := .ofList names.zipIdx

def Grid.record (g : Grid) (table : NameTable) : Action → NameTable
  | .edit _ (.addSheet name) =>
    match g.addSheet name with
    | .ok _ => table.insert name g.sheets.length
    | .error _ => table
  | .edit _ (.removeSheet index) =>
    match g.removeSheet index with
    | .ok g' => .ofNames (g'.sheets.map Sheet.name)
    | .error _ => table
  | _ => table

/-- The table that is kept along a history. -/
def nameTable (options : Options) : List Action → NameTable
  | [] => .ofNames (Grid.firstNames options)
  | action :: before => (Grid.ofHistory options before).record (nameTable options before) action

variable {table : NameTable} {names : List String}

def Lists (table : NameTable) (names : List String) : Prop :=
  ∀ (name : String) (i : Nat), table[name]? = some i ↔ names[i]? = some name

theorem lists_ofNames (nodup : names.Nodup) : Lists (.ofNames names) names := by
  have distinct : names.zipIdx.Pairwise fun a b => ¬ compare a.1 b.1 = .eq := by
    have distinct : (names.zipIdx.map Prod.fst).Nodup := by rwa [List.zipIdx_map_fst]
    refine List.Pairwise.of_map Prod.fst (fun a b other => ?_) distinct
    rwa [Std.LawfulEqCmp.compare_eq_iff_eq]
  have finds : ∀ {name : String} {i : Nat}, names[i]? = some name →
      (NameTable.ofNames names)[name]? = some i := fun h =>
    Std.ExtTreeMap.getElem?_ofList_of_mem Std.ReflCmp.compare_self distinct
      (List.mk_mem_zipIdx_iff_getElem?.mpr h)
  intro name i
  refine ⟨fun found => ?_, finds⟩
  by_cases mem : name ∈ names
  · obtain ⟨j, here⟩ := List.mem_iff_getElem?.mp mem
    rw [finds here] at found
    cases found
    exact here
  · have missing : (NameTable.ofNames names)[name]? = none := by
      refine Std.ExtTreeMap.getElem?_ofList_of_contains_eq_false ?_
      rwa [List.zipIdx_map_fst, ← Bool.not_eq_true, List.contains_iff_mem]
    rw [missing] at found
    cases found

theorem Lists.append (h : Lists table names) {name : String} (new : name ∉ names) :
    Lists (table.insert name names.length) (names ++ [name]) := by
  intro other i
  simp only [Std.ExtTreeMap.getElem?_insert, Std.LawfulEqCmp.compare_eq_iff_eq,
    List.getElem?_append]
  split <;> split <;> rename_i same place
  · subst same
    refine iff_of_false (fun last => ?_) (fun here => new (List.mem_of_getElem? here))
    exact absurd (Option.some.inj last) (Nat.ne_of_gt place)
  · subst same
    rw [Option.some.injEq, List.getElem?_singleton, Option.ite_none_right_eq_some, and_iff_left rfl]
    omega
  · exact h other i
  · refine iff_of_false (fun found => ?_) (fun here => ?_)
    · exact place (List.getElem?_eq_some_iff.mp ((h other i).mp found)).1
    · exact same (List.mem_singleton.mp (List.mem_of_getElem? here)).symm

namespace Grid

variable {P : String → Prop} {g g' : Grid}

theorem Rewrites.map_name (h : Rewrites P g g') (regular : g.Regular) :
    g'.sheets.map Sheet.name = g.sheets.map Sheet.name := by
  induction h with
  | refl => rfl
  | store id c _ _ ih => exact ih
  | grow index rows cols _ ih => exact (map_name_growSheet _ index rows cols).trans ih
  | await waiting _ ih => exact ih
  | recompute hooks before ih =>
    exact (congrArg _ (recompute_alike (before.regular regular).wired hooks).sheets).trans ih

theorem map_name_finish (regular : g.Regular) (hooks : Hooks) (written : List CellId)
    (invalidate : Bool) :
    (g.finish hooks written invalidate).1.sheets.map Sheet.name = g.sheets.map Sheet.name :=
  (rewrites_finish inherited_true regular (fun _ => trivial) hooks written invalidate).map_name regular

theorem map_name_perform (regular : g.Regular) {action : Action}
    (adds : ∀ hooks name, action ≠ .edit hooks (.addSheet name))
    (removes : ∀ hooks index, action ≠ .edit hooks (.removeSheet index)) :
    (g.perform action).sheets.map Sheet.name = g.sheets.map Sheet.name := by
  obtain ⟨g₁, prepared, rewrites⟩ :=
    rewrites_perform inherited_true regular (fun _ => trivial) action
  cases prepared with
  | same => exact rewrites.map_name regular
  | added hooks name same => exact absurd same (adds hooks name)
  | removed hooks index same => exact absurd same (removes hooks index)

/-- **The table goes on listing the sheets** when an action is recorded in it. -/
theorem lists_record (h : Lists table (g.sheets.map Sheet.name)) (regular : g.Regular)
    (action : Action) :
    Lists (g.record table action) ((g.perform action).sheets.map Sheet.name) := by
  fun_cases record g table action with
  | case1 hooks name g' ok =>
    have new := (addSheet_eq_ok_iff.mp ok).2.1
    rw [perform_of_write (Writes.addSheet name ok).write_eq, map_name_finish (regular.addSheet ok), addSheet_eq ok,
      List.map_append]
    exact List.length_map Sheet.name ▸ h.append new
  | case2 hooks name e ok =>
    have refused : g.write (.addSheet name) = .error e := by
      rw [write, ok]
      rfl
    rwa [perform_of_refused refused]
  | case3 hooks index g' ok =>
    rw [perform_of_write (Writes.removeSheet index ok).write_eq, map_name_finish (regular.removeSheet ok)]
    exact lists_ofNames (regular.removeSheet ok).names.nodup
  | case4 hooks index e ok =>
    have refused : g.write (.removeSheet index) = .error e := by
      rw [write, ok]
      rfl
    rwa [perform_of_refused refused]
  | case5 =>
    rename_i adds removes
    rwa [map_name_perform regular adds removes]

theorem lists_nameTable (options : Options) (history : List Action) :
    Lists (nameTable options history) ((ofHistory options history).sheets.map Sheet.name) := by
  induction history with
  | nil => exact map_name_new options ▸ lists_ofNames (firstNames_proper options).2
  | cons action history ih => exact lists_record ih (regular_ofHistory options history) action

/-- **The table finds what looking through the sheets finds.** -/
theorem getElem?_nameTable (options : Options) (history : List Action) (name : String) :
    (nameTable options history)[name]? = (ofHistory options history).directory.index? name := by
  refine Option.ext fun i => ?_
  rw [lists_nameTable options history name i,
    (regular_ofHistory options history).names.index?_eq_some_iff]

end Grid

end Spreadsheet
