import Spreadsheet.Proofs.Json.RoundTrip
import Spreadsheet.Snapshot.Encoding

/-!
# Snapshots that read back

The parts of a snapshot are read as they were written, from the numbers up to the snapshot itself, with
any library that reads what it wrote.  Natural numbers of 64 bits are read only, so the coordinates of
cells and the sizes of sheets have to fit into these.  Every double is read back, also one that is not
finite, but for the sign of what is not a number: it is written as `NaN`.

* `Snapshot.reread`: the snapshot without these signs.
* `doubleOfJson?_reread`: a double is read as it was written.
* `toList?_reread`: a list is read, if each of its members is.
* `Snapshot.Fits`: the numbers of a snapshot fit 64 bits.
* `Snapshot.ofJson?_reread`: what is read where a snapshot was written.
* `Snapshot.proper_toJson`: nothing else than what libraries read is written.
-/

namespace Spreadsheet

open Json (reread rereadItems rereadFields Proper)

variable {library : Json.Library} {numeral : Numeral → Numeral}

/-! ### Numbers -/

theorem toNat?_reread_nat (h : library.RoundTrips numeral) {n : Nat} (fits : n < UInt64.size) :
    ((Json.nat n).reread numeral).toNat? = some n := by
  rw [Json.nat, reread, h.natural n fits]
  exact if_pos fits

theorem text_of_notANumber {x : Float} (above : Number.infinite < Number.patternOf x) :
    Number.text x = "NaN" := by
  rw [Number.text, Number.chars, if_pos above]
  rfl

theorem text_of_infinite {x : Float} (same : Number.patternOf x = Number.infinite) :
    Number.text x = if Number.isNegative x then "-Inf" else "+Inf" := by
  rw [Number.text, Number.chars, if_neg (by omega), if_pos same, String.ofList_toList]

/-- **A double is read as it was written**, whether it is finite or not. -/
theorem doubleOfJson?_reread (h : library.RoundTrips numeral) (x : Float) :
    doubleOfJson? ((doubleToJson x).reread numeral) = some x := by
  rw [doubleToJson]
  split
  · rename_i finite
    rw [reread]
    exact h.double x finite
  · rename_i special
    rw [reread]
    rcases Nat.lt_or_eq_of_le (Nat.le_of_not_lt special) with above | same
    · rw [text_of_notANumber above, Number.eq_notANumber above]
      rfl
    · rw [text_of_infinite same.symm]
      have whole := Number.ofPattern_patternOf x
      rw [← same] at whole
      cases sign : Number.isNegative x with
      | true =>
        rw [sign] at whole
        exact congrArg some whole
      | false =>
        rw [sign] at whole
        exact congrArg some whole

/-! ### Lists and records -/

theorem rereadItems_map {α : Type} (write : α → Json) (xs : List α) :
    rereadItems numeral (xs.map write) = xs.map fun x => (write x).reread numeral := by
  induction xs with
  | nil => rw [List.map_nil, rereadItems]; rfl
  | cons x xs ih => rw [List.map_cons, rereadItems, ih]; rfl

/-- **A list is read**, if each of its members is. -/
theorem toList?_reread {α : Type} {write : α → Json} {read : Json → Option α} {change : α → α}
    {xs : List α} (back : ∀ x ∈ xs, read ((write x).reread numeral) = some (change x)) :
    ((Json.array (xs.map write)).reread numeral).toList? read = some (xs.map change) := by
  rw [reread, rereadItems_map]
  show (xs.map fun x => (write x).reread numeral).mapM read = some (xs.map change)
  induction xs with
  | nil => rfl
  | cons x xs ih =>
    have front := back x List.mem_cons_self
    have rest := ih fun y mem => back y (List.mem_cons_of_mem x mem)
    rw [List.map_cons, List.mapM_cons, front, rest]
    rfl

theorem proper_array_map {α : Type} {write : α → Json} {depth : Nat} {xs : List α}
    (proper : ∀ x ∈ xs, (write x).Proper depth) : (Json.array (xs.map write)).Proper (depth + 1) :=
  .array fun _ mem => by
    obtain ⟨x, inside, rfl⟩ := List.mem_map.mp mem
    exact proper x inside

/-- The coordinates fit 64 bits. -/
def CellId.Fits (id : CellId) : Prop :=
  id.sheet < UInt64.size ∧ id.row < UInt64.size ∧ id.col < UInt64.size

theorem CellId.ofJson?_reread (h : library.RoundTrips numeral) {id : CellId} (fits : id.Fits) :
    CellId.ofJson? (id.toJson.reread numeral) = some id := by
  obtain ⟨sheet, row, col⟩ := fits
  have members : (id.toJson.reread numeral).members? ["sheet", "row", "col"] =
      some [some ((Json.nat id.sheet).reread numeral), some ((Json.nat id.row).reread numeral),
        some ((Json.nat id.col).reread numeral)] := by
    rw [toJson, reread]
    rfl
  simp [CellId.ofJson?, members, toNat?_reread_nat h, sheet, row, col]

theorem CellId.proper_toJson {id : CellId} (fits : id.Fits) (depth : Nat) :
    id.toJson.Proper (depth + 1) := by
  refine .object (by simp) ?_
  simpa using ⟨.natural fits.1, .natural fits.2.1, .natural fits.2.2⟩

/-- The size of a sheet fits 64 bits. -/
def Sheet.Fits (s : Sheet) : Prop := s.rows < UInt64.size ∧ s.cols < UInt64.size

theorem Sheet.ofJson?_reread (h : library.RoundTrips numeral) {s : Sheet} (fits : s.Fits) :
    Sheet.ofJson? (s.toJson.reread numeral) = some s := by
  obtain ⟨rows, cols⟩ := fits
  have members : (s.toJson.reread numeral).members? ["name", "rows", "cols"] =
      some [some (.string s.name), some ((Json.nat s.rows).reread numeral),
        some ((Json.nat s.cols).reread numeral)] := by
    rw [toJson, reread, rereadFields, reread]
    rfl
  simp [Sheet.ofJson?, members, Json.toString?, toNat?_reread_nat h, rows, cols]

theorem Sheet.proper_toJson {s : Sheet} (fits : s.Fits) (depth : Nat) : s.toJson.Proper (depth + 1) := by
  refine .object (by simp) ?_
  simpa using ⟨.string s.name, .natural fits.1, .natural fits.2⟩

/-! ### Cells -/

/-- The double without the sign of what is not a number. -/
def Double.reread (x : Double) : Double := plain x.toFloat

/-- The value without such a sign. -/
def CellValue.reread : CellValue → CellValue
  | number x => number x.reread
  | v => v

/-- The cell with the value that is read where its own was written. -/
def Cell.reread (c : Cell) : Cell := { c with value := c.value.reread }

theorem Double.reread_eq_iff (x : Double) : x.reread = x ↔ x ≠ minusNaN := by
  cases x <;> simp [reread, toFloat]

theorem CellValue.reread_eq_iff (v : CellValue) : v.reread = v ↔ v ≠ number .minusNaN := by
  cases v <;> simp [reread, Double.reread_eq_iff]

theorem Cell.reread_eq_iff (c : Cell) : c.reread = c ↔ c.value ≠ .number .minusNaN := by
  rw [← CellValue.reread_eq_iff, reread]
  refine ⟨congrArg value, fun same => ?_⟩
  rw [same]

theorem CellValue.ofJson?_reread (h : library.RoundTrips numeral) (v : CellValue) :
    CellValue.ofJson? (v.toJson.reread numeral) = some v.reread := by
  have members : (v.toJson.reread numeral).members? ["type", "value"] =
      some [some (.string v.content.1), some (v.content.2.reread numeral)] := by
    rw [toJson, Json.reread, rereadFields, Json.reread]
    rfl
  have content : CellValue.ofContent? v.content.1 (v.content.2.reread numeral) = some v.reread := by
    cases v with
    | number x =>
      show (doubleOfJson? ((doubleToJson x).reread numeral)).map (fun y => number y) = _
      rw [doubleOfJson?_reread h]
      rfl
    | _ => rw [CellValue.content, Json.reread]; rfl
  simp [CellValue.ofJson?, members, Json.toName?, content]

theorem proper_doubleToJson (x : Float) (depth : Nat) : (doubleToJson x).Proper depth := by
  rw [doubleToJson]
  split
  · exact .double ‹_›
  · exact .string _

theorem CellValue.proper_toJson (v : CellValue) (depth : Nat) : v.toJson.Proper (depth + 1) := by
  have content : v.content.2.Proper depth := by
    cases v with
    | number x => exact proper_doubleToJson x depth
    | bool b => exact .bool b
    | _ => exact .string _
  refine .object (by simp) ?_
  simpa using ⟨.string _, content⟩

theorem edgesOfJson?_reread (h : library.RoundTrips numeral) {ids : CellSet}
    (fits : ∀ id ∈ ids, id.Fits) : edgesOfJson? ((edgesToJson ids).reread numeral) = some ids := by
  have back : ((edgesToJson ids).reread numeral).toList? CellId.ofJson? = some (ids.toList.map id) :=
    toList?_reread fun id mem => CellId.ofJson?_reread h (fits id (Std.ExtTreeSet.mem_toList.mp mem))
  rw [edgesOfJson?, back, List.map_id]
  refine congrArg some (Std.ExtTreeSet.ext_mem fun id => ?_)
  rw [Std.ExtTreeSet.mem_ofList, List.contains_iff_mem, Std.ExtTreeSet.mem_toList]

theorem proper_edgesToJson {ids : CellSet} (fits : ∀ id ∈ ids, id.Fits) (depth : Nat) :
    (edgesToJson ids).Proper (depth + 2) :=
  proper_array_map fun id mem => CellId.proper_toJson (fits id (Std.ExtTreeSet.mem_toList.mp mem)) depth

/-- The coordinates of a cell's edges fit 64 bits. -/
def Cell.Fits (c : Cell) : Prop := (∀ id ∈ c.precedents, id.Fits) ∧ ∀ id ∈ c.readers, id.Fits

theorem Cell.ofJson?_reread (h : library.RoundTrips numeral) {c : Cell} (fits : c.Fits) :
    Cell.ofJson? (c.toJson.reread numeral) = some c.reread := by
  have members : (c.toJson.reread numeral).members? ["formula", "value", "depend_in", "depend_out"] =
      some [some (.string c.formula), some (c.value.toJson.reread numeral),
        some ((edgesToJson c.precedents).reread numeral),
        some ((edgesToJson c.readers).reread numeral)] := by
    rw [toJson, Json.reread, rereadFields, Json.reread]
    rfl
  simp [Cell.ofJson?, members, Json.toString?, CellValue.ofJson?_reread h,
    edgesOfJson?_reread h fits.1, edgesOfJson?_reread h fits.2, reread]

theorem Cell.proper_toJson {c : Cell} (fits : c.Fits) (depth : Nat) : c.toJson.Proper (depth + 3) := by
  refine .object (by simp) ?_
  simpa using ⟨.string _, c.value.proper_toJson (depth + 1), proper_edgesToJson fits.1 depth,
    proper_edgesToJson fits.2 depth⟩

namespace Snapshot

/-- The snapshot that is read where this one was written. -/
def reread (s : Snapshot) : Snapshot := { s with cells := s.cells.map fun (id, c) => (id, c.reread) }

/-- The numbers of a snapshot fit 64 bits. -/
structure Fits (s : Snapshot) : Prop where
  sheets : ∀ sheet ∈ s.sheets, sheet.Fits
  cells : ∀ entry ∈ s.cells, entry.1.Fits ∧ entry.2.Fits

theorem entryOfJson?_reread (h : library.RoundTrips numeral) {entry : CellId × Cell}
    (id : entry.1.Fits) (cell : entry.2.Fits) :
    entryOfJson? ((entryToJson entry).reread numeral) = some (entry.1, entry.2.reread) := by
  have members : ((entryToJson entry).reread numeral).members? ["id", "cell"] =
      some [some (entry.1.toJson.reread numeral), some (entry.2.toJson.reread numeral)] := by
    rw [entryToJson, Json.reread]
    rfl
  simp [entryOfJson?, members, CellId.ofJson?_reread h id, Cell.ofJson?_reread h cell]

theorem proper_entryToJson {entry : CellId × Cell} (id : entry.1.Fits) (cell : entry.2.Fits)
    (depth : Nat) : (entryToJson entry).Proper (depth + 4) := by
  refine .object (by simp) ?_
  simpa using ⟨CellId.proper_toJson id (depth + 2), Cell.proper_toJson cell depth⟩

/-- **A snapshot is read as it was written**, without the signs of what is not a number. -/
theorem ofJson?_reread (h : library.RoundTrips numeral) {s : Snapshot} (fits : s.Fits) :
    ofJson? (s.toJson.reread numeral) = some s.reread := by
  have members : (s.toJson.reread numeral).members? ["sheets", "cells"] =
      some [some ((Json.array (s.sheets.map Sheet.toJson)).reread numeral),
        some ((Json.array (s.cells.map entryToJson)).reread numeral)] := by
    rw [toJson, Json.reread]
    rfl
  have sheets : ((Json.array (s.sheets.map Sheet.toJson)).reread numeral).toList? Sheet.ofJson? =
      some (s.sheets.map id) :=
    toList?_reread fun sheet mem => Sheet.ofJson?_reread h (fits.sheets sheet mem)
  have cells : ((Json.array (s.cells.map entryToJson)).reread numeral).toList? entryOfJson? =
      some s.reread.cells := toList?_reread fun entry mem =>
    entryOfJson?_reread h (fits.cells entry mem).1 (fits.cells entry mem).2
  simp [ofJson?, members, sheets, cells, reread]

theorem proper_toJson {s : Snapshot} (fits : s.Fits) (depth : Nat) : s.toJson.Proper (depth + 6) := by
  refine .object (by simp) ?_
  simpa using ⟨proper_array_map fun sheet mem => Sheet.proper_toJson (fits.sheets sheet mem) (depth + 3),
    proper_array_map fun entry mem =>
      proper_entryToJson (fits.cells entry mem).1 (fits.cells entry mem).2 depth⟩

/-- **Any library that reads what it wrote** reads a snapshot. -/
theorem bind_ofText?_text (h : library.RoundTrips numeral) {s : Snapshot} (fits : s.Fits) :
    (library.ofText? (library.text s.toJson)).bind ofJson? = some s.reread := by
  rw [h.value _ (proper_toJson fits 121)]
  exact ofJson?_reread h fits

end Snapshot

end Spreadsheet
