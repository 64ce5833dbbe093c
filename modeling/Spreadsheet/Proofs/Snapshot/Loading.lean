import Spreadsheet.Proofs.Grid.Anchoring
import Spreadsheet.Proofs.Snapshot.RoundTrip

/-!
# Grids from snapshots

A snapshot becomes a grid unless it has no sheets, two sheets of one name, or something on a sheet that
is not there.  In a grid that has a history nothing dangles, so its own snapshot always becomes a grid
again, and this one differs from it only in that nothing is left to do.  A text says of a value that is
not a number no more than this, so a grid that is loaded from its text has such values without sign.

* `Snapshot.inconsistency?_isSome_iff`: what keeps a snapshot from being a grid.
* `Snapshot.getElem?_ofList`: the last entry for a cell is the one that counts.
* `Grid.Fits`: the sizes of a grid fit 64 bits.
* `Grid.reread`: the grid without the signs of what is not a number.
* `Grid.ofSnapshot_ofText_ofHistory`: what a grid is after it was saved.
-/

namespace Spreadsheet

/-! ### Consistent snapshots -/

theorem Cell.mem_mentioned {id x : CellId} {c : Cell} :
    id ∈ c.mentioned x ↔ id = x ∨ id ∈ c.precedents ∨ id ∈ c.readers := by
  rw [mentioned, List.mem_cons, List.mem_append, Std.ExtTreeSet.mem_toList, Std.ExtTreeSet.mem_toList]

/-- Some name is used a second time exactly if the names are not distinct. -/
theorem firstDuplicate?_isSome_iff (sheets : List Sheet) :
    (firstDuplicate? sheets).isSome = true ↔ ¬ (sheets.map Sheet.name).Nodup := by
  rw [firstDuplicate?, Option.isSome_map, List.find?_isSome, List.nodup_iff_getElem?_ne_getElem?]
  constructor
  · rintro ⟨⟨s, j⟩, mem, earlier⟩ distinct
    have later := List.mk_mem_zipIdx_iff_getElem?.mp mem
    obtain ⟨t, mem, same⟩ := List.any_eq_true.mp earlier
    obtain ⟨i, found⟩ := List.mem_iff_getElem?.mp mem
    have below : i < j := by
      have inside := (List.getElem?_eq_some_iff.mp found).1
      rw [List.length_take] at inside
      omega
    rw [List.getElem?_take_of_lt below] at found
    refine distinct i j below ?_ ?_
    · rw [List.length_map]
      exact (List.getElem?_eq_some_iff.mp later).1
    · rw [List.getElem?_map, List.getElem?_map, found, later]
      exact congrArg some (eq_of_beq same)
  · intro used
    push Not at used
    obtain ⟨i, j, below, inside, same⟩ := used
    rw [List.length_map] at inside
    refine ⟨(sheets[j], j), List.mk_mem_zipIdx_iff_getElem?.mpr (List.getElem?_eq_getElem inside), ?_⟩
    refine List.any_eq_true.mpr ⟨sheets[i], ?_, ?_⟩
    · refine List.mem_iff_getElem?.mpr ⟨i, ?_⟩
      rw [List.getElem?_take_of_lt below, List.getElem?_eq_getElem]
    · rw [List.getElem?_map, List.getElem?_map, List.getElem?_eq_getElem inside,
        List.getElem?_eq_getElem (below.trans inside)] at same
      exact beq_iff_eq.mpr (Option.some.inj same)

namespace Snapshot

theorem missing?_isSome_iff (s : Snapshot) : s.missing?.isSome = true ↔
    ∃ x c, (x, c) ∈ s.cells ∧ ∃ id, (id = x ∨ id ∈ c.precedents ∨ id ∈ c.readers) ∧
      s.sheets.length ≤ id.sheet := by
  rw [missing?, List.findSome?_isSome_iff]
  simp only [List.find?_isSome, Prod.exists, Cell.mem_mentioned, decide_eq_true_eq]

/-- **What keeps a snapshot from being a grid.** -/
theorem inconsistency?_isSome_iff (s : Snapshot) : s.inconsistency?.isSome = true ↔
    s.sheets = [] ∨ ¬ (s.sheets.map Sheet.name).Nodup ∨
      ∃ x c, (x, c) ∈ s.cells ∧ ∃ id, (id = x ∨ id ∈ c.precedents ∨ id ∈ c.readers) ∧
        s.sheets.length ≤ id.sheet := by
  rw [inconsistency?]
  split
  · rename_i none
    exact iff_of_true rfl (Or.inl (List.isEmpty_iff.mp none))
  · rename_i some
    rw [Option.isSome_or, Bool.or_eq_true, Option.isSome_map, Option.isSome_map,
      firstDuplicate?_isSome_iff, missing?_isSome_iff,
      or_iff_right fun none => some (List.isEmpty_iff.mpr none)]

theorem inconsistency?_reread (s : Snapshot) : s.reread.inconsistency? = s.inconsistency? := by
  have missing : s.reread.missing? = s.missing? := by
    rw [missing?, missing?, reread, List.findSome?_map]
    rfl
  rw [inconsistency?, missing, inconsistency?]
  rfl

/-- **The last entry for a cell counts.** -/
theorem getElem?_ofList (cells : List (CellId × Cell)) (id : CellId) :
    (Std.ExtTreeMap.ofList cells : CellMap Cell)[id]? = cells.reverse.lookup id := by
  induction cells using List.reverseRecOn with
  | nil => rw [Std.ExtTreeMap.ofList_nil]; exact Std.ExtTreeMap.getElem?_empty
  | append_singleton cells entry ih =>
    obtain ⟨x, c⟩ := entry
    rw [Std.ExtTreeMap.ofList_eq_insertMany_empty, Std.ExtTreeMap.insertMany_append,
      ← Std.ExtTreeMap.ofList_eq_insertMany_empty, Std.ExtTreeMap.insertMany_list_singleton,
      Std.ExtTreeMap.getElem?_insert, ih, List.reverse_append, List.reverse_singleton,
      List.singleton_append, List.lookup_cons]
    simp only [Std.LawfulEqCmp.compare_eq_iff_eq, eq_comm (a := x), beq_eq_decide]
    split <;> simp_all

end Snapshot

namespace Grid

variable {g : Grid} {counted : Prop}

/-! ### Loading -/

theorem ofSnapshot_error_iff (options : Options) (s : Snapshot) :
    (∃ cause, ofSnapshot options s = .error cause) ↔ s.inconsistency?.isSome = true := by
  rw [ofSnapshot]
  cases s.inconsistency? with
  | none => simp
  | some cause => simp

theorem eq_of_ofSnapshot {options : Options} {s : Snapshot} (ok : ofSnapshot options s = .ok g) :
    g = { sheets := s.sheets, cells := .ofList s.cells, options } := by
  rw [ofSnapshot] at ok
  split at ok
  · cases ok
  · exact (Except.ok.inj ok).symm

/-! ### Saving and loading -/

theorem ofList_toList (cells : CellMap Cell) : (.ofList cells.toList : CellMap Cell) = cells := by
  refine Std.ExtTreeMap.ext_getElem? fun id => ?_
  cases stored : cells[id]? with
  | some c =>
    exact Std.ExtTreeMap.getElem?_ofList_of_mem Std.ReflCmp.compare_self
      Std.ExtTreeMap.distinct_keys_toList
      (Std.ExtTreeMap.mem_toList_iff_getElem?_eq_some.mpr stored)
  | none =>
    refine Std.ExtTreeMap.getElem?_ofList_of_contains_eq_false ?_
    rw [Std.ExtTreeMap.map_fst_toList_eq_keys, ← Bool.not_eq_true, List.contains_iff_mem,
      Std.ExtTreeMap.mem_keys, Std.ExtTreeMap.mem_iff_isSome_getElem?, stored]
    exact Bool.false_ne_true

/-- Everything that a stored cell mentions lies on a sheet that reaches it. -/
theorem Anchored.hasIf_of_mentioned (h : g.Anchored counted) {x : CellId} {c : Cell}
    (mem : (x, c) ∈ g.cells.toList) {id : CellId}
    (mentioned : id = x ∨ id ∈ c.precedents ∨ id ∈ c.readers) : g.HasIf counted id := by
  have found : g.cells[x]? = some c := Std.ExtTreeMap.mem_toList_iff_getElem?_eq_some.mp mem
  have stored : x ∈ g.cells := by
    rw [Std.ExtTreeMap.mem_iff_isSome_getElem?, found]
    rfl
  obtain rfl := cell_of_getElem? found
  rcases mentioned with rfl | precedent | reader
  · exact h.stored _ stored
  · exact h.stored _ (h.regular.wired.mem_cells_of_precedent precedent)
  · exact h.hasIf_of_reader reader

/-- There is nothing wrong with the snapshot of a grid in which nothing dangles. -/
theorem Anchored.consistent (h : g.Anchored counted) : g.snapshot.inconsistency? = none := by
  rw [← Option.not_isSome_iff_eq_none, Snapshot.inconsistency?_isSome_iff]
  rintro (none | used | ⟨x, c, mem, id, mentioned, beyond⟩)
  · exact h.sheets none
  · exact used h.regular.names.nodup
  · obtain ⟨⟨s, found, -⟩, -⟩ := h.hasIf_of_mentioned mem mentioned
    exact absurd (List.getElem?_eq_some_iff.mp found).1 (Nat.not_lt.mpr beyond)

/-- **A grid in which nothing dangles is loaded from its own snapshot.** -/
theorem ofSnapshot_snapshot (h : g.Anchored counted) :
    ofSnapshot g.options g.snapshot = .ok { g with dirty := ∅, waiting := [] } := by
  rw [ofSnapshot, h.consistent]
  simp only [snapshot, ofList_toList]

/-- There are no more sheets than 64 bits can count, and the size of each fits 64 bits. -/
def Fits (g : Grid) : Prop := g.sheets.length ≤ UInt64.size ∧ ∀ s ∈ g.sheets, s.Fits

instance : Decidable g.Fits :=
  inferInstanceAs (Decidable (g.sheets.length ≤ UInt64.size ∧
    ∀ s ∈ g.sheets, s.rows < UInt64.size ∧ s.cols < UInt64.size))

theorem HasIf.fits {x : CellId} (h : g.HasIf counted x) (fits : g.Fits) : x.Fits := by
  obtain ⟨⟨s, found, inside⟩, -⟩ := h
  obtain ⟨rows, cols⟩ := fits.2 s (List.mem_of_getElem? found)
  have sheet := (List.getElem?_eq_some_iff.mp found).1
  exact ⟨sheet.trans_le fits.1, inside.1.trans_lt rows, inside.2.trans_lt cols⟩

theorem Anchored.fits_snapshot (h : g.Anchored counted) (fits : g.Fits) : g.snapshot.Fits where
  sheets := fits.2
  cells _ mem := ⟨(h.hasIf_of_mentioned mem (.inl rfl)).fits fits,
    fun _ edge => (h.hasIf_of_mentioned mem (.inr (.inl edge))).fits fits,
    fun _ edge => (h.hasIf_of_mentioned mem (.inr (.inr edge))).fits fits⟩

/-- The grid without the signs of what is not a number. -/
def reread (g : Grid) : Grid := { g with cells := g.cells.map fun _ c => c.reread }

/-- **A grid keeps its values** if there is no such sign in it. -/
theorem reread_eq_iff (g : Grid) :
    g.reread = g ↔ ∀ entry ∈ g.snapshot.cells, entry.2.value ≠ .number .minusNaN := by
  have cells : g.reread = g ↔ g.reread.cells = g.cells :=
    ⟨fun same => by rw [same], fun same => congrArg (fun cells => { g with cells }) same⟩
  rw [cells, Std.ExtTreeMap.ext_getElem?_iff]
  simp only [snapshot, Prod.forall, Std.ExtTreeMap.mem_toList_iff_getElem?_eq_some, reread,
    Std.ExtTreeMap.getElem?_map, ← Cell.reread_eq_iff]
  refine forall_congr' fun id => ?_
  cases g.cells[id]? with
  | none => simp
  | some c => simp

/-- **A grid in which nothing dangles is loaded from its own text.** -/
theorem ofText_text (h : g.Anchored counted) (fits : g.Fits) {library : Json.Library}
    {numeral : Numeral → Numeral} (back : library.RoundTrips numeral) :
    ofText g.options (g.text library) library = .ok { g.reread with dirty := ∅, waiting := [] } := by
  have read := Snapshot.bind_ofText?_text back (h.fits_snapshot fits)
  have cells : (.ofList g.snapshot.reread.cells : CellMap Cell) = g.reread.cells := by
    show (.ofList (g.cells.toList.map fun entry => (entry.1, entry.2.reread)) : CellMap Cell) = _
    rw [← ofList_toList g.reread.cells, reread, Std.ExtTreeMap.toList_map]
  rw [ofText, text, read]
  show (ofSnapshot g.options g.snapshot.reread).mapError _ = _
  rw [ofSnapshot, Snapshot.inconsistency?_reread, h.consistent, cells]
  rfl

theorem ofNames_eq_nameTable (options : Options) (history : List Action) :
    NameTable.ofNames ((ofHistory options history).sheets.map Sheet.name) =
      nameTable options history := by
  have names := (regular_ofHistory options history).names
  refine Std.ExtTreeMap.ext_getElem? fun name => Option.ext fun i => ?_
  rw [lists_ofNames names.nodup name i, lists_nameTable options history name i]

/-- **A grid is the same again after it was saved**, but for the sign of what is not a number.  For every
grid that has a history, the snapshot becomes a grid again: with the same sheets, table of names and
cells, values and edges included, and with nothing left to do.  Its text becomes the same grid without the
signs of what is not a number, with any library that reads what it wrote, if the sizes of the sheets fit
64 bits; so this is the grid itself if and only if no stored value has such a sign.  And whatever a
snapshot says, it is refused exactly if it has no sheets, two sheets of one name, or a cell or an end of an
edge on a sheet that is not there; otherwise the last entry for a cell counts. -/
theorem ofSnapshot_ofText_ofHistory (options : Options) (history : List Action) (s : Snapshot) :
    let g := ofHistory options history
    let g' : Grid := { g with dirty := ∅, waiting := [] }
    (ofSnapshot g.options g.snapshot = .ok g' ∧
      NameTable.ofNames (g'.sheets.map Sheet.name) = nameTable options history ∧
      ∀ (library : Json.Library) (numeral : Numeral → Numeral), library.RoundTrips numeral →
        g.Fits → ofText g.options (g.text library) library = .ok g'.reread ∧
          (g'.reread = g' ↔ ∀ entry ∈ g.snapshot.cells, entry.2.value ≠ .number .minusNaN)) ∧
    ((∃ cause, ofSnapshot options s = .error cause) ↔
      s.sheets = [] ∨ ¬ (s.sheets.map Sheet.name).Nodup ∨
        ∃ x c, (x, c) ∈ s.cells ∧ ∃ id, (id = x ∨ id ∈ c.precedents ∨ id ∈ c.readers) ∧
          s.sheets.length ≤ id.sheet) ∧
    ∀ g, ofSnapshot options s = .ok g →
      g.sheets = s.sheets ∧ g.options = options ∧ g.dirty = ∅ ∧ g.waiting = [] ∧
        ∀ id, g.cells[id]? = s.cells.reverse.lookup id := by
  intro g g'
  refine ⟨⟨?_, ofNames_eq_nameTable options history, fun _ _ back fits => ⟨?_, reread_eq_iff g'⟩⟩, ?_,
    fun g ok => ?_⟩
  · exact ofSnapshot_snapshot (anchored_ofHistory options history)
  · exact ofText_text (anchored_ofHistory options history) fits back
  · rw [ofSnapshot_error_iff, Snapshot.inconsistency?_isSome_iff]
  · rw [eq_of_ofSnapshot ok]
    exact ⟨rfl, rfl, rfl, rfl, Snapshot.getElem?_ofList s.cells⟩

/-- An infinite quotient, which comes back, and a snapshot with two entries for one cell. -/
theorem ofSnapshot_ofText_ofHistory_quotient :
    let g := ofHistory {} [.edit {} (.set ⟨0, 1, 1⟩ "=-1/A2")]
    let s : Snapshot :=
      ⟨[⟨"Sheet1", 1, 1⟩], [(⟨0, 1, 1⟩, .ofFormula "1"), (⟨0, 1, 1⟩, .ofFormula "2")]⟩
    g.display ⟨0, 1, 1⟩ = "-Inf" ∧ g.Fits ∧
      ofText g.options g.text = .ok { g with dirty := ∅, waiting := [] } ∧
      ∃ loaded, ofSnapshot {} s = .ok loaded ∧
        loaded.cells[(⟨0, 1, 1⟩ : CellId)]? = some (.ofFormula "2") := by
  intro g s
  have shown : g.display ⟨0, 1, 1⟩ = "-Inf" := by decide +kernel
  have fits : g.Fits := by decide +kernel
  have signs : ∀ entry ∈ g.snapshot.cells, entry.2.value ≠ .number .minusNaN := by decide +kernel
  obtain ⟨⟨-, -, text⟩, -, entries⟩ := ofSnapshot_ofText_ofHistory {} _ s
  obtain ⟨loaded, same⟩ := text _ _ Json.roundTrips fits
  refine ⟨shown, fits, loaded.trans (congrArg _ (same.mpr signs)), _, rfl, ?_⟩
  exact (entries _ rfl).2.2.2.2 ⟨0, 1, 1⟩

/-- **A text loses the sign of what is not a number**, and with it the place of this value in the order:
the grid has it before the number 1, and the grid that is loaded behind it. -/
theorem not_sameOrder_of_text :
    let g := ofHistory {} [.edit {} (.set ⟨0, 1, 1⟩ "=NUMBER(\"-nan\")"), .edit {} (.set ⟨0, 2, 1⟩ "1")]
    let order := fun (g : Grid) =>
      (Term.ofValue (g.value ⟨0, 1, 1⟩)).sortOrder (Term.ofValue (g.value ⟨0, 2, 1⟩))
    ∃ loaded, ofText g.options g.text = .ok loaded ∧
      g.value ⟨0, 1, 1⟩ = .number .minusNaN ∧ loaded.value ⟨0, 1, 1⟩ ≠ .number .minusNaN ∧
      order g = .lt ∧ order loaded = .gt := by
  intro g order
  refine ⟨_, ofText_text (anchored_ofHistory {} _) (by decide +kernel) Json.roundTrips, ?_⟩
  decide +kernel

end Grid

end Spreadsheet
