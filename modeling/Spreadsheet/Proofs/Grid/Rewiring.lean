import Spreadsheet.Proofs.Grid.Batches
import Spreadsheet.Proofs.Grid.History

/-!
# What one write changes

A write takes its cell out of the readers of what it used to read, stores it, and enters it with the
readers of what it reads now.  The two sets of cells may overlap, contain the cell itself, or contain
cells that are not stored.

* `Formula.FirstMissing`: the reference for which a formula is replaced.
* `Grid.Sources`: the cells that a cell is to read when it is written.
* `Grid.Rewires`: what a write changes and what it leaves alone, for the whole grid.
* `Grid.Wired.rewires`: on a wired grid a write does just that.
* `Grid.store_store`: writing the same cell again changes nothing at all.
* `Grid.rewires_ofHistory`: both hold in every grid that has a history.
-/

namespace Spreadsheet

open Relation

/-! ### The first reference that leads nowhere -/

namespace Formula

def FirstMissing (home : Nat) (directory : Directory) (formula text : String) : Prop :=
  ∃ front m back, mentions formula = front ++ (m, text.toList) :: back ∧
    m.cells? home directory = none ∧ ∀ n ∈ front, (n.1.cells? home directory).isSome

theorem exists_first_of_foldlM_error {home : Nat} {directory : Directory}
    {ms : List (Mention × List Char)} {start : CellSet} {text : String}
    (error : ms.foldlM (fun cells (m, text) =>
      match m.cells? home directory with
      | some more => Except.ok (cells.insertMany more)
      | none => .error (String.ofList text)) start = .error text) :
    ∃ front m back, ms = front ++ (m, text.toList) :: back ∧
      m.cells? home directory = none ∧ ∀ n ∈ front, (n.1.cells? home directory).isSome := by
  induction ms generalizing start with
  | nil => cases error
  | cons head ms ih =>
    obtain ⟨m, chars⟩ := head
    rw [List.foldlM_cons] at error
    cases found : m.cells? home directory with
    | none =>
      simp only [found, bind, Except.bind, Except.error.injEq] at error
      subst error
      exact ⟨[], m, ms, by simp, found, nofun⟩
    | some more =>
      simp only [found, bind, Except.bind] at error
      obtain ⟨front, n, back, rfl, missing, before⟩ := ih error
      refine ⟨(m, chars) :: front, n, back, rfl, missing, ?_⟩
      rintro p (_ | ⟨_, mem⟩)
      · simp [found]
      · exact before p mem

theorem firstMissing_of_error {home : Nat} {directory : Directory} {formula text : String}
    (error : reads home directory formula = .error text) :
    FirstMissing home directory formula text :=
  exists_first_of_foldlM_error error

theorem grounded_of_reads {home : Nat} {directory : Directory} {formula : String} {cells : CellSet}
    (ok : reads home directory formula = .ok cells) : Grounded home directory formula := by
  intro m mem
  have named := cells?_isSome_of_reads ok m mem
  rw [Mention.cells?_eq] at named
  cases found : m.1.sheet? home directory with
  | none => simp [found] at named
  | some sheet =>
    refine ⟨sheet, rfl, ?_⟩
    by_contra outside
    simp [found, outside] at named

theorem FirstMissing.not_grounded {home : Nat} {directory : Directory} {formula text : String}
    (missing : FirstMissing home directory formula text) : ¬ Grounded home directory formula := by
  intro grounded
  obtain ⟨front, m, back, split, none, -⟩ := missing
  obtain ⟨cells, ok⟩ := grounded.exists_reads
  have named := cells?_isSome_of_reads ok (m, text.toList) (by simp [split])
  rw [none] at named
  cases named

end Formula

namespace Grid

variable {g : Grid} {id : CellId} {c : Cell}

/-- The cells that a cell is to read when it is written: those of its formula, but none if the formula
fills other cells or one of its references leads nowhere. -/
def Sources (g : Grid) (sheet : Nat) (c : Cell) (x : CellId) : Prop :=
  c.isFilling = false ∧ Formula.Grounded sheet g.directory c.formula ∧
    Formula.Reads sheet g.directory c.formula x

theorem mem_resolved_iff_sources (g : Grid) (sheet : Nat) (c : Cell) (x : CellId) :
    x ∈ (g.resolved sheet c).precedents ↔ g.Sources sheet c x := by
  rw [resolved]
  by_cases filling : c.isFilling = true
  · rw [if_pos filling]
    refine ⟨fun mem => absurd mem Std.ExtTreeSet.not_mem_empty, ?_⟩
    rintro ⟨free, -⟩
    cases filling.symm.trans free
  · rw [if_neg filling]
    cases ok : Formula.reads sheet g.directory c.formula with
    | ok precedents =>
      refine (Formula.mem_reads_iff ok x).trans ⟨fun reads => ?_, fun sources => sources.2.2⟩
      exact ⟨Bool.eq_false_iff.mpr filling, Formula.grounded_of_reads ok, reads⟩
    | error text =>
      refine ⟨fun mem => absurd mem Std.ExtTreeSet.not_mem_empty, ?_⟩
      rintro ⟨-, grounded, -⟩
      exact absurd grounded (Formula.firstMissing_of_error ok).not_grounded

/-- The second grid comes from the first by writing a cell: what is changed, and what is not. -/
structure Rewires (g : Grid) (id : CellId) (c : Cell) (g' : Grid) : Prop where
  /-- The cell has the formula and the value that are written, or the text that names the first
  reference that leads nowhere. -/
  contents :
    (c.isFilling = true ∨ Formula.Grounded id.sheet g.directory c.formula) ∧
        g'.formula id = c.formula ∧ g'.value id = c.value ∨
      c.isFilling = false ∧ ∃ text, Formula.FirstMissing id.sheet g.directory c.formula text ∧
        g'.formula id = Text.quote ("#REF: " ++ text) ∧
        g'.value id = .pending (Text.quote ("#REF: " ++ text))
  /-- The cell reads its sources. -/
  precedents : ∀ x, x ∈ (g'.cell id).precedents ↔ g.Sources id.sheet c x
  /-- Every other cell keeps its formula, its value and what it reads. -/
  others : ∀ x, x ≠ id → g'.formula x = g.formula x ∧ g'.value x = g.value x ∧
    (g'.cell x).precedents = (g.cell x).precedents
  /-- Every cell, the written one too, keeps its other readers. -/
  readers : ∀ x y, y ≠ id → (y ∈ (g'.cell x).readers ↔ y ∈ (g.cell x).readers)
  /-- The written cell is a reader of its sources and of no other cell, -/
  reader : ∀ x, x ≠ id → (id ∈ (g'.cell x).readers ↔ g.Sources id.sheet c x)
  /-- except that it stays a reader of itself. -/
  stale : id ∈ (g'.cell id).readers ↔ g.Sources id.sheet c id ∨ id ∈ (g.cell id).readers
  /-- The cell and its sources are stored now, and no other cell comes to be stored. -/
  stored : ∀ x, x ∈ g'.cells ↔ x = id ∨ x ∈ g.cells ∨ g.Sources id.sheet c x
  /-- A source that was not stored is blank, with the written cell as its one reader. -/
  blank : ∀ x, x ≠ id → x ∉ g.cells → g.Sources id.sheet c x →
    g'.cells[x]? = some { Cell.blank with readers := (∅ : CellSet).insert id }
  /-- The cell is dirty now, and so is what can be reached from it over the new edges. -/
  dirty : ∀ x, x ∈ g'.dirty ↔ x ∈ g.dirty ∨ ReflTransGen (ReadBy g'.cells) id x
  sheets : g'.sheets = g.sheets
  options : g'.options = g.options
  waiting : g'.waiting = g.waiting

theorem resolved_contents (g : Grid) (sheet : Nat) (c : Cell) :
    (c.isFilling = true ∨ Formula.Grounded sheet g.directory c.formula) ∧
        (g.resolved sheet c).formula = c.formula ∧ (g.resolved sheet c).value = c.value ∨
      c.isFilling = false ∧ ∃ text, Formula.FirstMissing sheet g.directory c.formula text ∧
        (g.resolved sheet c).formula = Text.quote ("#REF: " ++ text) ∧
        (g.resolved sheet c).value = .pending (Text.quote ("#REF: " ++ text)) := by
  rw [resolved]
  by_cases filling : c.isFilling = true
  · rw [if_pos filling]
    exact Or.inl ⟨Or.inl filling, rfl, rfl⟩
  · rw [if_neg filling]
    cases ok : Formula.reads sheet g.directory c.formula with
    | ok precedents => exact Or.inl ⟨Or.inr (Formula.grounded_of_reads ok), rfl, rfl⟩
    | error text =>
      have missing := Formula.firstMissing_of_error ok
      exact Or.inr ⟨Bool.eq_false_iff.mpr filling, text, missing, rfl, rfl⟩

theorem getElem?_store_of_source {x : CellId} (other : x ≠ id) (missing : x ∉ g.cells)
    (unread : x ∉ (g.cell id).precedents) (source : x ∈ (g.resolved id.sheet c).precedents) :
    (g.store id c).cells[x]? = some { Cell.blank with readers := (∅ : CellSet).insert id } := by
  have mem : x ∈ (g.store id c).cells := (mem_cells_store g id c x).mpr (Or.inr (Or.inr source))
  rw [Std.ExtTreeMap.mem_iff_isSome_getElem?] at mem
  obtain ⟨d, found⟩ := Option.isSome_iff_exists.mp mem
  rw [found, ← cell_of_getElem? found, cell_store]
  dsimp only
  rw [if_pos source, if_neg other, if_neg unread, cell_of_not_mem missing]
  rfl

/-- **A write is local.**  On a wired grid it changes its own cell and its own edges, and nothing else. -/
theorem Wired.rewires (wired : g.Wired) (id : CellId) (c : Cell) : g.Rewires id c (g.store id c) where
  contents := by
    rw [formula_store, value_store, if_pos rfl, if_pos rfl]
    exact resolved_contents g id.sheet c
  precedents x := by
    rw [precedents_store, if_pos rfl]
    exact mem_resolved_iff_sources g id.sheet c x
  others x other := by
    rw [formula_store, value_store, precedents_store, if_neg other, if_neg other, if_neg other]
    exact ⟨rfl, rfl, rfl⟩
  readers x y other := by
    rw [mem_readers_store]
    constructor
    · rintro (⟨same, -⟩ | ⟨reader, -⟩)
      · exact absurd same other
      · exact reader
    · exact fun reader => Or.inr ⟨reader, Or.inr (Or.inl other)⟩
  reader x other := by
    rw [mem_readers_store, mem_resolved_iff_sources]
    constructor
    · rintro (⟨-, source⟩ | ⟨reader, same | differ | unread⟩)
      · exact source
      · exact absurd same other
      · exact absurd rfl differ
      · exact absurd (wired.back x id other reader) unread
    · exact fun source => Or.inl ⟨rfl, source⟩
  stale := by
    rw [mem_readers_store, mem_resolved_iff_sources]
    simp
  stored x := by rw [mem_cells_store, mem_resolved_iff_sources]
  blank x other missing source := by
    refine getElem?_store_of_source other missing ?_ ((mem_resolved_iff_sources g id.sheet c x).mpr source)
    exact fun read => missing (wired.mem_cells_of_precedent read)
  dirty := mem_dirty_store id c
  sheets := rfl
  options := rfl
  waiting := rfl

/-- **A write is idempotent**, whatever the edges of the grid are. -/
theorem store_store (g : Grid) (id : CellId) (c : Cell) :
    (g.store id c).store id c = g.store id c := by
  have resolves : (g.store id c).resolved id.sheet c = g.resolved id.sheet c := rfl
  have precedents : ((g.store id c).cell id).precedents = (g.resolved id.sheet c).precedents := by
    rw [precedents_store, if_pos rfl]
  have cells : ((g.store id c).store id c).cells = (g.store id c).cells := by
    refine cells_eq_of_cell_eq (fun x => ?_) (fun x => Cell.eq_of_bare ?_ fun y => ?_)
    · rw [mem_cells_store (g.store id c), mem_cells_store g, resolves]
      tauto
    · rw [bare_store, bare_store, resolves]
      by_cases same : x = id
      · rw [if_pos same, if_pos same]
      · rw [if_neg same, if_neg same]
    · -- The cell is taken out only where it is entered again.
      rw [mem_readers_store (g.store id c), resolves, precedents, mem_readers_store g]
      tauto
  refine eq_of_fields rfl cells (Std.ExtTreeSet.ext_mem fun {x} => ?_) rfl rfl
  rw [mem_dirty_store, cells, mem_dirty_store id c (g := g), or_assoc, or_self]

/-- **Rewiring is local and idempotent**: in every grid that has a history, a write changes its own cell
and its own edges only, and the same write once more changes nothing. -/
theorem rewires_ofHistory (options : Options) (history : List Action) (id : CellId) (c : Cell) :
    (ofHistory options history).Rewires id c ((ofHistory options history).store id c) ∧
      ((ofHistory options history).store id c).store id c = (ofHistory options history).store id c :=
  ⟨(regular_ofHistory options history).wired.rewires id c, store_store _ id c⟩

end Grid

end Spreadsheet
