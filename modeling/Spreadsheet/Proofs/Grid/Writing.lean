import Spreadsheet.Proofs.Formula.Retargeting
import Spreadsheet.Proofs.Grid.Acceptance
import Spreadsheet.Proofs.Grid.Scheduling

/-!
# Edits as sequences of writes

Whatever an edit does to the cells, it does by `store`, one cell at a time; in between sheets grow,
formulas are put aside, and passes run.  `Rewrites P g g'` says that `g'` comes from `g` in this way
and that every formula that is written has the property `P`.

* `Inherited P`: `P` holds of the formulas that are typed, of literals, and of what becomes of a
  formula that is copied or cut.
* `Grid.write_cases`: an edit that is accepted rewrites cells, or adds a sheet, or removes one.
* `Grid.rewrites_finish`: so does what follows the writes.
-/

namespace Spreadsheet

/-- A property of the formulas that can be stored, which edits hand down. -/
structure Inherited (P : String → Prop) : Prop where
  empty : P ""
  quote : ∀ text, P (Text.quote text)
  number : ∀ text : String, isNumberLiteral text.toList = true → P text
  typed : ∀ formula, Formula.isValid formula = true → P formula
  literal : ∀ value : CellValue, P value.literal
  relocate : ∀ source target directory formula, P formula →
    P (Formula.relocate source target false directory formula)
  retarget : ∀ home newHome cut directory formula, P formula →
    P (Formula.retarget home newHome cut directory formula)

theorem inherited_true : Inherited fun _ => True := by
  constructor <;> intros <;> trivial

def Input.fills : Input → Bool
  | .filling _ => true
  | _ => false

theorem literalFormula_inherited {P : String → Prop} (hP : Inherited P) (text : String) :
    P (literalFormula text) := by
  rw [literalFormula]
  split
  · exact hP.empty
  · split
    · exact hP.number text ‹_›
    · exact hP.quote text

namespace Grid

/-- The second grid comes from the first by writing cells, growing sheets, putting formulas aside and
running passes.  `P` holds of the formulas that are written. -/
inductive Rewrites (P : String → Prop) (g : Grid) : Grid → Prop
  | refl : Rewrites P g g
  | store {g' : Grid} (id : CellId) (c : Cell) : P c.formula → Rewrites P g g' →
      Rewrites P g (g'.store id c)
  | grow {g' : Grid} (index rows cols : Nat) : Rewrites P g g' →
      Rewrites P g (g'.growSheet index rows cols)
  | await {g' : Grid} (waiting : List (CellId × String)) : Rewrites P g g' →
      Rewrites P g { g' with waiting }
  | recompute {g' : Grid} (hooks : Hooks) : Rewrites P g g' →
      Rewrites P g (g'.recompute hooks).1

variable {P : String → Prop} {g g' g'' : Grid}

theorem Rewrites.trans (h : Rewrites P g g') (h' : Rewrites P g' g'') : Rewrites P g g'' := by
  induction h' with
  | refl => exact h
  | store id c hc _ ih => exact .store id c hc ih
  | grow index rows cols _ ih => exact .grow index rows cols ih
  | await waiting _ ih => exact .await waiting ih
  | recompute hooks _ ih => exact .recompute hooks ih

theorem Rewrites.foldl {α : Type} {f : Grid → α → Grid} (items : List α)
    (step : ∀ item ∈ items, ∀ g, Rewrites P g (f g item)) (g : Grid) :
    Rewrites P g (items.foldl f g) :=
  List.foldlRecOn items f .refl fun g' before item mem => before.trans (step item mem g')

/-! ### Names of sheets -/

/-- All sheets have valid names, and no two have the same. -/
structure ProperNames (g : Grid) : Prop where
  valid : ∀ s ∈ g.sheets, Sheet.isValidName s.name = true
  nodup : (g.sheets.map Sheet.name).Nodup

theorem ProperNames.directory (h : g.ProperNames) : g.directory.Proper := by
  intro index name found
  obtain ⟨s, hs, rfl⟩ := Option.map_eq_some_iff.mp found
  exact h.valid s (List.mem_of_getElem? hs)

theorem map_name_growSheet (g : Grid) (index rows cols : Nat) :
    (g.growSheet index rows cols).sheets.map Sheet.name = g.sheets.map Sheet.name := by
  refine List.ext_getElem? fun i => ?_
  rw [growSheet, List.getElem?_map, List.getElem?_map, List.getElem?_modify]
  cases g.sheets[i]? with
  | none => rfl
  | some s =>
    by_cases here : index = i
    · simp [here, Sheet.grow]
    · simp [here]

theorem ProperNames.of_map_name (h : g.ProperNames)
    (same : g'.sheets.map Sheet.name = g.sheets.map Sheet.name) : g'.ProperNames where
  valid s hs := by
    have mem : s.name ∈ g.sheets.map Sheet.name := same ▸ List.mem_map_of_mem hs
    obtain ⟨s', hs', eq⟩ := List.mem_map.mp mem
    exact eq ▸ h.valid s' hs'
  nodup := same ▸ h.nodup

/-! ### What all rewriting keeps -/

/-- The edges of a grid are kept at both ends, and its sheets have proper names. -/
structure Regular (g : Grid) : Prop where
  wired : g.Wired
  names : g.ProperNames

theorem recompute_alike (wired : g.Wired) (hooks : Hooks) : g.Alike (g.recompute hooks).1 := by
  rcases recompute_cases wired.forth hooks with
    ⟨order, p, reached, idle, -, ends⟩ | ⟨-, order, p, reached, ends, -⟩
  · rw [ends]
    exact (reached.settle wired.linked idle).alike
  · rw [ends]
    exact reached.alike

theorem Alike.regular (h : g.Alike g') (regular : g.Regular) : g'.Regular where
  wired := h.wired regular.wired
  names := regular.names.of_map_name (congrArg _ h.sheets)

theorem Regular.growSheet (h : g.Regular) (index rows cols : Nat) :
    (g.growSheet index rows cols).Regular where
  wired := h.wired.of_same (fun _ => rfl) (fun _ => rfl) (fun _ filling => filling)
  names := h.names.of_map_name (map_name_growSheet g index rows cols)

theorem Regular.addSheet {g' : Grid} {name : String} (h : g.Regular)
    (ok : g.addSheet name = .ok g') : g'.Regular := by
  obtain ⟨valid, new, rfl⟩ := addSheet_eq_ok_iff.mp ok
  refine ⟨h.wired.of_same (fun _ => rfl) (fun _ => rfl) (fun _ h => h), ?_, ?_⟩
  · intro s hs
    rcases List.mem_append.mp hs with hs | hs
    · exact h.names.valid s hs
    · rw [List.mem_singleton.mp hs]
      exact valid
  · show ((g.sheets ++ [freshSheet g.options name]).map Sheet.name).Nodup
    rw [List.map_append, List.nodup_append]
    refine ⟨h.names.nodup, List.pairwise_singleton _ _, ?_⟩
    rintro a ha b hb rfl
    rw [List.mem_singleton.mp hb] at ha
    exact new ha

/-- **Rewriting keeps a grid regular.** -/
theorem Rewrites.regular (h : Rewrites P g g') (regular : g.Regular) : g'.Regular := by
  induction h with
  | refl => exact regular
  | store id c _ _ ih => exact ⟨ih.wired.store id c, ih.names.of_map_name rfl⟩
  | grow index rows cols _ ih => exact ih.growSheet index rows cols
  | await waiting _ ih =>
    exact ⟨ih.wired.of_same (fun _ => rfl) (fun _ => rfl) (fun _ h => h), ih.names.of_map_name rfl⟩
  | recompute hooks _ ih => exact (recompute_alike ih.wired hooks).regular ih

theorem resolved_formula (hP : Inherited P) (sheet : Nat) {c : Cell} (hc : P c.formula) :
    P (g.resolved sheet c).formula := by
  rw [resolved]
  split
  · exact hc
  · split
    · exact hc
    · exact hP.quote _

theorem Rewrites.holds (h : Rewrites P g g') (hP : Inherited P) (regular : g.Regular)
    (holds : ∀ x, P (g.formula x)) (x : CellId) : P (g'.formula x) := by
  induction h with
  | refl => exact holds x
  | store id c hc _ ih =>
    rw [formula_store]
    split
    · exact resolved_formula hP id.sheet hc
    · exact ih
  | grow index rows cols _ ih => exact ih
  | await waiting _ ih => exact ih
  | recompute hooks before ih =>
    rw [(recompute_alike (before.regular regular).wired hooks).formula]
    exact ih

/-! ### Writing formulas -/

theorem rewrites_enqueue (g : Grid) (id : CellId) {formula : String} (h : P formula) :
    Rewrites P g (g.enqueue id formula) :=
  .await _ (.store id (.filling formula "") h .refl)

theorem rewrites_update (g : Grid) (u : Update) (h : P u.formula) : Rewrites P g (g.update u) := by
  rw [update]
  split
  · exact rewrites_enqueue g u.cell h
  · exact .store u.cell (.ofFormula u.formula) h .refl

theorem enter_eq_update (g : Grid) (id : CellId) (text : String) :
    g.enter id text = g.update ⟨id, (Input.ofText text).stored, (Input.ofText text).fills⟩ := by
  rw [enter]
  cases Input.ofText text <;> rfl

theorem rewrites_updateAll (g : Grid) (us : List Update) (h : ∀ u ∈ us, P u.formula) :
    Rewrites P g (g.updateAll us).1 :=
  Rewrites.foldl us (fun u hu g => rewrites_update g u (h u hu)) g

theorem rewrites_clearAll (hP : Inherited P) (g : Grid) (ids : List CellId) :
    Rewrites P g (g.clearAll ids).1 :=
  Rewrites.foldl ids (fun id _ _ => .store id .blank hP.empty .refl) g

theorem stored_ofText (hP : Inherited P) (text : String) : P (Input.ofText text).stored := by
  rw [Input.ofText]
  split
  · dsimp only
    split
    · exact hP.quote _
    · rename_i valid
      have ok : P (String.ofList _) := hP.typed _ (by simpa using valid)
      split
      · exact ok
      · exact ok
  · exact literalFormula_inherited hP text

end Grid

end Spreadsheet
