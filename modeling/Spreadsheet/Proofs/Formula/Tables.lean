import Spreadsheet.Proofs.Formula.Block
import Spreadsheet.Proofs.Formula.Dependence
import Spreadsheet.Proofs.Formula.Filling
import Spreadsheet.Proofs.Grid.Acceptance
import Spreadsheet.Proofs.Grid.Valuation
import Spreadsheet.Proofs.Regression.Dimensions

/-!
# Tables in formulas

A range of a formula is a table when it is evaluated.  Nothing else makes tables, and calls only hand
them on.  So the ranges that are written in a formula say how much it can fill.

* `Regression.dimensions_of_ofArguments`: the dimensions of a regression by the arguments of its call.
* `Function.mem_of_apply_eq_range`: a call gives a table only if it has got it.
* `Expr.isTable_of_eval`: a table is a range of the expression.
* `NamesFew.dimensions`: the regressions of a formula are small if it names few references with few
  cells.
-/

namespace Spreadsheet

namespace Regression

theorem seriesOf_eq_ok {t : Term} {series : List Float} (ok : seriesOf t = .ok series) :
    ∃ b, t = .range b ∧ series.length = b.values.length := by
  cases t with
  | range b =>
    cases ok
    exact ⟨b, rfl, List.length_map _⟩
  | number _ | text _ | bool _ => cases ok

theorem mapM_seriesOf_eq_ok {ts : List Term} {series : List (List Float)}
    (ok : ts.mapM seriesOf = .ok series) :
    (∀ t ∈ ts, ∃ b, t = .range b) ∧ series.length = ts.length := by
  induction ts generalizing series with
  | nil =>
    cases ok
    exact ⟨nofun, rfl⟩
  | cons t ts ih =>
    rw [List.mapM_cons] at ok
    obtain ⟨s, first, ok⟩ := ok_of_bind ok
    obtain ⟨others, rest, ok⟩ := ok_of_bind ok
    cases ok
    obtain ⟨b, rfl, -⟩ := seriesOf_eq_ok first
    obtain ⟨ranges, length⟩ := ih rest
    exact ⟨List.forall_mem_cons.mpr ⟨⟨b, rfl⟩, ranges⟩, congrArg Nat.succ length⟩

/-- **The dimensions of a regression.**  All arguments of its call are ranges, it has as many fitted
values as the first one has members, and as many coefficients as there are arguments. -/
theorem dimensions_of_ofArguments {arguments : List Term} {r : Regression}
    (ok : ofArguments arguments = .ok r) :
    (∀ t ∈ arguments, ∃ b, t = .range b) ∧ r.coefficients.length = arguments.length ∧
      ∃ b, .range b ∈ arguments ∧ r.fitted.length = b.values.length := by
  match arguments with
  | [] | [_] => cases ok
  | y :: x :: xs =>
    obtain ⟨ys, first, ok⟩ := ok_of_bind ok
    obtain ⟨series, rest, ok⟩ := ok_of_bind ok
    have fitted : fit ys series = r := by
      split at ok
      · cases ok
      · exact Except.ok.inj ok
    subst fitted
    obtain ⟨b, rfl, length⟩ := seriesOf_eq_ok first
    obtain ⟨ranges, count⟩ := mapM_seriesOf_eq_ok rest
    refine ⟨List.forall_mem_cons.mpr ⟨⟨b, rfl⟩, ranges⟩, ?_, b, List.mem_cons_self, ?_⟩
    · rw [length_coefficients_fit, count]
      rfl
    · rw [length_fitted_fit, length]

end Regression

/-! ### Tables -/

def Term.IsSingle (t : Term) : Prop := ∀ b, t ≠ .range b

theorem Grid.isSingle_view_term (g : Grid) (draws : Formula.Draws) (x : CellId) :
    ((g.view draws).term x).IsSingle := by
  rw [Grid.view_term]
  cases g.value x <;> exact nofun

namespace Function

theorem isSingle_unary (complaint : String) (f : Double → Double) (arguments : List Term) :
    (unary complaint f arguments).IsSingle := by
  unfold unary
  split <;> exact nofun

theorem isSingle_constantNamed (name : String) : (constantNamed name).IsSingle := by
  rw [constantNamed]
  split
  · exact nofun
  · split <;> exact nofun

theorem isSingle_lookUp {table : Block Term} (single : ∀ t ∈ table.values, t.IsSingle)
    (needle : Term) (column : Float) : (lookUp needle table column).IsSingle := by
  rw [lookUp]
  split
  · exact nofun
  · cases found : (rowOf? table needle.toText).bind (table.get? · (column.toUInt64 - 1).toNat) with
    | none => exact nofun
    | some t =>
      obtain ⟨row, -, there⟩ := Option.bind_eq_some_iff.mp found
      rw [Block.get?, Option.ite_none_right_eq_some] at there
      exact single t (List.mem_of_getElem? there.2)

/-- **A call hands tables on.**  It gives a table only if it has got this one as an argument. -/
theorem mem_of_apply_eq_range {draw : Float} {f : Function} {arguments : List Term} {b : Block Term}
    (single : ∀ table, Term.range table ∈ arguments → ∀ t ∈ table.values, t.IsSingle)
    (h : f.apply draw arguments = .range b) : .range b ∈ arguments := by
  unfold apply at h
  cases f with
  | cond =>
    dsimp only at h
    split at h
    · rename_i condition yes no
      split at h <;> simp [h]
    · cases h
  | lookup =>
    dsimp only at h
    split at h
    · rename_i needle table column
      exact absurd h (isSingle_lookUp (single table (by simp)) needle _ b)
    · cases h
    · cases h
  | constant =>
    dsimp only at h
    split at h
    · exact absurd h (isSingle_constantNamed _ b)
    · cases h
  | length =>
    dsimp only at h
    split at h <;> cases h
  | sqrt | number | floor | ceil | abs => exact absurd h (isSingle_unary _ _ _ b)
  | sum | average | count | concatenate | random => cases h

end Function

namespace Formula

/-- The number of cells of a reference or range. -/
def Mention.size : Mention → Nat
  | cell _ => 1
  | range r => r.rowCount * r.colCount

/-- The table has the size of a leaf, and its members are single terms. -/
def IsTable (leaves : List Mention) (b : Block Term) : Prop :=
  (∀ t ∈ b.values, t.IsSingle) ∧ ∃ m ∈ leaves, b.values.length = m.size

theorem IsTable.mono {leaves more : List Mention} {b : Block Term} (h : IsTable leaves b)
    (subset : leaves ⊆ more) : IsTable more b := by
  obtain ⟨single, m, mem, size⟩ := h
  exact ⟨single, m, subset mem, size⟩

section

variable {view : CellView} {origin : CellId}

theorem isTable_of_rangeTerm (single : ∀ x, (view.term x).IsSingle) {r : WrittenRange} {b : Block Term}
    (h : rangeTerm view origin r = .range b) : IsTable [.range r] b := by
  rw [rangeTerm] at h
  split at h
  · rename_i bound resolved
    cases h
    refine ⟨fun t mem => ?_, .range r, List.mem_singleton_self _, ?_⟩
    · obtain ⟨x, -, rfl⟩ := List.mem_map.mp mem
      exact single x
    · rw [bind?_range] at resolved
      obtain ⟨sheet, -, rfl⟩ := Option.map_eq_some_iff.mp resolved
      rw [List.length_map, Range.length_cells]
      rfl
  · cases h

theorem isTable_of_callTerm {place : List Nat} {name : String} {arguments : List Term}
    {leaves : List Mention} (tables : ∀ b, .range b ∈ arguments → IsTable leaves b) {b : Block Term}
    (h : callTerm view origin place name arguments = .range b) : IsTable leaves b := by
  rw [callTerm] at h
  split at h
  · split at h <;> cases h
  · split at h
    · exact tables b (Function.mem_of_apply_eq_range (fun table mem => (tables table mem).1) h)
    · cases h

mutual

/-- **A table is a range of the expression.** -/
theorem Expr.isTable_of_eval (single : ∀ x, (view.term x).IsSingle) {place : List Nat}
    {b : Block Term} : ∀ {e : Expr}, e.eval view origin place = .range b → IsTable e.leaves b
  | .range r, h => isTable_of_rangeTerm single h
  | .call name arguments, h =>
    isTable_of_callTerm (fun b mem => Expr.isTable_of_mem_evalAll single mem) h
  | .cell r, h => by
    rw [eval, cellTerm] at h
    split at h
    · exact absurd h (single _ b)
    · cases h
  | .binary op left right, h => by
    rw [eval] at h
    cases op <;> cases h
  | .empty, h | .number _, h | .text _, h | .bool _, h => by
    rw [eval] at h
    cases h

theorem Expr.isTable_of_mem_evalAll (single : ∀ x, (view.term x).IsSingle) {place : List Nat}
    {b : Block Term} : ∀ {es : List Expr} {i : Nat}, .range b ∈ evalAll view origin place i es →
      IsTable (leavesAll es) b
  | [], _, h => by
    rw [evalAll] at h
    exact absurd h List.not_mem_nil
  | e :: es, i, h => by
    rw [evalAll] at h
    rcases List.mem_cons.mp h with same | mem
    · exact (Expr.isTable_of_eval single same.symm).mono (List.subset_append_left _ _)
    · exact (Expr.isTable_of_mem_evalAll single mem).mono (List.subset_append_right _ _)

end

theorem Expr.length_evalAll {place : List Nat} : ∀ (es : List Expr) (i : Nat),
    (evalAll view origin place i es).length = es.length
  | [], _ => by
    rw [evalAll]
    rfl
  | e :: es, i => by rw [evalAll, List.length_cons, List.length_cons, Expr.length_evalAll es]

theorem Expr.length_le_leavesAll (single : ∀ x, (view.term x).IsSingle) {place : List Nat} :
    ∀ {es : List Expr} {i : Nat}, (∀ t ∈ evalAll view origin place i es, ∃ b, t = .range b) →
      es.length ≤ (leavesAll es).length
  | [], _, _ => Nat.zero_le _
  | e :: es, i, tables => by
    rw [evalAll, List.forall_mem_cons] at tables
    obtain ⟨⟨b, isTable⟩, others⟩ := tables
    obtain ⟨-, m, mem, -⟩ := Expr.isTable_of_eval single isTable
    have first : 0 < e.leaves.length := List.length_pos_of_mem mem
    have rest := Expr.length_le_leavesAll single others
    rw [leavesAll, List.length_append, List.length_cons]
    omega

end

mutual

theorem Expr.leavesAll_sublist {call : List Nat × List Expr} {place : List Nat} :
    ∀ {e : Expr}, call ∈ e.fillings place → (leavesAll call.2).Sublist e.leaves
  | .call name arguments, mem => by
    rw [fillings] at mem
    rw [leaves]
    rcases List.mem_append.mp mem with mem | mem
    · exact Expr.leavesAll_sublist_all mem
    · split at mem
      · rw [List.mem_singleton.mp mem]
      · exact absurd mem List.not_mem_nil
  | .binary _ left right, mem => by
    rw [fillings] at mem
    rw [leaves]
    rcases List.mem_append.mp mem with mem | mem
    · exact (Expr.leavesAll_sublist mem).trans (List.sublist_append_left _ _)
    · exact (Expr.leavesAll_sublist mem).trans (List.sublist_append_right _ _)
  | .empty, mem | .number _, mem | .text _, mem | .bool _, mem | .cell _, mem | .range _, mem => by
    simp [fillings] at mem

theorem Expr.leavesAll_sublist_all {call : List Nat × List Expr} {place : List Nat} :
    ∀ {es : List Expr} {i : Nat}, call ∈ fillingsAll place i es →
      (leavesAll call.2).Sublist (leavesAll es)
  | [], _, mem => by simp [fillingsAll] at mem
  | e :: es, _, mem => by
    rw [fillingsAll] at mem
    rw [leavesAll]
    rcases List.mem_append.mp mem with mem | mem
    · exact (Expr.leavesAll_sublist mem).trans (List.sublist_append_left _ _)
    · exact (Expr.leavesAll_sublist_all mem).trans (List.sublist_append_right _ _)

end

/-- A formula names less than `2 ^ 63` references, and ranges with less than `2 ^ 63` cells. -/
def NamesFew (formula : String) : Prop :=
  (mentions formula).length < signedLimit ∧ ∀ m ∈ mentions formula, m.1.size < signedLimit

instance (formula : String) : Decidable (NamesFew formula) := inferInstanceAs (Decidable (_ ∧ _))

/-- **The regressions of a formula are small**, if it names few references with few cells. -/
theorem NamesFew.dimensions {formula : String} (few : NamesFew formula) {view : CellView}
    (single : ∀ x, (view.term x).IsSingle) {origin : CellId} {e : Expr}
    (parsed : parse formula = .ok e) {call : List Nat × List Expr} (listed : call ∈ e.fillings)
    {r : Regression}
    (found : Regression.ofArguments (Expr.evalAll view origin call.1 0 call.2) = .ok r) :
    r.fitted.length < signedLimit ∧ r.coefficients.length < signedLimit := by
  obtain ⟨tables, coefficients, b, isArgument, fitted⟩ := Regression.dimensions_of_ofArguments found
  have leaves := leaves_of_parse parsed
  have sublist := Expr.leavesAll_sublist listed
  constructor
  · obtain ⟨-, m, mem, size⟩ := Expr.isTable_of_mem_evalAll single isArgument
    have named := sublist.subset mem
    rw [leaves] at named
    obtain ⟨entry, among, rfl⟩ := List.mem_map.mp named
    rw [fitted, size]
    exact few.2 entry among
  · have count := Expr.length_le_leavesAll single tables
    have fewer := sublist.length_le
    rw [leaves, List.length_map] at fewer
    rw [coefficients, Expr.length_evalAll]
    exact Nat.lt_of_le_of_lt (Nat.le_trans count fewer) few.1

end Formula

end Spreadsheet
