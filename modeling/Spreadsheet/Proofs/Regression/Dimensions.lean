import Spreadsheet.Regression.LeastSquares

/-!
# How much a regression fills

A regression has a fitted value for each member of its series and a coefficient for each argument,
whether it is determined or not.

* `Matrix.length_eliminate`: the elimination of a column keeps the number of rows.
* `Regression.length_coefficients_fit`: a coefficient for each series, and the intercept.
-/

namespace Spreadsheet

namespace Matrix

theorem length_eliminate {rows rows' : List Elimination} {c : Nat}
    (ok : eliminate rows c = some rows') : rows'.length = rows.length := by
  rw [eliminate] at ok
  obtain ⟨pivotRow, -, ok⟩ := Option.bind_eq_some_iff.mp ok
  obtain ⟨first, here, ok⟩ := Option.bind_eq_some_iff.mp ok
  have below : c < rows.length := by
    refine Nat.lt_of_not_le fun beyond => ?_
    rw [List.drop_eq_nil_of_le beyond] at here
    cases here
  dsimp only at ok
  split at ok
  · cases ok
  · cases ok
    simp only [List.length_append, List.length_map, List.length_take, List.length_cons,
      List.length_drop, List.length_set]
    omega

theorem length_foldlM_eliminate {rows rows' : List Elimination} {cs : List Nat}
    (ok : cs.foldlM eliminate rows = some rows') : rows'.length = rows.length := by
  induction cs generalizing rows with
  | nil =>
    cases ok
    rfl
  | cons c cs ih =>
    obtain ⟨next, eliminated, ok⟩ := Option.bind_eq_some_iff.mp ok
    rw [ih ok, length_eliminate eliminated]

theorem height_of_inverse? {m inverse : Matrix} (ok : m.inverse? = some inverse) :
    inverse.height = m.height := by
  rw [inverse?] at ok
  split at ok
  · cases ok
  · rename_i square
    obtain ⟨rows, eliminated, ok⟩ := Option.bind_eq_some_iff.mp ok
    cases ok
    have sides : (identity m.width).rows.length = m.height := by
      rw [identity, List.length_map, List.length_range, Decidable.not_not.mp square]
    rw [height, List.length_map, length_foldlM_eliminate eliminated, List.length_zip, sides]
    exact Nat.min_self _

theorem height_of_mul? {a b product : Matrix} (ok : a.mul? b = some product) :
    product.height = a.height := by
  rw [mul?, Option.ite_none_right_eq_some] at ok
  obtain ⟨-, same⟩ := ok
  cases same
  exact List.length_map _

theorem height_ofColumns (column : List Float) (columns : List (List Float)) :
    (ofColumns (column :: columns)).height = column.length := by
  rw [height, ofColumns, List.length_map, List.length_range]
  rfl

end Matrix

namespace Regression

theorem length_of_coefficients? {x : Matrix} {y coefficients : List Float}
    (ok : coefficients? x y = some coefficients) : coefficients.length = x.width := by
  obtain ⟨product, multiplied, ok⟩ := Option.bind_eq_some_iff.mp ok
  obtain ⟨inverse, inverted, ok⟩ := Option.bind_eq_some_iff.mp ok
  obtain ⟨moments, -, ok⟩ := Option.bind_eq_some_iff.mp ok
  obtain ⟨solution, solved, ok⟩ := Option.bind_eq_some_iff.mp ok
  cases ok
  calc (solution.column 0).length
    _ = solution.height := List.length_map _
    _ = product.height := by rw [Matrix.height_of_mul? solved, Matrix.height_of_inverse? inverted]
    _ = x.transpose.height := Matrix.height_of_mul? multiplied
    _ = x.width := by rw [Matrix.height, Matrix.transpose, List.length_map, List.length_range]

theorem length_fitted_fit (y : List Float) (series : List (List Float)) :
    (fit y series).fitted.length = y.length := by
  rw [fit]
  dsimp only
  split
  · exact List.length_replicate
  · rw [List.length_map]
    exact (Matrix.height_ofColumns _ _).trans List.length_replicate

theorem length_coefficients_fit (y : List Float) (series : List (List Float)) :
    (fit y series).coefficients.length = series.length + 1 := by
  rw [fit]
  dsimp only
  split
  · exact List.length_replicate
  · rename_i determined
    exact length_of_coefficients? determined

end Regression

end Spreadsheet
