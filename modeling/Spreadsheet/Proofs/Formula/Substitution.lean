import Spreadsheet.Proofs.Formula.Retargeting

/-!
# Formulas with other references

Any references of a formula can be replaced in its text.  The new text is read like the old one, with
the new references as leaves in the places of the old ones.

* `Mention.Admissible m`: a reference or range that a sheet can have.
* `parse_substitute`: replacing references in a text and replacing leaves of its expression agree.
-/

namespace Spreadsheet.Formula

/-- The coordinates are counted from 1 and fit 64 bits, both corners of a range are on one sheet, and
a sheet may have the name that is written in front. -/
structure Mention.Admissible (m : Mention) : Prop extends m.Sound where
  name : ∀ name, m.writtenSheet = some name → Sheet.isValidName name = true

theorem Mention.Admissible.writable {m : Mention} (h : m.Admissible) : m.Writable where
  positive := h.positive
  sheets := h.sheets
  name := by
    rintro r rfl name named
    exact colon_not_mem_of_isValidName (h.name name named)

/-- **Replacing references commutes with reading.**  A formula can still be read after any of its
references have been replaced, and its expression is the old one with the new references as leaves. -/
theorem parse_substitute {formula : String} {e : Expr} (parsed : parse formula = .ok e)
    (replace : Mention → Option Mention)
    (admissible : ∀ m ∈ mentions formula, ∀ new, replace m.1 = some new → new.Admissible) :
    parse (replaceMentions (fun m => (replace m).map Mention.text) formula) =
      .ok (e.mapMentions fun m => (replace m).getD m) := by
  have valid : isValid formula = true := by
    rw [isValid, parsed]
    rfl
  rw [parse_replaceMentions valid (fun m hm new found => (admissible m hm new found).writable)
    (fun m hm new found => (admissible m hm new found).fits), parsed]
  rfl

/-- A quoted name comes to stand between `-` and `!=`, and in front of `^`. -/
theorem parse_substitute_quoted :
    let formula := "TRUE-a1!=SUM('x''y'!B2:C3, A1^c$4)"
    let text := "TRUE-'it''s 5'!AB$18446744073709551615!=SUM(a1!B9:$A1, " ++
      "'it''s 5'!AB$18446744073709551615^c$4)"
    let new : WrittenReference := ⟨some "it's 5", 18446744073709551615, 28, true, false⟩
    let range : WrittenRange := ⟨⟨some "a1", 9, 2, false, false⟩, ⟨some "a1", 1, 1, false, true⟩⟩
    let replace : Mention → Option Mention := fun
      | .cell r => if r.col = 1 then some (.cell new) else none
      | .range _ => some (.range range)
    replaceMentions (fun m => (replace m).map Mention.text) formula = text ∧
      parse text = .ok (.binary .notEqual (.binary .minus (.bool true) (.cell new))
        (.call "SUM" [.range range, .binary .power (.cell new)
          (.cell ⟨none, 4, 3, true, false⟩)])) := by
  intro formula text new range replace
  have lexed : tokens formula = .ok
      [.bool true, .operator .minus, .cell ⟨none, 1, 1, false, false⟩, .operator .notEqual,
        .function "SUM", .leftParen,
        .range ⟨⟨some "x'y", 2, 2, false, false⟩, ⟨some "x'y", 3, 3, false, false⟩⟩, .comma,
        .cell ⟨none, 1, 1, false, false⟩, .operator .power, .cell ⟨none, 4, 3, true, false⟩,
        .rightParen] := by decide +kernel
  have parsed : parse formula = .ok
      (.binary .notEqual (.binary .minus (.bool true) (.cell ⟨none, 1, 1, false, false⟩))
        (.call "SUM"
          [.range ⟨⟨some "x'y", 2, 2, false, false⟩, ⟨some "x'y", 3, 3, false, false⟩⟩,
            .binary .power (.cell ⟨none, 1, 1, false, false⟩)
              (.cell ⟨none, 4, 3, true, false⟩)])) := by
    rw [parse, lexed]
    rfl
  have newAdmissible : (Mention.cell new).Admissible :=
    ⟨⟨by decide, by decide, by simp⟩, by rintro _ ⟨⟩; decide⟩
  have rangeAdmissible : (Mention.range range).Admissible :=
    ⟨⟨by decide, by decide, by rintro _ ⟨⟩; rfl⟩, by rintro _ ⟨⟩; decide⟩
  have replaced : replaceMentions (fun m => (replace m).map Mention.text) formula = text := by
    decide +kernel
  have read := parse_substitute parsed replace (by
    rintro ⟨m, written⟩ - m' found
    cases m with
    | cell r =>
      simp only [replace, Option.ite_none_right_eq_some, Option.some.injEq] at found
      exact found.2 ▸ newAdmissible
    | range r =>
      cases found
      exact rangeAdmissible)
  rw [replaced] at read
  exact ⟨replaced, read⟩

end Spreadsheet.Formula
