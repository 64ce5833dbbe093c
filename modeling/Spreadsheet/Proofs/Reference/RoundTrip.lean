import Spreadsheet.Reference.Text

/-!
# Reading the text of a reference

A reference that is written can be read again, as long as its coordinates are positive and fit 64
bits; with other coordinates the text is refused.  A coordinate is added up letter by letter or digit
by digit, so what is read is the number that was written or nothing.

* `columnOfLetters?_columnLetters`, `readRow?_toDigits`: the two axes.
* `splitSheet?_sheetPart`: the name of the sheet.
* `Reference.ofChars_chars` and `Range.ofChars_chars`: references and ranges.
-/

namespace Spreadsheet

/-! ### Columns and rows -/

theorem letterOf_spec {n : Nat} (h : n < 26) :
    (letterOf n).isAlpha = true ∧ letterValue (letterOf n) = n + 1 := by
  have all : ∀ n < 26, (letterOf n).isAlpha = true ∧ letterValue (letterOf n) = n + 1 := by decide
  exact all n h

theorem isAlpha_of_mem_columnLetters (column : Nat) :
    ∀ c ∈ columnLetters column, c.isAlpha = true := by
  induction column using Nat.strongRecOn with
  | ind column ih =>
    intro c hc
    rw [columnLetters] at hc
    split at hc
    · exact absurd hc nofun
    · rcases List.mem_append.mp hc with hc | hc
      · exact ih _ (by omega) c hc
      · rw [List.mem_singleton.mp hc]
        exact (letterOf_spec (Nat.mod_lt _ (by decide))).1

theorem columnLetters_ne_nil {column : Nat} (h : 0 < column) : columnLetters column ≠ [] := by
  rw [columnLetters, if_neg (by omega)]
  simp

theorem columnLetters_of_pos {column : Nat} (h : 0 < column) : columnLetters column =
    columnLetters ((column - 1) / 26) ++ [letterOf ((column - 1) % 26)] := by
  rw [columnLetters, if_neg (Nat.ne_of_gt h)]

theorem columnLetters_injective : Function.Injective columnLetters := by
  have none : columnLetters 0 = [] := by rw [columnLetters, if_pos rfl]
  intro a
  induction a using Nat.strongRecOn with
  | ind a ih =>
    intro b same
    rcases Nat.eq_zero_or_pos a with rfl | posA
    · rcases Nat.eq_zero_or_pos b with rfl | posB
      · rfl
      · exact absurd (same.symm.trans none) (columnLetters_ne_nil posB)
    · rcases Nat.eq_zero_or_pos b with rfl | posB
      · exact absurd (same.trans none) (columnLetters_ne_nil posA)
      · rw [columnLetters_of_pos posA, columnLetters_of_pos posB] at same
        obtain ⟨front, last⟩ := List.append_inj' same rfl
        have higher : (a - 1) / 26 = (b - 1) / 26 := ih _ (by omega) front
        have valueA := (letterOf_spec (Nat.mod_lt (a - 1) (by decide : 0 < 26))).2
        have valueB := (letterOf_spec (Nat.mod_lt (b - 1) (by decide : 0 < 26))).2
        rw [List.head_eq_of_cons_eq last, valueB] at valueA
        omega

theorem foldlM_columnLetters (column : Nat) :
    (columnLetters column).foldlM appendLetter 0 =
      if column < coordinateLimit then some column else none := by
  induction column using Nat.strongRecOn with
  | ind column ih =>
    rw [columnLetters]
    split
    · rename_i zero
      subst zero
      rfl
    · have digit : (column - 1) % 26 < 26 := Nat.mod_lt _ (by decide)
      obtain ⟨alpha, value⟩ := letterOf_spec digit
      have whole : (column - 1) / 26 * 26 + ((column - 1) % 26 + 1) = column := by omega
      rw [List.foldlM_append, ih _ (by omega)]
      by_cases fits : (column - 1) / 26 < coordinateLimit
      · simp [fits, appendLetter, alpha, value, whole]
      · have large : ¬ column < coordinateLimit := by omega
        simp [fits, large]

/-- **The letters of a column are read as the column**, if there are any and it fits. -/
theorem columnOfLetters?_columnLetters {column : Nat} (h : 0 < column) :
    columnOfLetters? (columnLetters column) =
      if column < coordinateLimit then some column else none := by
  have letters : (columnLetters column).isEmpty = false := by
    rw [List.isEmpty_eq_false_iff]
    exact columnLetters_ne_nil h
  rw [columnOfLetters?, letters, foldlM_columnLetters]
  rfl

/-- **The digits of a row are read as the row**, if it is positive and fits. -/
theorem readRow?_toDigits (row : Nat) :
    readRow? (Nat.toDigits 10 row) =
      if 0 < row ∧ row < coordinateLimit then some row else none := by
  have value : Nat.ofDigitChars 10 (Nat.toDigits 10 row) 0 = row :=
    Nat.ofDigitChars_toDigits (by decide) (by decide)
  have digits : (Nat.toDigits 10 row).all Char.isDigit = true :=
    List.all_eq_true.mpr fun c hc => Nat.isDigit_of_mem_toDigits (by decide) (by decide) hc
  have nonempty : (Nat.toDigits 10 row).isEmpty = false :=
    List.isEmpty_eq_false_iff.mpr Nat.toDigits_ne_nil
  simp [readRow?, value, digits, nonempty]

/-! ### Coordinates -/

theorem isAlpha_iff (c : Char) :
    c.isAlpha = true ↔ (65 ≤ c.toNat ∧ c.toNat ≤ 90) ∨ (97 ≤ c.toNat ∧ c.toNat ≤ 122) := by
  delta Char.isAlpha Char.isUpper Char.isLower
  simp only [Bool.or_eq_true, Bool.and_eq_true, decide_eq_true_eq, UInt32.le_iff_toNat_le, ge_iff_le]
  exact Iff.rfl

theorem not_isAlpha_of_isDigit {c : Char} (h : c.isDigit = true) : c.isAlpha = false := by
  rw [Char.isDigit_iff_toNat] at h
  rw [Bool.eq_false_iff, Ne, isAlpha_iff]
  simp at h
  omega

theorem takeWhile_append_of_head {α : Type} {p : α → Bool} {l t : List α}
    (hl : ∀ a ∈ l, p a = true) (ht : ∀ a ∈ t.head?, p a = false) :
    (l ++ t).takeWhile p = l ∧ (l ++ t).dropWhile p = t := by
  rw [List.takeWhile_append_of_pos hl, List.dropWhile_append_of_pos hl]
  cases t with
  | nil => simp
  | cons a t =>
    have stop : p a = false := ht a rfl
    simp [stop]

theorem CellId.a1_injective {x y : CellId} (same : x.a1 = y.a1) : x.row = y.row ∧ x.col = y.col := by
  have chars := String.ofList_injective same
  have digitHead : ∀ (n : Nat), ∀ c ∈ (Nat.toDigits 10 n).head?, c.isAlpha = false := by
    intro n c head
    refine not_isAlpha_of_isDigit (Nat.isDigit_of_mem_toDigits (b := 10) (n := n) ?_ ?_ ?_)
    · decide
    · decide
    · exact List.mem_of_mem_head? head
  have splitX := takeWhile_append_of_head (isAlpha_of_mem_columnLetters x.col) (digitHead x.row)
  have splitY := takeWhile_append_of_head (isAlpha_of_mem_columnLetters y.col) (digitHead y.row)
  rw [chars] at splitX
  have letters : columnLetters x.col = columnLetters y.col := splitX.1.symm.trans splitY.1
  have digits : Nat.toDigits 10 x.row = Nat.toDigits 10 y.row := splitX.2.symm.trans splitY.2
  refine ⟨?_, columnLetters_injective letters⟩
  have valueX : Nat.ofDigitChars 10 (Nat.toDigits 10 x.row) 0 = x.row :=
    Nat.ofDigitChars_toDigits (by decide) (by decide)
  rw [← valueX, digits]
  exact Nat.ofDigitChars_toDigits (by decide) (by decide)

theorem splitPin_pin (fixed : Bool) {cs : List Char} (h : '$' ∉ cs.head?) :
    splitPin ((if fixed then ['$'] else []) ++ cs) = (fixed, cs) := by
  cases fixed with
  | true => rfl
  | false =>
    rw [if_neg (by decide), List.nil_append]
    cases cs with
    | nil => rfl
    | cons c cs =>
      have other : c ≠ '$' := fun same => h (same ▸ rfl)
      simp [splitPin, other]

namespace Reference

variable {S : Type} (r : Reference S)

/-- The coordinates are counted from 1. -/
def Positive : Prop := 0 < r.row ∧ 0 < r.col

instance : Decidable r.Positive := inferInstanceAs (Decidable (_ ∧ _))

/-- The coordinates fit 64 bits. -/
def Fits : Prop := r.row < coordinateLimit ∧ r.col < coordinateLimit

instance : Decidable r.Fits := inferInstanceAs (Decidable (_ ∧ _))

theorem of_mem_a1Chars {c : Char} (h : c ∈ r.a1Chars) :
    c = '$' ∨ c.isAlpha = true ∨ c.isDigit = true := by
  have pin : ∀ fixed : Bool, c ∈ (if fixed then ['$'] else []) → c = '$' := by
    intro fixed h
    cases fixed
    · exact absurd h nofun
    · exact List.mem_singleton.mp h
  rw [a1Chars] at h
  rcases List.mem_append.mp h with h | h
  · rcases List.mem_append.mp h with h | h
    · exact Or.inl (pin _ h)
    · exact Or.inr (Or.inl (isAlpha_of_mem_columnLetters _ c h))
  · rcases List.mem_append.mp h with h | h
    · exact Or.inl (pin _ h)
    · exact Or.inr (Or.inr (Nat.isDigit_of_mem_toDigits (by decide) (by decide) h))

theorem not_mem_a1Chars {c : Char} (pin : c ≠ '$') (alpha : c.isAlpha = false)
    (digit : c.isDigit = false) : c ∉ r.a1Chars := by
  intro h
  rcases r.of_mem_a1Chars h with same | yes | yes
  · exact pin same
  · exact absurd (yes.symm.trans alpha) nofun
  · exact absurd (yes.symm.trans digit) nofun

/-- **Coordinates are read as they were written**, if they fit. -/
theorem readCoordinates?_a1Chars (positive : r.Positive) :
    readCoordinates? r.a1Chars = if r.Fits then some (r.onSheet ()) else none := by
  have digit : ∀ c ∈ (Nat.toDigits 10 r.row).head?, c.isDigit = true := fun c hc =>
    Nat.isDigit_of_mem_toDigits (by decide) (by decide) (List.mem_of_mem_head? hc)
  have letters : ∀ c ∈ (columnLetters r.col ++
      ((if r.fixedRow then ['$'] else []) ++ Nat.toDigits 10 r.row)).head?, c ≠ '$' := by
    intro c hc
    have alpha : c.isAlpha = true := by
      obtain ⟨d, ds, eq⟩ := List.exists_cons_of_ne_nil (columnLetters_ne_nil positive.2)
      rw [eq, List.cons_append, List.head?_cons, Option.mem_some_iff] at hc
      exact isAlpha_of_mem_columnLetters r.col c (by rw [eq, hc]; exact List.mem_cons_self)
    rintro rfl
    exact absurd alpha (by decide)
  have after : ∀ c ∈ ((if r.fixedRow then ['$'] else []) ++ Nat.toDigits 10 r.row).head?,
      c.isAlpha = false := by
    intro c hc
    cases fixed : r.fixedRow with
    | true =>
      rw [fixed] at hc
      cases hc
      decide
    | false =>
      rw [fixed] at hc
      exact not_isAlpha_of_isDigit (digit c hc)
  have cut := takeWhile_append_of_head (isAlpha_of_mem_columnLetters r.col) after
  have row : '$' ∉ (Nat.toDigits 10 r.row).head? := fun h => absurd (digit '$' h) (by decide)
  rw [readCoordinates?, a1Chars, List.append_assoc, splitPin_pin _ fun h => letters _ h rfl]
  simp only [cut.1, cut.2, splitPin_pin _ row, columnOfLetters?_columnLetters positive.2,
    readRow?_toDigits]
  by_cases col : r.col < coordinateLimit
  · by_cases row : r.row < coordinateLimit
    · have fits : r.Fits := ⟨row, col⟩
      simp [col, row, fits, positive.1, onSheet]
    · have large : ¬ r.Fits := fun fits => row fits.1
      simp [col, row, large]
  · have large : ¬ r.Fits := fun fits => col fits.2
    simp [col, large]

end Reference

/-! ### The sheet in front -/

theorem mem_doubleApostrophes {name : List Char} {c : Char} :
    c ∈ doubleApostrophes name ↔ c ∈ name := by
  induction name with
  | nil => rfl
  | cons d ds ih =>
    rw [doubleApostrophes]
    split
    · rename_i same
      rw [List.mem_cons, List.mem_cons, List.mem_cons, ih, eq_of_beq same, ← or_assoc, or_self]
    · rw [List.mem_cons, List.mem_cons, ih]

theorem readQuotedName?_doubleApostrophes (name : List Char) {rest : List Char}
    (h : '\'' ∉ rest) :
    readQuotedName? (doubleApostrophes name ++ '\'' :: rest) = some (name, rest) := by
  induction name with
  | nil =>
    cases rest with
    | nil => rfl
    | cons c cs =>
      have other : c ≠ '\'' := fun same => h (same ▸ List.mem_cons_self)
      simp [doubleApostrophes, readQuotedName?, other]
  | cons c cs ih =>
    rw [doubleApostrophes]
    split
    · rename_i same
      rw [eq_of_beq same, List.cons_append, List.cons_append, readQuotedName?, ih]
      rfl
    · rename_i other
      rw [beq_iff_eq] at other
      rw [List.cons_append, readQuotedName?, ih]
      · rfl
      · exact fun _ same _ => other same
      · exact other

theorem splitAtLastMark?_of_not_mem {cs : List Char} (h : '!' ∉ cs) :
    splitAtLastMark? cs = none := by
  have all : ∀ c ∈ cs.reverse, (c != '!') = true := by
    intro c hc
    rw [bne_iff_ne]
    rintro rfl
    exact h (List.mem_reverse.mp hc)
  have cut := takeWhile_append_of_head all (t := []) nofun
  rw [List.append_nil] at cut
  rw [splitAtLastMark?, cut.2]

theorem splitAtLastMark?_append {name rest : List Char} (h : '!' ∉ rest) :
    splitAtLastMark? (name ++ '!' :: rest) = some (name, rest) := by
  have all : ∀ c ∈ rest.reverse, (c != '!') = true := by
    intro c hc
    rw [bne_iff_ne]
    rintro rfl
    exact h (List.mem_reverse.mp hc)
  have stop : ∀ c ∈ ('!' :: name.reverse).head?, (c != '!') = false := by
    intro c hc
    cases hc
    rfl
  have cut := takeWhile_append_of_head all stop
  have reversed : (name ++ '!' :: rest).reverse = rest.reverse ++ '!' :: name.reverse := by simp
  rw [splitAtLastMark?, reversed, cut.1, cut.2]
  simp

theorem splitSheet?_quoted (name : List Char) {rest : List Char} (apostrophe : '\'' ∉ rest) :
    splitSheet? ('\'' :: doubleApostrophes name ++ ['\''] ++ ['!'] ++ rest) =
      some (some (String.ofList name), rest) := by
  have marked : '\'' ∉ '!' :: rest := by
    intro h
    rcases List.mem_cons.mp h with same | h
    · exact absurd same (by decide)
    · exact apostrophe h
  have body := readQuotedName?_doubleApostrophes name marked
  have split : '\'' :: doubleApostrophes name ++ ['\''] ++ ['!'] ++ rest =
      '\'' :: (doubleApostrophes name ++ '\'' :: '!' :: rest) := by simp
  rw [split, splitSheet?, body]
  rfl

/-- **The sheet in front of a reference is read as it was written.** -/
theorem splitSheet?_sheetPart (sheet : Option String) {rest : List Char} (mark : '!' ∉ rest)
    (apostrophe : '\'' ∉ rest) : splitSheet? (sheetPart sheet ++ rest) = some (sheet, rest) := by
  cases sheet with
  | none =>
    rw [sheetPart, List.nil_append, splitSheet?]
    · rw [splitAtLastMark?_of_not_mem mark]
    · rintro quoted rfl
      exact apostrophe List.mem_cons_self
  | some name =>
    rw [sheetPart, writtenName]
    split
    · rename_i plain
      rw [List.append_assoc, List.singleton_append, splitSheet?]
      · rw [splitAtLastMark?_append mark]
        simp [plain, String.ofList_toList]
      · intro quoted same
        cases letters : name.toList with
        | nil =>
          rw [letters] at plain
          exact absurd plain nofun
        | cons c cs =>
          rw [letters, List.cons_append] at same
          rw [letters, (List.cons.inj same).1] at plain
          exact absurd plain (by simp [isPlainName])
    · rw [splitSheet?_quoted name.toList apostrophe, String.ofList_toList]

/-! ### References and ranges -/

theorem Reference.plain_a1Chars {S : Type} (r : Reference S) :
    '!' ∉ r.a1Chars ∧ '\'' ∉ r.a1Chars ∧ ':' ∉ r.a1Chars :=
  ⟨r.not_mem_a1Chars (by decide) (by decide) (by decide),
    r.not_mem_a1Chars (by decide) (by decide) (by decide),
    r.not_mem_a1Chars (by decide) (by decide) (by decide)⟩

theorem Reference.onSheet_onSheet {S T U : Type} (r : Reference S) (t : T) (u : U) :
    (r.onSheet t).onSheet u = r.onSheet u := rfl

theorem Reference.onSheet_self {S : Type} (r : Reference S) : r.onSheet r.sheet = r := rfl

/-- **A reference is read as it was written**, if its coordinates fit. -/
theorem Reference.ofChars_chars {r : WrittenReference} (positive : r.Positive) :
    Reference.ofChars r.chars =
      if r.Fits then .ok r else .error (.malformed (String.ofList r.chars)) := by
  obtain ⟨mark, apostrophe, -⟩ := r.plain_a1Chars
  have split : splitSheet? r.chars = some (r.sheet, r.a1Chars) :=
    splitSheet?_sheetPart r.sheet mark apostrophe
  rw [Reference.ofChars, split]
  dsimp only
  rw [r.readCoordinates?_a1Chars positive]
  by_cases fits : r.Fits
  · simp [fits, onSheet_onSheet, onSheet_self]
  · simp [fits]

namespace Range

variable (r : WrittenRange)

/-- The coordinates of both corners are counted from 1. -/
def Positive : Prop := r.start.Positive ∧ r.stop.Positive

instance : Decidable r.Positive := inferInstanceAs (Decidable (_ ∧ _))

/-- The coordinates of both corners fit 64 bits. -/
def Fits : Prop := r.start.Fits ∧ r.stop.Fits

instance : Decidable r.Fits := inferInstanceAs (Decidable (_ ∧ _))

theorem not_isRowNumber_a1Chars {S : Type} {corner : Reference S} (positive : corner.Positive) :
    isRowNumber corner.a1Chars = false := by
  obtain ⟨c, cs, letters⟩ := List.exists_cons_of_ne_nil (columnLetters_ne_nil positive.2)
  have alpha : c.isAlpha = true :=
    isAlpha_of_mem_columnLetters corner.col c (letters ▸ List.mem_cons_self)
  have noPin : (c != '$') = true := by
    rw [bne_iff_ne]
    rintro rfl
    exact absurd alpha (by decide)
  have digit : c.isDigit = false := by
    rw [Bool.eq_false_iff]
    intro digit
    exact absurd (alpha.symm.trans (not_isAlpha_of_isDigit digit)) nofun
  have mem : c ∈ corner.a1Chars.filter (· != '$') := by
    refine List.mem_filter.mpr ⟨?_, noPin⟩
    rw [Reference.a1Chars, letters]
    simp
  rw [isRowNumber, Bool.and_eq_false_iff]
  refine Or.inr ?_
  rw [List.all_eq_false]
  exact ⟨c, mem, by simp [digit]⟩

/-- **A range is read as it was written**, if its coordinates fit.  Both corners have the sheet of the
first. -/
theorem ofChars_chars {r : WrittenRange} (positive : r.Positive)
    (same : r.stop.sheet = r.start.sheet) :
    Range.ofChars r.chars =
      if r.Fits then .ok r else .error (.malformed (String.ofList r.chars)) := by
  obtain ⟨mark, apostrophe, colon⟩ := r.start.plain_a1Chars
  obtain ⟨mark', apostrophe', -⟩ := r.stop.plain_a1Chars
  have split : splitSheet? r.chars = some (r.start.sheet, r.start.a1Chars ++ ':' :: r.stop.a1Chars) :=
    splitSheet?_sheetPart r.start.sheet (by simp [mark, mark']) (by simp [apostrophe, apostrophe'])
  have stop : ∀ c ∈ (':' :: r.stop.a1Chars).head?, (c != ':') = false := by
    intro c hc
    cases hc
    rfl
  have first : ∀ c ∈ r.start.a1Chars, (c != ':') = true := by
    intro c hc
    rw [bne_iff_ne]
    rintro rfl
    exact colon hc
  have cut := takeWhile_append_of_head first stop
  rw [Range.ofChars, split]
  dsimp only
  rw [cut.1, cut.2]
  simp only [not_isRowNumber_a1Chars positive.1, not_isRowNumber_a1Chars positive.2,
    r.start.readCoordinates?_a1Chars positive.1, r.stop.readCoordinates?_a1Chars positive.2]
  by_cases start : r.start.Fits
  · by_cases stop : r.stop.Fits
    · have fits : r.Fits := ⟨start, stop⟩
      have corners : r.stop.onSheet r.start.sheet = r.stop := by rw [← same]; rfl
      simp [start, stop, fits, Reference.onSheet_onSheet, Reference.onSheet_self, corners]
    · have large : ¬ r.Fits := fun fits => stop fits.2
      simp [start, stop, large]
  · have large : ¬ r.Fits := fun fits => start fits.1
    simp [start, large]

end Range

/-! ### What is read fits -/

theorem appendLetter_eq_some {column next : Nat} {c : Char} (h : appendLetter column c = some next) :
    0 < next ∧ next < coordinateLimit := by
  rw [appendLetter, Option.ite_none_right_eq_some, Bool.and_eq_true, decide_eq_true_eq] at h
  obtain ⟨⟨-, fits⟩, same⟩ := h
  rw [← Option.some.inj same]
  exact ⟨by rw [letterValue]; omega, fits⟩

theorem columnOfLetters?_eq_some {cs : List Char} {column : Nat}
    (h : columnOfLetters? cs = some column) : 0 < column ∧ column < coordinateLimit := by
  have all : ∀ (cs : List Char) (start : Nat), cs ≠ [] → cs.foldlM appendLetter start = some column →
      0 < column ∧ column < coordinateLimit := by
    intro cs
    induction cs with
    | nil => exact fun _ none => absurd rfl none
    | cons c cs ih =>
      intro start _ h
      rw [List.foldlM_cons] at h
      obtain ⟨next, first, rest⟩ := Option.bind_eq_some_iff.mp h
      cases cs with
      | nil =>
        cases rest
        exact appendLetter_eq_some first
      | cons d ds => exact ih next nofun rest
  rw [columnOfLetters?] at h
  split at h
  · exact absurd h nofun
  · exact all cs 0 (fun none => ‹¬ _› (by rw [none]; rfl)) h

theorem readRow?_eq_some {cs : List Char} {row : Nat} (h : readRow? cs = some row) :
    0 < row ∧ row < coordinateLimit := by
  simp only [readRow?, Option.ite_none_right_eq_some, Bool.and_eq_true, decide_eq_true_eq,
    Option.some.injEq] at h
  rw [← h.2]
  exact ⟨h.1.1.2, h.1.2⟩

theorem readCoordinates?_eq_some {cs : List Char} {r : Reference Unit}
    (h : readCoordinates? cs = some r) : r.Positive ∧ r.Fits := by
  rw [readCoordinates?] at h
  obtain ⟨col, readCol, h⟩ := Option.bind_eq_some_iff.mp h
  obtain ⟨row, readRow, h⟩ := Option.bind_eq_some_iff.mp h
  cases h
  obtain ⟨colPositive, colFits⟩ := columnOfLetters?_eq_some readCol
  obtain ⟨rowPositive, rowFits⟩ := readRow?_eq_some readRow
  exact ⟨⟨rowPositive, colPositive⟩, rowFits, colFits⟩

/-- **A reference that is read** has coordinates that are counted from 1 and fit 64 bits. -/
theorem Reference.ofChars_eq_ok {cs : List Char} {r : WrittenReference}
    (h : Reference.ofChars cs = .ok r) : r.Positive ∧ r.Fits := by
  rw [Reference.ofChars] at h
  split at h
  · exact absurd h nofun
  · split at h
    · exact absurd h nofun
    · cases h
      exact readCoordinates?_eq_some ‹_›

/-- **A range that is read** has such coordinates, and both corners have the same sheet. -/
theorem Range.ofChars_eq_ok {cs : List Char} {r : WrittenRange} (h : Range.ofChars cs = .ok r) :
    r.Positive ∧ r.Fits ∧ r.stop.sheet = r.start.sheet := by
  rw [Range.ofChars] at h
  dsimp only at h
  split at h
  · exact absurd h nofun
  · split at h
    · exact absurd h nofun
    · split at h
      · exact absurd h nofun
      · split at h
        · rename_i start stop readStart readStop
          cases h
          obtain ⟨startPositive, startFits⟩ := readCoordinates?_eq_some readStart
          obtain ⟨stopPositive, stopFits⟩ := readCoordinates?_eq_some readStop
          exact ⟨⟨startPositive, stopPositive⟩, ⟨startFits, stopFits⟩, rfl⟩
        · exact absurd h nofun

end Spreadsheet
