import Mathlib.Data.List.Induction
import Mathlib.Data.List.TakeWhile
import Spreadsheet.Proofs.Reference.RoundTrip
import Spreadsheet.Text.Character

/-!
# How a reference can be spelled

Many texts are the same reference: its letters can be small, its row can have zeros in front, and its
sheet can have apostrophes that it does not need.  A `Spelling` is such a text, part by part.  The
texts that are read are the spellings, and a reference is written as each of its spellings is without
these liberties.

* `columnValue letters`: the number of letters in base 26, as large as it may be.
* `columnLetters_columnValue`: these are the letters of this column, up to their case.
* `dropWhile_zeros`: a row is written without the zeros in front.
* `Spelling`: a sheet, letters and digits, with their `$` signs.
* `Reference.ofChars_eq_ok_iff_spelling`: which texts are read, and as what.
-/

namespace Spreadsheet

/-! ### Letters and digits -/

/-- The number that letters stand for in base 26, with `A` for 1 and `Z` for 26. -/
def columnValue (letters : List Char) : Nat := letters.foldl (fun n c => n * 26 + letterValue c) 0

theorem columnValue_concat (letters : List Char) (c : Char) :
    columnValue (letters ++ [c]) = columnValue letters * 26 + letterValue c := by
  rw [columnValue, List.foldl_append]
  rfl

theorem letterOf_letterValue {c : Char} (alpha : c.isAlpha = true) :
    ∃ n < 26, letterValue c = n + 1 ∧ letterOf n = c.toUpper := by
  have all : ∀ n < 123, (Char.ofNat n).isAlpha = true → letterValue (Char.ofNat n) - 1 < 26 ∧
      letterOf (letterValue (Char.ofNat n) - 1) = (Char.ofNat n).toUpper := by decide
  have low : c.toNat < 123 := by
    rw [isAlpha_iff] at alpha
    omega
  have found := all c.toNat low (by rwa [Char.ofNat_toNat])
  rw [Char.ofNat_toNat] at found
  exact ⟨letterValue c - 1, found.1, rfl, found.2⟩

/-- **Letters are those of the column that they stand for**, up to their case. -/
theorem columnLetters_columnValue {letters : List Char} (alpha : ∀ c ∈ letters, c.isAlpha = true) :
    columnLetters (columnValue letters) = Text.capitals letters := by
  induction letters using List.reverseRecOn with
  | nil =>
    rw [columnLetters]
    exact if_pos rfl
  | append_singleton letters c ih =>
    obtain ⟨n, small, value, letter⟩ := letterOf_letterValue (alpha c (by simp))
    have front := ih fun d hd => alpha d (List.mem_append_left _ hd)
    rw [columnValue_concat, value, columnLetters_of_pos (by omega)]
    rw [show (columnValue letters * 26 + (n + 1) - 1) / 26 = columnValue letters by omega,
      show (columnValue letters * 26 + (n + 1) - 1) % 26 = n by omega, front, letter]
    simp [Text.capitals]

theorem columnValue_pos_iff {letters : List Char} : 0 < columnValue letters ↔ letters ≠ [] := by
  induction letters using List.reverseRecOn with
  | nil => simp [columnValue]
  | append_singleton letters c =>
    have positive : 0 < letterValue c := Nat.succ_pos _
    rw [columnValue_concat]
    exact iff_of_true (by omega) (by simp)

/-- Letters are added up to the column that they stand for, as long as it fits. -/
theorem foldlM_appendLetter {letters : List Char} (alpha : ∀ c ∈ letters, c.isAlpha = true) :
    letters.foldlM appendLetter 0 =
      if columnValue letters < coordinateLimit then some (columnValue letters) else none := by
  induction letters using List.reverseRecOn with
  | nil => rfl
  | append_singleton letters c ih =>
    have last := alpha c (by simp)
    rw [List.foldlM_append, ih fun d hd => alpha d (List.mem_append_left _ hd), columnValue_concat]
    by_cases fits : columnValue letters < coordinateLimit
    · simp [fits, appendLetter, last]
    · have large : ¬ columnValue letters * 26 + letterValue c < coordinateLimit := by omega
      simp [fits, large]

/-- **Letters are read as the column that they stand for**, if there are any and it fits. -/
theorem columnOfLetters?_eq_some_iff {letters : List Char}
    (alpha : ∀ c ∈ letters, c.isAlpha = true) {column : Nat} :
    columnOfLetters? letters = some column ↔
      columnValue letters = column ∧ 0 < column ∧ column < coordinateLimit := by
  rw [columnOfLetters?, foldlM_appendLetter alpha]
  by_cases empty : letters = []
  · subst empty
    simp only [List.isEmpty_nil, if_true]
    constructor
    · intro none
      cases none
    · rintro ⟨rfl, positive, -⟩
      exact absurd positive (Nat.lt_irrefl 0)
  · rw [List.isEmpty_eq_false_iff.mpr empty, if_neg Bool.false_ne_true,
      Option.ite_none_right_eq_some, Option.some.injEq]
    constructor
    · rintro ⟨fits, rfl⟩
      exact ⟨rfl, columnValue_pos_iff.mpr empty, fits⟩
    · rintro ⟨rfl, -, fits⟩
      exact ⟨fits, rfl⟩

theorem exists_digitChar {c : Char} (digit : c.isDigit = true) : ∃ d < 10, c = d.digitChar := by
  have all : ∀ n < 58, (Char.ofNat n).isDigit = true →
      n - 48 < 10 ∧ Char.ofNat n = (n - 48).digitChar := by decide
  have low : c.toNat < 58 := by
    rw [Char.isDigit_iff_toNat] at digit
    simp at digit
    omega
  have found := all c.toNat low (by rwa [Char.ofNat_toNat])
  rw [Char.ofNat_toNat] at found
  exact ⟨c.toNat - 48, found⟩

/-- **A row is written without the zeros in front of its digits**, and zero has no other digits. -/
theorem dropWhile_zeros {digits : List Char} (digit : ∀ c ∈ digits, c.isDigit = true) :
    digits.dropWhile (· == '0') =
      if Nat.ofDigitChars 10 digits 0 = 0 then []
      else Nat.toDigits 10 (Nat.ofDigitChars 10 digits 0) := by
  induction digits using List.reverseRecOn with
  | nil => rfl
  | append_singleton digits c ih =>
    obtain ⟨d, small, rfl⟩ := exists_digitChar (digit c (by simp))
    have front := ih fun x hx => digit x (List.mem_append_left _ hx)
    have value : Nat.ofDigitChars 10 (digits ++ [d.digitChar]) 0 =
        10 * Nat.ofDigitChars 10 digits 0 + d := by
      rw [Nat.ofDigitChars_append, Nat.ofDigitChars_cons_digitChar_of_lt_ten small,
        Nat.ofDigitChars_nil]
    rw [List.dropWhile_append, front, value]
    by_cases zero : Nat.ofDigitChars 10 digits 0 = 0
    · by_cases last : d = 0
      · simp [zero, last]
      · have other : (d.digitChar == '0') = false := by
          rw [beq_eq_false_iff_ne]
          intro same
          exact last (Nat.digitChar_eq_zero.mp same)
        simp [zero, last, other, Nat.toDigits_of_lt_base small]
    · have digits_ne : (Nat.toDigits 10 (Nat.ofDigitChars 10 digits 0)).isEmpty = false :=
        List.isEmpty_eq_false_iff.mpr Nat.toDigits_ne_nil
      rw [if_neg zero, if_neg (by simp [digits_ne]), if_neg (by omega),
        ← Nat.toDigits_of_lt_base small,
        Nat.toDigits_append_toDigits (by decide) (Nat.pos_of_ne_zero zero) small]

/-! ### Spellings -/

/-- What can stand in front of the coordinates of a reference: nothing, a plain name, or any name in
apostrophes. -/
inductive SheetSpelling
  | absent
  | plain (name : List Char) (isPlain : isPlainName name = true)
  | quoted (name : List Char)

namespace SheetSpelling

/-- The text in front of the coordinates. -/
def chars : SheetSpelling → List Char
  | absent => []
  | plain name _ => name ++ ['!']
  | quoted name => '\'' :: doubleApostrophes name ++ ['\''] ++ ['!']

/-- The name of the sheet. -/
def sheet : SheetSpelling → Option String
  | absent => none
  | plain name _ | quoted name => some (String.ofList name)

/-- The text in front without apostrophes that are not needed. -/
def canonical : SheetSpelling → List Char
  | quoted name => if isPlainName name then name ++ ['!'] else (quoted name).chars
  | front => front.chars

theorem sheetPart_sheet (front : SheetSpelling) : sheetPart front.sheet = front.canonical := by
  cases front with
  | absent => rfl
  | plain name isPlain => simp [sheetPart, sheet, canonical, chars, writtenName, isPlain]
  | quoted name =>
    rw [sheet, sheetPart, canonical, String.toList_ofList, writtenName]
    split <;> rfl

theorem mem_chars {front : SheetSpelling} {name : String} (named : front.sheet = some name)
    {c : Char} (mem : c ∈ name.toList) : c ∈ front.chars := by
  cases front with
  | absent => exact absurd named nofun
  | plain name' isPlain =>
    cases named
    rw [String.toList_ofList] at mem
    exact List.mem_append_left _ mem
  | quoted name' =>
    cases named
    rw [String.toList_ofList] at mem
    simp [chars, mem_doubleApostrophes, mem]

theorem splitSheet?_chars (front : SheetSpelling) {rest : List Char} (mark : '!' ∉ rest)
    (apostrophe : '\'' ∉ rest) : splitSheet? (front.chars ++ rest) = some (front.sheet, rest) := by
  have plain : front.chars = sheetPart front.sheet →
      splitSheet? (front.chars ++ rest) = some (front.sheet, rest) := by
    intro same
    rw [same]
    exact splitSheet?_sheetPart front.sheet mark apostrophe
  cases front with
  | absent => exact plain rfl
  | plain name isPlain => exact plain (sheetPart_sheet (.plain name isPlain)).symm
  | quoted name => exact splitSheet?_quoted name apostrophe

end SheetSpelling

theorem eq_of_readQuotedName? {cs name rest : List Char} (h : readQuotedName? cs = some (name, rest)) :
    cs = doubleApostrophes name ++ '\'' :: rest := by
  fun_induction readQuotedName? cs generalizing name with
  | case1 => exact absurd h nofun
  | case2 cs ih =>
    obtain ⟨⟨name', rest'⟩, read, same⟩ := Option.map_eq_some_iff.mp h
    cases same
    rw [ih read]
    rfl
  | case3 cs =>
    cases h
    rfl
  | case4 c cs _ other ih =>
    obtain ⟨⟨name', rest'⟩, read, same⟩ := Option.map_eq_some_iff.mp h
    cases same
    rw [ih read, doubleApostrophes, if_neg (by simpa using other)]
    rfl

theorem eq_of_splitAtLastMark? {cs name rest : List Char}
    (h : splitAtLastMark? cs = some (name, rest)) : cs = name ++ '!' :: rest := by
  have parts := List.takeWhile_append_dropWhile (p := (· != '!')) (l := cs.reverse)
  have mark := List.head?_dropWhile_not (· != '!') cs.reverse
  rw [splitAtLastMark?] at h
  split at h
  · exact absurd h nofun
  · rename_i c before found
    cases h
    rw [found] at parts mark
    have isMark : c = '!' := by simpa using mark
    have whole := congrArg List.reverse parts
    rw [List.reverse_append, List.reverse_cons, List.reverse_reverse, isMark] at whole
    exact (whole.symm.trans (by simp))

/-- **What is cut off as a sheet is one that is spelled.** -/
theorem exists_of_splitSheet? {cs rest : List Char} {sheet : Option String}
    (h : splitSheet? cs = some (sheet, rest)) :
    ∃ front : SheetSpelling, front.chars ++ rest = cs ∧ front.sheet = sheet := by
  rw [splitSheet?.eq_def] at h
  split at h
  · split at h
    · rename_i quoted _ name rest' read
      cases h
      refine ⟨.quoted name, ?_, rfl⟩
      rw [eq_of_readQuotedName? read]
      simp [SheetSpelling.chars]
    · exact absurd h nofun
  · split at h
    · cases h
      exact ⟨.absent, rfl, rfl⟩
    · rename_i name rest' found
      split at h
      · rename_i isPlain
        cases h
        refine ⟨.plain name isPlain, ?_, rfl⟩
        rw [eq_of_splitAtLastMark? found]
        simp [SheetSpelling.chars]
      · exact absurd h nofun

/-- A text of a reference: a sheet, letters for a column and digits for a row, with their `$` signs.
The column and the row are counted from 1 and fit 64 bits. -/
structure Spelling where
  front : SheetSpelling
  fixedCol : Bool
  letters : List Char
  fixedRow : Bool
  digits : List Char
  alpha : ∀ c ∈ letters, c.isAlpha = true
  digit : ∀ c ∈ digits, c.isDigit = true
  column : 0 < columnValue letters ∧ columnValue letters < coordinateLimit
  row : 0 < Nat.ofDigitChars 10 digits 0 ∧ Nat.ofDigitChars 10 digits 0 < coordinateLimit

/-- The `$` in front of a coordinate that is pinned. -/
def pin (fixed : Bool) : List Char := if fixed then ['$'] else []

namespace Spelling

variable (s : Spelling)

def coordinates : List Char := pin s.fixedCol ++ s.letters ++ (pin s.fixedRow ++ s.digits)

/-- The text. -/
def chars : List Char := s.front.chars ++ s.coordinates

/-- What the text says. -/
def reference : WrittenReference where
  sheet := s.front.sheet
  row := Nat.ofDigitChars 10 s.digits 0
  col := columnValue s.letters
  fixedRow := s.fixedRow
  fixedCol := s.fixedCol

/-- The text with capital letters and without what it does not need: zeros in front of the row and
apostrophes around a plain name. -/
def canonical : List Char :=
  s.front.canonical ++ (pin s.fixedCol ++ Text.capitals s.letters ++
    (pin s.fixedRow ++ s.digits.dropWhile (· == '0')))

/-- **A reference is written as each of its spellings**, without the liberties of the spelling. -/
theorem chars_reference : s.reference.chars = s.canonical := by
  have row : Nat.ofDigitChars 10 s.digits 0 ≠ 0 := Nat.ne_of_gt s.row.1
  rw [canonical, dropWhile_zeros s.digit, if_neg row, ← columnLetters_columnValue s.alpha,
    ← SheetSpelling.sheetPart_sheet]
  rfl

theorem ne_of_mem_coordinates {c : Char} (h : c ∈ s.coordinates) : c ≠ '!' ∧ c ≠ '\'' := by
  have kind : c = '$' ∨ c.isAlpha = true ∨ c.isDigit = true := by
    have pinned : ∀ fixed : Bool, c ∈ pin fixed → c = '$' := by
      intro fixed h
      cases fixed
      · exact absurd h nofun
      · exact List.mem_singleton.mp h
    rw [coordinates] at h
    rcases List.mem_append.mp h with h | h
    · rcases List.mem_append.mp h with h | h
      · exact Or.inl (pinned _ h)
      · exact Or.inr (Or.inl (s.alpha c h))
    · rcases List.mem_append.mp h with h | h
      · exact Or.inl (pinned _ h)
      · exact Or.inr (Or.inr (s.digit c h))
  constructor <;> rintro rfl <;> exact absurd kind (by decide)

theorem readCoordinates?_coordinates :
    readCoordinates? s.coordinates = some (s.reference.onSheet ()) := by
  have letters : s.letters ≠ [] := columnValue_pos_iff.mp s.column.1
  have digits : s.digits ≠ [] := by
    intro none
    have row := s.row.1
    rw [none] at row
    exact absurd row (by decide)
  have noPin : '$' ∉ (s.letters ++ (pin s.fixedRow ++ s.digits)).head? := by
    intro head
    rw [List.head?_append, Option.or_of_isSome (by simpa using letters)] at head
    exact absurd (s.alpha '$' (List.mem_of_mem_head? head)) (by decide)
  have after : ∀ c ∈ (pin s.fixedRow ++ s.digits).head?, c.isAlpha = false := by
    intro c hc
    cases fixed : s.fixedRow with
    | true =>
      rw [fixed] at hc
      cases hc
      decide
    | false =>
      rw [fixed] at hc
      exact not_isAlpha_of_isDigit (s.digit c (List.mem_of_mem_head? hc))
  have cut := takeWhile_append_of_head s.alpha after
  have row : '$' ∉ s.digits.head? := fun head =>
    absurd (s.digit '$' (List.mem_of_mem_head? head)) (by decide)
  have read : readRow? s.digits = some (Nat.ofDigitChars 10 s.digits 0) := by
    simp [readRow?, digits, s.row, List.all_eq_true.mpr s.digit]
  rw [readCoordinates?, coordinates, List.append_assoc, pin, splitPin_pin _ noPin]
  simp only [cut.1, cut.2]
  rw [pin, splitPin_pin _ row, (columnOfLetters?_eq_some_iff s.alpha).mpr ⟨rfl, s.column⟩]
  simp only [read]
  rfl

end Spelling

theorem pin_splitPin (cs : List Char) : pin (splitPin cs).1 ++ (splitPin cs).2 = cs := by
  rw [splitPin.eq_def]
  split <;> rfl

/-- **Coordinates that are read are those of a spelling**, whatever stands in front. -/
theorem exists_of_readCoordinates? {cs : List Char} {r : Reference Unit}
    (h : readCoordinates? cs = some r) (front : SheetSpelling) :
    ∃ s : Spelling, s.front = front ∧ s.coordinates = cs ∧ s.reference.onSheet () = r := by
  have whole := pin_splitPin cs
  rw [readCoordinates?] at h
  generalize splitPin cs = first at h whole
  obtain ⟨fixedCol, inner⟩ := first
  obtain ⟨col, readCol, h⟩ := Option.bind_eq_some_iff.mp h
  have rest := pin_splitPin (inner.dropWhile Char.isAlpha)
  generalize splitPin (inner.dropWhile Char.isAlpha) = second at h rest
  obtain ⟨fixedRow, digits⟩ := second
  obtain ⟨row, readRow, h⟩ := Option.bind_eq_some_iff.mp h
  cases h
  have alpha : ∀ c ∈ inner.takeWhile Char.isAlpha, c.isAlpha = true := fun c hc =>
    List.mem_takeWhile_imp hc
  obtain ⟨rfl, column⟩ := (columnOfLetters?_eq_some_iff alpha).mp readCol
  simp only [readRow?, Option.ite_none_right_eq_some, Bool.and_eq_true, decide_eq_true_eq,
    Option.some.injEq, List.all_eq_true] at readRow
  obtain ⟨⟨⟨⟨-, digit⟩, positive⟩, fits⟩, rfl⟩ := readRow
  refine ⟨⟨front, fixedCol, _, fixedRow, digits, alpha, digit, column, positive, fits⟩, rfl, ?_, rfl⟩
  show pin fixedCol ++ inner.takeWhile Char.isAlpha ++ (pin fixedRow ++ digits) = cs
  rw [rest, List.append_assoc, List.takeWhile_append_dropWhile, whole]

/-- **Every spelling is read** as what it says. -/
theorem Reference.ofChars_spelling (s : Spelling) : Reference.ofChars s.chars = .ok s.reference := by
  have split : splitSheet? s.chars = some (s.front.sheet, s.coordinates) :=
    s.front.splitSheet?_chars (fun h => (s.ne_of_mem_coordinates h).1 rfl)
      (fun h => (s.ne_of_mem_coordinates h).2 rfl)
  rw [Reference.ofChars, split]
  dsimp only
  rw [s.readCoordinates?_coordinates]
  rfl

/-- **Every text that is read is a spelling.** -/
theorem Reference.exists_spelling {cs : List Char} {r : WrittenReference}
    (h : Reference.ofChars cs = .ok r) : ∃ s : Spelling, s.chars = cs ∧ s.reference = r := by
  rw [Reference.ofChars] at h
  split at h
  · cases h
  · rename_i sheet rest split
    obtain ⟨front, rfl, rfl⟩ := exists_of_splitSheet? split
    split at h
    · cases h
    · rename_i r' read
      obtain ⟨s, rfl, rfl, rfl⟩ := exists_of_readCoordinates? read front
      cases h
      exact ⟨s, rfl, rfl⟩

/-- **The texts of references.**  A reference or range with coordinates from 1 on that fit 64 bits is
read as it was written, with any sheet in front or none.  The texts that are read as a reference are
the spellings, and each is read as what it says; this is written back in capital letters, without zeros
in front of the row and with apostrophes only where the name of the sheet needs them. -/
theorem Reference.ofChars_eq_ok_iff_spelling :
    (∀ r : WrittenReference, r.Positive → r.Fits → Reference.ofChars r.chars = .ok r) ∧
      (∀ r : WrittenRange, r.Positive → r.Fits → r.stop.sheet = r.start.sheet →
        Range.ofChars r.chars = .ok r) ∧
      (∀ (cs : List Char) (r : WrittenReference),
        Reference.ofChars cs = .ok r ↔ ∃ s : Spelling, s.chars = cs ∧ s.reference = r) ∧
      ∀ s : Spelling, s.reference.chars = s.canonical := by
  refine ⟨?_, ?_, ?_, Spelling.chars_reference⟩
  · intro r positive fits
    rw [Reference.ofChars_chars positive, if_pos fits]
  · intro r positive fits same
    rw [Range.ofChars_chars positive same, if_pos fits]
  · intro cs r
    constructor
    · exact Reference.exists_spelling
    · rintro ⟨s, rfl, rfl⟩
      exact Reference.ofChars_spelling s

/-- The last cell that can be written, a range on a sheet with marks and apostrophes in its name, and a
text with every liberty. -/
theorem Reference.ofChars_eq_ok_iff_spelling_liberties :
    let last : WrittenReference :=
      { sheet := some "", row := 18446744073709551615, col := 18446744073709551615, fixedRow := true }
    let range : WrittenRange :=
      ⟨{ sheet := some "'a'!b:", row := 7, col := 28 },
        { sheet := some "'a'!b:", row := 2, col := 1, fixedCol := true }⟩
    let cell : WrittenReference := { sheet := some "Rates.1", row := 70, col := 28, fixedRow := true }
    Reference.ofChars last.chars = .ok last ∧ Range.ofChars range.chars = .ok range ∧
      Reference.ofChars "'Rates.1'!aB$0070".toList = .ok cell ∧
      cell.chars = "Rates.1!AB$70".toList := by
  intro last range cell
  have letters : ∀ c ∈ ['a', 'B'], c.isAlpha = true := List.all_eq_true.mp rfl
  have digits : ∀ c ∈ "0070".toList, c.isDigit = true := List.all_eq_true.mp (by decide)
  have spelled : "'Rates.1'!aB$0070".toList = Spelling.chars
      ⟨.quoted "Rates.1".toList, false, ['a', 'B'], true, "0070".toList, letters, digits, by decide,
        by decide⟩ := rfl
  refine ⟨ofChars_eq_ok_iff_spelling.1 last (by decide) (by decide),
    ofChars_eq_ok_iff_spelling.2.1 range (by decide) (by decide) rfl,
    (ofChars_eq_ok_iff_spelling.2.2.1 _ cell).mpr ⟨_, spelled.symm, rfl⟩, ?_⟩
  exact (ofChars_eq_ok_iff_spelling.2.2.2 ⟨.quoted "Rates.1".toList, false, ['a', 'B'], true,
    "0070".toList, letters, digits, by decide, by decide⟩).trans rfl

end Spreadsheet
