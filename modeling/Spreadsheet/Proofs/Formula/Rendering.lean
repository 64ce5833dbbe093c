import Mathlib.Tactic.Tauto
import Spreadsheet.Proofs.Formula.Leaves
import Spreadsheet.Proofs.Formula.Lexing

/-!
# The text of a reference in a formula

A reference or range that is written into a formula is read as one token, the one that was written,
if nothing follows that would make the word longer.

* `Mention.Writable m`: the reference or range has coordinates counted from 1, one sheet, and a name
  in front that can be told from the coordinates.
* `Mention.readWhole_text`: its text is read as a whole.
* `Mention.referenceToken_text`: what is read is the reference or range itself, if it fits 64 bits.
-/

namespace Spreadsheet.Formula

/-! ### The characters of words -/

def isInner (c : Char) : Bool :=
  c.isAlpha || c.isDigit || c == '$' || c == '_' || c == '.' || c == ':'

theorem bounds_of_isInner {c : Char} (h : isInner c = true) : 36 ≤ c.toNat ∧ c.toNat ≤ 122 := by
  simp only [isInner, Bool.or_eq_true, beq_iff_eq] at h
  rcases h with ((((h | h) | rfl) | rfl) | rfl) | rfl
  · rw [isAlpha_iff] at h
    omega
  · rw [Char.isDigit_iff_toNat] at h
    simp at h
    omega
  all_goals decide

theorem not_isBlank_of_isInner {c : Char} (h : isInner c = true) : Text.isBlank c = false := by
  obtain ⟨low, high⟩ := bounds_of_isInner h
  simp only [Text.isBlank, Bool.or_eq_false_iff, Bool.and_eq_false_iff, decide_eq_false_iff_not,
    beq_eq_false_iff_ne]
  omega

theorem ne_of_isInner {c d : Char} (h : isInner c = true) (hd : isInner d = false) :
    (c == d) = false := by
  rw [beq_eq_false_iff_ne]
  rintro rfl
  exact absurd (h.symm.trans hd) nofun

theorem beginsWord_of_isInner {c : Char} (h : isInner c = true) : beginsWord c = true := by
  have first : Operator.isFirstChar c = false := by
    rw [Bool.eq_false_iff]
    intro first
    obtain ⟨op, -, spelled⟩ := List.any_eq_true.mp first
    have all : ∀ op : Operator, op.spelling.toList.head?.all (fun d => !isInner d) = true := by
      intro op
      cases op <;> decide
    have outer := all op
    rw [eq_of_beq spelled] at outer
    simp [h] at outer
  simp [beginsWord, first, ne_of_isInner h (d := '(') (by decide),
    ne_of_isInner h (d := ')') (by decide), ne_of_isInner h (d := ',') (by decide),
    ne_of_isInner h (d := '"') (by decide), ne_of_isInner h (d := '\'') (by decide)]

theorem not_endsWord_of_isInner {c : Char} (h : isInner c = true) (cs : List Char) :
    endsWord c cs = false := by
  have noBreak : isBreak c = false := by
    rw [Bool.eq_false_iff, isBreak]
    intro mem
    have all : (" ),*/+-><=^".toList.all fun d => !isInner d) = true := by decide
    have outer := List.all_eq_true.mp all c (List.contains_iff_mem.mp mem)
    simp [h] at outer
  simp [endsWord, not_isBlank_of_isInner h, noBreak, ne_of_isInner h (d := '(') (by decide),
    ne_of_isInner h (d := '"') (by decide), ne_of_isInner h (d := '\'') (by decide),
    ne_of_isInner h (d := '!') (by decide)]

theorem wordLength_append {word : List Char} (h : ∀ c ∈ word, isInner c = true) (rest : List Char) :
    wordLength (word ++ rest) = word.length + wordLength rest := by
  induction word with
  | nil => simp
  | cons c word ih =>
    have inner : isInner c = true := h c List.mem_cons_self
    rw [List.cons_append, wordLength, if_neg (by simp [not_endsWord_of_isInner inner]),
      ih fun d hd => h d (List.mem_cons_of_mem _ hd), List.length_cons]
    omega

theorem wordLength_mark {c : Char} (h : c ≠ '=') (cs : List Char) :
    wordLength ('!' :: c :: cs) = wordLength (c :: cs) + 1 := by
  have inner : endsWord '!' (c :: cs) = false := by
    have blank : Text.isBlank '!' = false := by decide
    have noBreak : isBreak '!' = false := by decide
    simp [endsWord, blank, noBreak, h]
  rw [wordLength, if_neg (by simp [inner])]

/-! ### Words and names in apostrophes -/

theorem readToken_word {c : Char} {cs : List Char} (begins : beginsWord c = true)
    (paren : '(' ∉ (cs.drop (wordLength cs)).head?) (due : Bool) (position : Nat) :
    readToken due position c cs =
      (wordToken (c :: cs.take (wordLength cs))).map (·, wordLength cs) := by
  obtain ⟨notFirst, notMinus⟩ := plain_of_beginsWord begins
  simp only [beginsWord, Bool.not_eq_true', Bool.or_eq_false_iff] at begins
  have notParen : ¬ (cs.drop (wordLength cs)).head? = some '(' := paren
  rw [List.head?_drop] at notParen
  rw [readToken]
  cases read : wordToken (c :: cs.take (wordLength cs)) <;>
    simp [begins, notMinus, notParen, read, bind, Except.bind, pure, Except.pure, Except.map]

theorem readToken_quoted {cs rest : List Char} {n : Nat} (length : quotedNameLength? cs = some n)
    (mark : cs.drop n = '!' :: rest) (due : Bool) (position : Nat) :
    readToken due position '\'' cs =
      (referenceToken ('\'' :: cs.take (n + 1 + wordLength rest))).map
        (·, n + 1 + wordLength rest) := by
  rw [readToken]
  cases read : referenceToken ('\'' :: cs.take (n + 1 + wordLength rest)) <;>
    simp [length, mark, read, bind, Except.bind, pure, Except.pure, Except.map]

theorem quotedNameLength?_doubleApostrophes (name : List Char) {rest : List Char}
    (h : '\'' ∉ rest.head?) : quotedNameLength? (doubleApostrophes name ++ '\'' :: rest) =
      some ((doubleApostrophes name).length + 1) := by
  induction name with
  | nil =>
    cases rest with
    | nil => rfl
    | cons c cs =>
      have other : c ≠ '\'' := fun same => h (same ▸ rfl)
      simp [doubleApostrophes, quotedNameLength?, other]
  | cons c cs ih =>
    rw [doubleApostrophes]
    split
    · rename_i same
      rw [List.cons_append, List.cons_append, quotedNameLength?, ih]
      rfl
    · rename_i other
      rw [beq_iff_eq] at other
      rw [List.cons_append, quotedNameLength?, ih]
      · rfl
      · exact fun _ same _ => other same
      · exact other

/-! ### References in formulas -/

namespace Mention

def coordinates : Mention → List Char
  | cell r => r.a1Chars
  | range r => r.start.a1Chars ++ ':' :: r.stop.a1Chars

/-- All coordinates are counted from 1. -/
def Positive : Mention → Prop
  | cell r => r.Positive
  | range r => r.Positive

instance : DecidablePred Positive
  | cell r => inferInstanceAs (Decidable r.Positive)
  | range r => inferInstanceAs (Decidable r.Positive)

/-- All coordinates fit 64 bits. -/
def Fits : Mention → Prop
  | cell r => r.Fits
  | range r => r.Fits

instance : DecidablePred Fits
  | cell r => inferInstanceAs (Decidable r.Fits)
  | range r => inferInstanceAs (Decidable r.Fits)

/-- A reference or range that can be told apart from what stands around it. -/
structure Writable (m : Mention) : Prop where
  positive : m.Positive
  /-- Both corners of a range are on one sheet. -/
  sheets : ∀ r, m = .range r → r.stop.sheet = r.start.sheet
  /-- The name in front of a reference has no colon, which is for ranges. -/
  name : ∀ r, m = .cell r → ∀ name, r.sheet = some name → ':' ∉ name.toList

theorem toList_text (m : Mention) :
    m.text.toList = sheetPart m.writtenSheet ++ m.coordinates := by
  cases m with
  | cell r => exact String.toList_ofList
  | range r => exact String.toList_ofList

end Mention

theorem isInner_of_mem_a1Chars {S : Type} (r : Reference S) {c : Char} (h : c ∈ r.a1Chars) :
    isInner c = true := by
  rcases r.of_mem_a1Chars h with rfl | alpha | digit
  · decide
  · simp [isInner, alpha]
  · simp [isInner, digit]

theorem exists_digit_a1Chars {S : Type} (r : Reference S) : ∃ c ∈ r.a1Chars, c.isDigit = true := by
  obtain ⟨c, cs, digits⟩ := List.exists_cons_of_ne_nil (Nat.toDigits_ne_nil (n := r.row) (b := 10))
  have mem : c ∈ Nat.toDigits 10 r.row := digits ▸ List.mem_cons_self
  refine ⟨c, ?_, Nat.isDigit_of_mem_toDigits (by decide) (by decide) mem⟩
  rw [Reference.a1Chars]
  simp [mem]

theorem head_a1Chars {S : Type} {r : Reference S} (positive : r.Positive) :
    ∃ c cs, r.a1Chars = c :: cs ∧ beginsNumber c = false := by
  rw [Reference.a1Chars]
  cases fixed : r.fixedCol with
  | true => exact ⟨'$', _, rfl, by decide⟩
  | false =>
    obtain ⟨c, cs, letters⟩ := List.exists_cons_of_ne_nil (columnLetters_ne_nil positive.2)
    have alpha : c.isAlpha = true :=
      isAlpha_of_mem_columnLetters r.col c (letters ▸ List.mem_cons_self)
    refine ⟨c, _, by rw [letters]; rfl, ?_⟩
    rw [beginsNumber, Bool.or_eq_false_iff, beq_eq_false_iff_ne]
    refine ⟨Bool.eq_false_iff.mpr fun digit => ?_, ?_⟩
    · cases alpha.symm.trans (not_isAlpha_of_isDigit digit)
    · rintro rfl
      exact absurd alpha (by decide)

def ReadWhole (text : List Char) : Prop :=
  ∃ c cs, text = c :: cs ∧ Text.isBlank c = false ∧ c ≠ '=' ∧ c ≠ '>' ∧
    ∀ rest : List Char, wordLength rest = 0 → '(' ∉ rest.head? → ∀ due position,
      readToken due position c (cs ++ rest) = (wordToken (c :: cs)).map (·, cs.length)

namespace Mention

theorem coordinates_inner (m : Mention) : ∀ c ∈ m.coordinates, isInner c = true := by
  intro c hc
  cases m with
  | cell r => exact isInner_of_mem_a1Chars r hc
  | range r =>
    rcases List.mem_append.mp hc with hc | hc
    · exact isInner_of_mem_a1Chars r.start hc
    · rcases List.mem_cons.mp hc with rfl | hc
      · decide
      · exact isInner_of_mem_a1Chars r.stop hc

theorem exists_digit_coordinates (m : Mention) : ∃ c ∈ m.coordinates, c.isDigit = true := by
  cases m with
  | cell r => exact exists_digit_a1Chars r
  | range r =>
    obtain ⟨c, hc, digit⟩ := exists_digit_a1Chars r.start
    exact ⟨c, List.mem_append_left _ hc, digit⟩

theorem exists_coordinates (m : Mention) : ∃ c cs, m.coordinates = c :: cs := by
  obtain ⟨c, mem, -⟩ := m.exists_digit_coordinates
  exact List.exists_cons_of_ne_nil (List.ne_nil_of_mem mem)

theorem head_coordinates {m : Mention} (positive : m.Positive) :
    ∃ c cs, m.coordinates = c :: cs ∧ beginsNumber c = false := by
  cases m with
  | cell r => exact head_a1Chars positive
  | range r =>
    obtain ⟨c, cs, letters, notNumber⟩ := head_a1Chars positive.1
    refine ⟨c, cs ++ ':' :: r.stop.a1Chars, ?_, notNumber⟩
    rw [coordinates, letters, List.cons_append]

/-- A name in front of a reference begins with a letter or an apostrophe. -/
theorem head_sheetPart (name : String) :
    ∃ c cs, sheetPart (some name) = c :: cs ∧ beginsNumber c = false := by
  rw [sheetPart, writtenName]
  split
  · rename_i plain
    cases chars : name.toList with
    | nil =>
      rw [chars] at plain
      cases plain
    | cons c cs =>
      rw [chars, isPlainName, Bool.and_eq_true] at plain
      refine ⟨c, cs ++ ['!'], rfl, ?_⟩
      rw [beginsNumber, Bool.or_eq_false_iff, beq_eq_false_iff_ne]
      refine ⟨Bool.eq_false_iff.mpr fun digit => ?_, ?_⟩
      · cases plain.1.symm.trans (not_isAlpha_of_isDigit digit)
      · rintro rfl
        exact absurd plain.1 (by decide)
  · exact ⟨'\'', doubleApostrophes name.toList ++ ['\''] ++ ['!'], rfl, by decide⟩

theorem head_text {m : Mention} (positive : m.Positive) :
    ∃ c cs, m.text.toList = c :: cs ∧ beginsNumber c = false := by
  rw [toList_text]
  cases m.writtenSheet with
  | none => exact head_coordinates positive
  | some name =>
    obtain ⟨c, cs, front, first⟩ := head_sheetPart name
    exact ⟨c, cs ++ m.coordinates, by rw [front, List.cons_append], first⟩

/-- The text of a reference is no truth value, and no number if it does not begin like one. -/
theorem wordToken_of_head {m : Mention} {c : Char} {cs : List Char} (text : m.text.toList = c :: cs)
    (notNumber : beginsNumber c = false) : wordToken (c :: cs) = referenceToken (c :: cs) := by
  obtain ⟨d, mem, digit⟩ := m.exists_digit_coordinates
  have inText : d ∈ c :: cs := by
    rw [← text, toList_text]
    exact List.mem_append_right _ mem
  have notWord : ∀ word : List Char, word.all (fun d => !d.isDigit) = true →
      (Text.capitals (c :: cs) == word) = false := by
    intro word noDigit
    rw [beq_eq_false_iff_ne]
    rintro rfl
    have upper : d.toUpper ∈ Text.capitals (c :: cs) := List.mem_map_of_mem inText
    have same : d.toUpper = d := by
      rw [Char.isDigit_iff_toNat] at digit
      refine dif_neg ?_
      rintro ⟨low, -⟩
      rw [UInt32.le_iff_toNat_le] at low
      have value : d.toNat = d.val.toNat := rfl
      simp at low digit
      omega
    rw [same] at upper
    have := List.all_eq_true.mp noDigit d upper
    simp [digit] at this
  have first : (List.head? (c :: cs)).any beginsNumber = false := notNumber
  rw [wordToken, first, notWord "TRUE".toList (by decide), notWord "FALSE".toList (by decide)]
  simp

theorem wordToken_text {m : Mention} (positive : m.Positive) :
    wordToken m.text.toList = referenceToken m.text.toList := by
  obtain ⟨c, cs, text, first⟩ := head_text positive
  rw [text]
  exact wordToken_of_head text first

theorem readWhole_of_word {m : Mention} {c : Char} {cs : List Char}
    (text : m.text.toList = c :: cs) (inner : isInner c = true)
    (long : ∀ rest, wordLength rest = 0 → wordLength (cs ++ rest) = cs.length) :
    ReadWhole m.text.toList := by
  have plain : ∀ e, isInner e = false → c ≠ e := by
    rintro e outer rfl
    exact absurd (inner.symm.trans outer) nofun
  refine ⟨c, cs, text, not_isBlank_of_isInner inner, plain _ (by decide), plain _ (by decide), ?_⟩
  intro rest ends paren due position
  have whole : (cs ++ rest).drop (wordLength (cs ++ rest)) = rest := by
    rw [long rest ends, List.drop_left]
  rw [readToken_word (beginsWord_of_isInner inner) (by rwa [whole]), long rest ends, List.take_left]

theorem readWhole_of_plain {m : Mention} {name : String}
    (sheet : m.writtenSheet = some name) (plain : isPlainName name.toList = true) :
    ReadWhole m.text.toList := by
  obtain ⟨d, ds, letters⟩ := m.exists_coordinates
  have inner : ∀ e ∈ m.coordinates, isInner e = true := m.coordinates_inner
  cases chars : name.toList with
  | nil =>
    rw [chars] at plain
    cases plain
  | cons c cs =>
    have text : m.text.toList = c :: (cs ++ '!' :: m.coordinates) := by
      rw [toList_text, sheet, sheetPart, writtenName, if_pos plain, chars]
      simp
    rw [chars, isPlainName, Bool.and_eq_true, List.all_eq_true] at plain
    obtain ⟨alpha, tail⟩ := plain
    have innerName : ∀ e ∈ cs, isInner e = true := by
      intro e he
      have kind := tail e he
      simp only [Char.isAlphanum, Bool.or_eq_true, beq_iff_eq] at kind
      simp only [isInner, Bool.or_eq_true, beq_iff_eq]
      tauto
    have notEquals : d ≠ '=' := by
      rintro rfl
      exact absurd (inner '=' (letters ▸ List.mem_cons_self)) (by decide)
    refine readWhole_of_word text (by simp [isInner, alpha]) fun rest ends => ?_
    rw [List.append_assoc, wordLength_append innerName, List.cons_append, letters,
      List.cons_append, wordLength_mark notEquals, ← List.cons_append, ← letters,
      wordLength_append inner, ends]
    simp

theorem readWhole_of_quoted {m : Mention} {name : String} (sheet : m.writtenSheet = some name)
    (notPlain : ¬ isPlainName name.toList = true) : ReadWhole m.text.toList := by
  let quoted := doubleApostrophes name.toList
  have text : m.text.toList = '\'' :: (quoted ++ '\'' :: '!' :: m.coordinates) := by
    rw [toList_text, sheet, sheetPart, writtenName, if_neg notPlain]
    simp [quoted]
  refine ⟨'\'', quoted ++ '\'' :: '!' :: m.coordinates, text, by decide, by decide, by decide, ?_⟩
  · intro rest ends _ due position
    have length : quotedNameLength? (quoted ++ '\'' :: '!' :: (m.coordinates ++ rest)) =
        some (quoted.length + 1) :=
      quotedNameLength?_doubleApostrophes name.toList (by simp)
    have mark : (quoted ++ '\'' :: '!' :: (m.coordinates ++ rest)).drop (quoted.length + 1) =
        '!' :: (m.coordinates ++ rest) := by
      rw [List.drop_append]
      simp
    have long : wordLength (m.coordinates ++ rest) = m.coordinates.length := by
      rw [wordLength_append m.coordinates_inner, ends]
      rfl
    have joined : quoted ++ '\'' :: '!' :: m.coordinates ++ rest =
        quoted ++ '\'' :: '!' :: (m.coordinates ++ rest) := by simp
    have total : quoted.length + 1 + 1 + m.coordinates.length =
        (quoted ++ '\'' :: '!' :: m.coordinates).length := by
      simp
      omega
    rw [joined, readToken_quoted length mark, long, total, ← joined, List.take_left,
      wordToken_of_head text (by decide)]

/-- **The text of a reference is read as a whole.** -/
theorem readWhole_text (m : Mention) : ReadWhole m.text.toList := by
  cases sheet : m.writtenSheet with
  | none =>
    obtain ⟨d, ds, letters⟩ := m.exists_coordinates
    have inner : ∀ e ∈ d :: ds, isInner e = true := fun e he => m.coordinates_inner e (letters ▸ he)
    have text : m.text.toList = d :: ds := by rw [toList_text, sheet, letters]; rfl
    refine readWhole_of_word text (inner d List.mem_cons_self) fun rest ends => ?_
    rw [wordLength_append fun e he => inner e (List.mem_cons_of_mem _ he), ends]
    rfl
  | some name =>
    by_cases plain : isPlainName name.toList = true
    · exact readWhole_of_plain sheet plain
    · exact readWhole_of_quoted sheet plain

theorem colon_not_mem_sheetPart {sheet : Option String}
    (h : ∀ name, sheet = some name → ':' ∉ name.toList) : ':' ∉ sheetPart sheet := by
  cases sheet with
  | none => exact List.not_mem_nil
  | some name =>
    rw [sheetPart, writtenName]
    split <;> simp [mem_doubleApostrophes, h name rfl]

/-- **What is read is what was written**, if it fits 64 bits. -/
theorem referenceToken_text {m : Mention} (writable : m.Writable) :
    (m.Fits → referenceToken m.text.toList = .ok m.token) ∧
      (¬ m.Fits → ∃ e, referenceToken m.text.toList = .error e) := by
  have text := m.toList_text
  cases m with
  | cell r =>
    have noColon := colon_not_mem_sheetPart (writable.name r rfl)
    have cellText : (Mention.cell r).text.toList = r.chars := text
    have none : r.chars.contains ':' = false := by
      rw [Bool.eq_false_iff, ne_eq, List.contains_iff_mem]
      intro mem
      rcases List.mem_append.mp mem with mem | mem
      · exact noColon mem
      · exact r.plain_a1Chars.2.2 mem
    rw [cellText, referenceToken, none, Reference.ofChars_chars writable.positive]
    constructor
    · intro fits
      have fits : r.Fits := fits
      rw [if_pos fits]
      rfl
    · intro large
      have large : ¬ r.Fits := large
      rw [if_neg large]
      exact ⟨_, rfl⟩
  | range r =>
    have rangeText : (Mention.range r).text.toList = r.chars := text
    have some : r.chars.contains ':' = true := by
      rw [List.contains_iff_mem, Range.chars]
      simp
    rw [rangeText, referenceToken, some,
      Range.ofChars_chars writable.positive (writable.sheets r rfl)]
    constructor
    · intro fits
      have fits : r.Fits := fits
      rw [if_pos fits]
      rfl
    · intro large
      have large : ¬ r.Fits := large
      rw [if_neg large]
      exact ⟨_, rfl⟩

end Mention

end Spreadsheet.Formula
