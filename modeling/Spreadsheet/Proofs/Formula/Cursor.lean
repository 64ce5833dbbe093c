import Spreadsheet.Formula.Cursor
import Spreadsheet.Proofs.Formula.Splicing
import Spreadsheet.Proofs.Reference.Spelling

/-!
# Reading by positions never breaks down

Every cut that is made while a formula is read goes between two characters, and every turn comes
closer to the end.  So reading by positions gives what reading by characters gives, or the same error.

* `utf8EncodeChar_eq_cons`: letters, digits and marks are bytes of their own, and no byte of another
  character is taken for one of them.
* `seekCoordinates_eq`, `seekSheet_eq`: the parts of a reference.
* `seekToken_eq`: one token, with the position behind it.
* `turn_blank`, `turn_token`: one turn.
* `run_eq`, `seekLexemes_eq`: all turns.
-/

namespace Spreadsheet

/-! ### Coordinates byte by byte -/

/-- A character is a byte of its own, or begins with a byte that is none. -/
theorem utf8EncodeChar_eq_cons (c : Char) : ∃ b bs, String.utf8EncodeChar c = b :: bs ∧
    (c.toNat ≤ 127 ∧ bs = [] ∧ b.toNat = c.toNat ∨ 127 < c.toNat ∧ 192 ≤ b.toNat) := by
  have above : ∀ x y : UInt8, y.toNat ≤ (x ||| y).toNat := fun x y => by
    rw [UInt8.toNat_or]
    exact Nat.right_le_or
  have plain : c.utf8Size = 1 ↔ c.toNat ≤ 127 := by
    rw [Char.utf8Size_eq_one_iff, UInt32.le_iff_toNat_le]
    rfl
  have wide : c.utf8Size ≠ 1 → 127 < c.toNat := fun long =>
    Nat.lt_of_not_le fun small => long (plain.mpr small)
  rcases c.utf8Size_eq with size | size | size | size
  · have small := plain.mp size
    have fits : c.toNat < 256 := by omega
    exact ⟨_, _, String.utf8EncodeChar_eq_singleton size, Or.inl ⟨small, rfl, Nat.mod_eq_of_lt fits⟩⟩
  · exact ⟨_, _, String.utf8EncodeChar_eq_cons_cons size, Or.inr ⟨wide (by omega), above _ 0xc0⟩⟩
  · exact ⟨_, _, String.utf8EncodeChar_eq_cons_cons_cons size,
      Or.inr ⟨wide (by omega), le_trans (by decide) (above _ 0xe0)⟩⟩
  · exact ⟨_, _, String.utf8EncodeChar_eq_cons_cons_cons_cons size,
      Or.inr ⟨wide (by omega), le_trans (by decide) (above _ 0xf0)⟩⟩

theorem isLetterByte_iff_toNat (b : UInt8) :
    isLetterByte b = true ↔ 0x41 ≤ b.toNat ∧ b.toNat ≤ 0x5A ∨ 0x61 ≤ b.toNat ∧ b.toNat ≤ 0x7A := by
  simp only [isLetterByte, Bool.or_eq_true, Bool.and_eq_true, decide_eq_true_eq,
    UInt8.le_iff_toNat_le]
  rfl

theorem beq_pinByte_iff (b : UInt8) : (b == pinByte) = true ↔ b.toNat = 0x24 := by
  rw [beq_iff_eq, ← UInt8.toNat_inj]
  rfl

theorem beq_pin_iff (c : Char) : (c == '$') = true ↔ c.toNat = 0x24 := by
  rw [beq_iff_eq, ← Char.toNat_inj]
  rfl

theorem exists_first_byte (c : Char) : ∃ b bs, String.utf8EncodeChar c = b :: bs ∧
    isLetterByte b = c.isAlpha ∧ (b == pinByte) = (c == '$') ∧
    (c.isAlpha = true → bs = []) ∧ (c = '$' → bs = []) := by
  obtain ⟨b, bs, encoded, first⟩ := utf8EncodeChar_eq_cons c
  refine ⟨b, bs, encoded, ?_, ?_, ?_, ?_⟩
  · rw [Bool.eq_iff_iff, isLetterByte_iff_toNat, isAlpha_iff]
    omega
  · rw [Bool.eq_iff_iff, beq_pinByte_iff, beq_pin_iff]
    omega
  · intro letter
    rw [isAlpha_iff] at letter
    rcases first with ⟨-, none, -⟩ | ⟨wide, -⟩
    · exact none
    · omega
  · rintro rfl
    rcases first with ⟨-, none, -⟩ | ⟨wide, -⟩
    · exact none
    · exact absurd wide (by decide)

theorem takeWhile_isLetterByte (cs : List Char) :
    (Text.bytes cs).takeWhile isLetterByte = Text.bytes (cs.takeWhile Char.isAlpha) := by
  induction cs with
  | nil => rfl
  | cons c cs ih =>
    obtain ⟨b, bs, encoded, letter, -, alone, -⟩ := exists_first_byte c
    rw [Text.bytes_cons, encoded, List.cons_append, List.takeWhile_cons, List.takeWhile_cons, letter]
    cases isLetter : c.isAlpha with
    | false => rfl
    | true =>
      rw [alone isLetter, List.nil_append, if_pos rfl, if_pos rfl, ih, Text.bytes_cons, encoded,
        alone isLetter]
      rfl

theorem getElem?_bytes (a b : List Char) :
    ((Text.bytes (a ++ b))[Text.byteLength a]? == some pinByte) = (b.head? == some '$') := by
  rw [Text.bytes_append, List.getElem?_append_right (by rw [Text.length_bytes]),
    Text.length_bytes, Nat.sub_self]
  cases b with
  | nil => rfl
  | cons c cs =>
    obtain ⟨b, bs, encoded, -, pin, -, -⟩ := exists_first_byte c
    rw [Text.bytes_cons, encoded]
    exact pin

theorem fst_splitPin (cs : List Char) : (splitPin cs).1 = (cs.head? == some '$') := by
  rw [splitPin.eq_def]
  split
  · rfl
  · rename_i other
    cases cs with
    | nil => rfl
    | cons c cs =>
      refine (beq_eq_false_iff_ne.mpr fun same => ?_).symm
      exact other cs (by rw [Option.some.inj same])

theorem byteLength_pin (fixed : Bool) : Text.byteLength (pin fixed) = if fixed then 1 else 0 := by
  cases fixed <;> rfl

theorem dropBytes?_pin (before digits : List Char) (fixed : Bool) :
    Text.dropBytes? (if fixed then Text.byteLength before + 1 else Text.byteLength before)
      (before ++ (pin fixed ++ digits)) = some digits := by
  have cut := Text.dropBytes?_append (before ++ pin fixed) digits
  rw [Text.byteLength_append, byteLength_pin, List.append_assoc] at cut
  rw [← cut]
  cases fixed <;> rfl

/-- **Coordinates are read byte by byte as they are character by character.** -/
theorem seekCoordinates_eq (cs : List Char) : seekCoordinates cs = some (readCoordinates? cs) := by
  rw [readCoordinates?]
  generalize first : splitPin cs = pinned
  obtain ⟨fixedCol, inner⟩ := pinned
  dsimp only
  generalize second : splitPin (inner.dropWhile Char.isAlpha) = pinned
  obtain ⟨fixedRow, digits⟩ := pinned
  have colPin := fst_splitPin cs
  have whole := pin_splitPin cs
  have rowPin := fst_splitPin (inner.dropWhile Char.isAlpha)
  have rest := pin_splitPin (inner.dropWhile Char.isAlpha)
  rw [first] at colPin whole
  rw [second] at rowPin rest
  dsimp only at colPin whole rowPin rest
  have start : ((Text.bytes cs)[0]? == some pinByte) = fixedCol := by
    rw [colPin]
    exact getElem?_bytes [] cs
  have letters : ((Text.bytes cs).drop (if fixedCol then 1 else 0)).takeWhile isLetterByte =
      Text.bytes (inner.takeWhile Char.isAlpha) := by
    rw [← byteLength_pin, ← whole, Text.bytes_append,
      List.drop_left' (Text.length_bytes _), takeWhile_isLetterByte]
  have parts : cs = pin fixedCol ++ (inner.takeWhile Char.isAlpha ++ (pin fixedRow ++ digits)) := by
    rw [rest, List.takeWhile_append_dropWhile, whole]
  have cut : Text.slice? cs (if fixedCol then 1 else 0)
      ((if fixedCol then 1 else 0) + Text.byteLength (inner.takeWhile Char.isAlpha)) =
      some (inner.takeWhile Char.isAlpha) := by
    rw [← byteLength_pin, parts]
    exact Text.slice?_append _ _ _
  have behind : ((Text.bytes cs)[(if fixedCol then 1 else 0) +
      Text.byteLength (inner.takeWhile Char.isAlpha)]? == some pinByte) = fixedRow := by
    rw [rowPin, ← byteLength_pin, ← Text.byteLength_append, parts, ← List.append_assoc,
      getElem?_bytes, rest]
  rw [seekCoordinates, start, letters, Text.length_bytes, cut, behind]
  have last := dropBytes?_pin (pin fixedCol ++ inner.takeWhile Char.isAlpha) digits fixedRow
  rw [List.append_assoc, ← parts, Text.byteLength_append, byteLength_pin] at last
  cases read : columnOfLetters? (inner.takeWhile Char.isAlpha) with
  | none => simp [read]
  | some col =>
    cases row : readRow? digits <;> simp [read, last, row]

/-! ### Names, texts and words -/

theorem indexedName?_of_ne {c : Char} (other : c ≠ '\'') (i : Nat) (cs : List (Nat × Char)) :
    indexedName? ((i, c) :: cs) = (indexedName? cs).map fun (name, i) => (c :: name, i) := by
  rw [indexedName?]
  · exact fun _ _ _ same => other same
  · exact other

theorem indexedName?_indexed (i : Nat) (cs : List Char) :
    (indexedName? (Text.indexed i cs) = none ∧ readQuotedName? cs = none ∧
      Formula.quotedNameLength? cs = none) ∨
    ∃ name before rest, cs = before ++ '\'' :: rest ∧
      indexedName? (Text.indexed i cs) = some (name, i + Text.byteLength before) ∧
      readQuotedName? cs = some (name, rest) ∧
      Formula.quotedNameLength? cs = some (before.length + 1) := by
  have one : '\''.utf8Size = 1 := by decide
  fun_induction Formula.quotedNameLength? cs generalizing i with
  | case1 => exact Or.inl ⟨rfl, rfl, rfl⟩
  | case2 cs ih =>
    rcases ih (i + 1 + 1) with
      ⟨indexed, read, length⟩ | ⟨name, before, rest, rfl, indexed, read, length⟩
    · refine Or.inl ⟨?_, ?_, ?_⟩
      · simp [Text.indexed, one, indexedName?, indexed]
      · simp [readQuotedName?, read]
      · simp [length]
    · refine Or.inr ⟨'\'' :: name, '\'' :: '\'' :: before, rest, rfl, ?_, ?_, ?_⟩
      · simp [Text.indexed, one, indexedName?, indexed]
        omega
      · simp [readQuotedName?, read]
      · simp [length]
  | case3 cs notDoubled =>
    refine Or.inr ⟨[], [], cs, rfl, ?_, ?_, rfl⟩
    · cases cs with
      | nil => rfl
      | cons d ds =>
        have single : d ≠ '\'' := fun same => notDoubled ds (same ▸ rfl)
        simp [Text.indexed, indexedName?, single]
    · cases cs with
      | nil => rfl
      | cons d ds => simp [readQuotedName?]
  | case4 c cs notDoubled notLast ih =>
    rcases ih (i + c.utf8Size) with
      ⟨indexed, read, length⟩ | ⟨name, before, rest, rfl, indexed, read, length⟩
    · refine Or.inl ⟨?_, ?_, ?_⟩
      · rw [Text.indexed, indexedName?_of_ne notLast, indexed, Option.map_none]
      · simp [readQuotedName?, read]
      · simp [length]
    · refine Or.inr ⟨c :: name, c :: before, rest, rfl, ?_, ?_, ?_⟩
      · rw [Text.indexed, indexedName?_of_ne notLast, indexed, Option.map_some, Nat.add_assoc]
        rfl
      · simp [readQuotedName?, read]
      · simp [length]

/-- **The sheet is cut off at a position as it is at a character.** -/
theorem seekSheet_eq (cs : List Char) : seekSheet cs = some (splitSheet? cs) := by
  rw [seekSheet.eq_def]
  split
  · rename_i quoted
    rw [splitSheet?]
    rcases indexedName?_indexed 0 quoted with
      ⟨indexed, read, -⟩ | ⟨name, before, rest, rfl, indexed, read, -⟩
    · rw [indexed, read]
    · have behind := Text.dropBytes?_append (before ++ ['\'']) rest
      rw [Text.byteLength_append, List.append_assoc] at behind
      replace behind : Text.dropBytes? (0 + Text.byteLength before + 1) (before ++ '\'' :: rest) =
        some rest := by rwa [Nat.zero_add]
      rw [indexed, read]
      dsimp only
      rw [behind]
      cases rest with
      | nil => rfl
      | cons c rest =>
        by_cases mark : c = '!'
        · rw [mark]
          rfl
        · simp [mark]
  · rfl

theorem seekReference_eq (cs : List Char) : seekReference cs = some (Reference.ofChars cs) := by
  rw [seekReference, seekSheet_eq, Reference.ofChars]
  cases splitSheet? cs with
  | none => rfl
  | some parts =>
    cases read : readCoordinates? parts.2 <;> simp [seekCoordinates_eq, read]

theorem seekRange_eq (cs : List Char) : seekRange cs = some (Range.ofChars cs) := by
  rw [seekRange, seekSheet_eq, Range.ofChars]
  cases splitSheet? cs with
  | none => rfl
  | some parts =>
    obtain ⟨sheet, rest⟩ := parts
    simp only [Option.bind_eq_bind, Option.bind_some]
    cases rest.dropWhile (· != ':') with
    | nil => rfl
    | cons mark second =>
      dsimp only
      split
      · rfl
      · rw [seekCoordinates_eq, seekCoordinates_eq]
        cases readCoordinates? (rest.takeWhile (· != ':')) with
        | none => rfl
        | some start => cases readCoordinates? second <;> rfl

namespace Formula

theorem indexedText?_of_ne {c : Char} (notQuote : c ≠ '"') (notEscape : c ≠ '\\') (i : Nat)
    (cs : List (Nat × Char)) :
    indexedText? ((i, c) :: cs) = (indexedText? cs).map fun (text, i) => (c :: text, i) := by
  rw [indexedText?]
  · exact notQuote
  · exact fun _ same => notEscape same
  · exact fun _ _ _ _ same => notEscape same

/-- A text literal ends at the same quote for both ways of reading. -/
theorem indexedText?_indexed (i : Nat) (cs : List Char) :
    (indexedText? (Text.indexed i cs) = none ∧ readText? cs = none) ∨
    ∃ text before rest, cs = before ++ '"' :: rest ∧
      indexedText? (Text.indexed i cs) = some (text, i + Text.byteLength before) ∧
      readText? cs = some (text, before.length + 1) := by
  fun_induction readText? cs generalizing i with
  | case1 => exact Or.inl ⟨rfl, rfl⟩
  | case2 cs => exact Or.inr ⟨[], [], cs, rfl, rfl, rfl⟩
  | case3 => exact Or.inl ⟨rfl, rfl⟩
  | case4 c cs ih =>
    rcases ih (i + '\\'.utf8Size + c.utf8Size) with
      ⟨indexed, read⟩ | ⟨text, before, rest, rfl, indexed, read⟩
    · refine Or.inl ⟨?_, ?_⟩
      · rw [Text.indexed, Text.indexed, indexedText?, indexed, Option.map_none]
      · rw [read, Option.map_none]
    · refine Or.inr ⟨c :: text, '\\' :: c :: before, rest, rfl, ?_, ?_⟩
      · rw [Text.indexed, Text.indexed, indexedText?, indexed, Option.map_some]
        simp [Nat.add_assoc]
      · rw [read, Option.map_some]
        rfl
  | case5 c cs notQuote notLast notFollowed ih =>
    have notEscape : c ≠ '\\' := by
      intro same
      cases cs with
      | nil => exact notLast same rfl
      | cons d ds => exact notFollowed d ds same rfl
    rcases ih (i + c.utf8Size) with ⟨indexed, read⟩ | ⟨text, before, rest, rfl, indexed, read⟩
    · refine Or.inl ⟨?_, ?_⟩
      · rw [Text.indexed, indexedText?_of_ne notQuote notEscape, indexed, Option.map_none]
      · rw [read, Option.map_none]
    · refine Or.inr ⟨c :: text, c :: before, rest, rfl, ?_, ?_⟩
      · rw [Text.indexed, indexedText?_of_ne notQuote notEscape, indexed, Option.map_some,
          Nat.add_assoc]
        rfl
      · rw [read, Option.map_some]
        rfl

theorem wordBreak?_indexed (i : Nat) (cs : List Char) :
    wordBreak? (Text.indexed i cs) = if wordLength cs < cs.length then
      some (i + Text.byteLength (cs.take (wordLength cs))) else none := by
  induction cs generalizing i with
  | nil => rfl
  | cons c cs ih =>
    rw [Text.indexed, wordBreak?, Text.map_snd_indexed, wordLength, ih]
    split
    · rfl
    · simp [Nat.add_assoc]

theorem seekWord_eq (before cs : List Char) :
    seekWord (before ++ cs) (Text.byteLength before) =
      some (Text.byteLength before + Text.byteLength (cs.take (wordLength cs))) := by
  rw [seekWord, Text.dropBytes?_append]
  simp only [Option.bind_eq_bind, Option.bind_some, wordBreak?_indexed, Nat.zero_add]
  by_cases inside : wordLength cs < cs.length
  · rw [if_pos inside]
    rfl
  · rw [if_neg inside, List.take_of_length_le (Nat.le_of_not_lt inside), ← Text.byteLength_append]
    rfl

theorem seekMention_eq (word : List Char) : seekMention word = .of (referenceToken word) := by
  rw [seekMention, referenceToken, seekRange_eq, seekReference_eq]
  split
  · cases Range.ofChars word <;> rfl
  · cases Reference.ofChars word <;> rfl

theorem seekPlain_eq (word : List Char) : seekPlain word = .of (wordToken word) := by
  rw [seekPlain]
  split
  · rename_i mention
    simp only [isMention, Bool.not_eq_true', Bool.or_eq_false_iff] at mention
    rw [seekMention_eq, wordToken, mention.1.1, mention.1.2, mention.2]
    rfl
  · rfl

/-! ### One token -/

namespace Seeking

variable {α β : Type}

theorem lift_bind (a : α) (next : α → Seeking β) :
    ((liftM (some a) : Seeking α) >>= next) = next a := rfl

theorem of_bind (answer : Except LexError α) (next : α → Seeking β) :
    (Seeking.of answer >>= next) =
      match answer with
      | .ok a => next a
      | .error e => .of (.error e) := by
  cases answer <;> rfl

end Seeking

section

variable (before cs : List Char) (c : Char)

theorem dropBytes?_behind (n : Nat) :
    Text.dropBytes? (Text.byteLength before + Text.byteLength (c :: cs.take n)) (before ++ c :: cs) =
      some (cs.drop n) := by
  have cut := Text.dropBytes?_append (before ++ c :: cs.take n) (cs.drop n)
  rwa [Text.byteLength_append, List.append_assoc, List.cons_append, List.take_append_drop] at cut

theorem slice?_behind (n : Nat) :
    Text.slice? (before ++ c :: cs) (Text.byteLength before)
      (Text.byteLength before + Text.byteLength (c :: cs.take n)) = some (c :: cs.take n) := by
  have cut := Text.slice?_append before (c :: cs.take n) (cs.drop n)
  rwa [List.cons_append, List.take_append_drop] at cut

theorem dropBytes?_succ {c : Char} (one : c.utf8Size = 1) :
    Text.dropBytes? (Text.byteLength before + 1) (before ++ c :: cs) = some cs := by
  have cut := dropBytes?_behind before cs c 0
  rwa [List.take_zero, Text.byteLength_cons, one] at cut

theorem byteLength_closing {mark : Char} (one : mark.utf8Size = 1) {inner rest : List Char}
    (same : cs = inner ++ mark :: rest) :
    Text.byteLength before + 1 + (0 + Text.byteLength inner) + 1 =
      Text.byteLength before + Text.byteLength (mark :: cs.take (inner.length + 1)) := by
  rw [same, List.append_cons, List.take_left' (by simp), Text.byteLength_cons, Text.byteLength_append,
    Text.byteLength_cons, one]
  simp only [Text.byteLength_nil]
  omega

theorem seekWord_behind {word : List Char} {n : Nat} (rest : cs.drop n = word) :
    seekWord (before ++ c :: cs) (Text.byteLength before + Text.byteLength (c :: cs.take n)) =
      some (Text.byteLength before + Text.byteLength (c :: cs.take (n + wordLength word))) := by
  have stop := seekWord_eq (before ++ c :: cs.take n) (cs.drop n)
  rw [Text.byteLength_append, List.append_assoc, List.cons_append, List.take_append_drop, rest] at stop
  rw [stop, List.take_add, rest, Nat.add_assoc, ← Text.byteLength_append, List.cons_append]

theorem seekWord_behind_mark {word : List Char} {n : Nat} (rest : cs.drop n = '!' :: word) :
    seekWord (before ++ c :: cs) (Text.byteLength before + Text.byteLength (c :: cs.take n) + 1) =
      some (Text.byteLength before + Text.byteLength (c :: cs.take (n + 1 + wordLength word))) := by
  have later : cs.drop (n + 1) = word := by
    rw [← List.drop_drop, rest, List.drop_succ_cons, List.drop_zero]
  rw [← seekWord_behind before cs c later, List.take_add, rest, ← List.cons_append,
    Text.byteLength_append]
  rfl

/-- The reference behind an apostrophe ends where it ends for the characters. -/
theorem seekQuoted_eq :
    seekQuoted (before ++ '\'' :: cs) (Text.byteLength before) = .of (
      match quotedNameLength? cs with
      | none => .error (.unterminatedName (Text.byteLength before))
      | some n =>
        match cs.drop n with
        | '!' :: rest => .ok (Text.byteLength before +
            Text.byteLength ('\'' :: cs.take (n + 1 + wordLength rest)))
        | _ => .error (.invalidToken (String.ofList ('\'' :: cs.take n)))) := by
  rw [seekQuoted, dropBytes?_succ before cs (by decide), Seeking.lift_bind]
  rcases indexedName?_indexed 0 cs with
    ⟨indexed, -, length⟩ | ⟨name, inner, rest, same, indexed, -, length⟩
  · rw [indexed, length]
    rfl
  · have dropped : cs.drop (inner.length + 1) = rest := by
      rw [same, List.append_cons, List.drop_left' (by simp)]
    rw [indexed, length]
    dsimp only
    rw [byteLength_closing before cs (by decide) same, dropBytes?_behind, Seeking.lift_bind, dropped]
    by_cases mark : rest.head? = some '!'
    · obtain ⟨word, rfl⟩ := List.head?_eq_some_iff.mp mark
      rw [if_pos (beq_iff_eq.mpr mark), seekWord_behind_mark before cs _ dropped]
      rfl
    · rw [if_neg (by simpa using mark), slice?_behind, Seeking.lift_bind]
      cases rest with
      | nil => rfl
      | cons c rest =>
        have other : c ≠ '!' := fun same => mark (congrArg some same)
        simp [other]
        rfl

theorem seekText_eq :
    seekText (before ++ '"' :: cs) (Text.byteLength before) = .of (
      match readText? cs with
      | some (text, n) => .ok (.text (String.ofList text),
          Text.byteLength before + Text.byteLength ('"' :: cs.take n))
      | none => .error (.unterminatedText (Text.byteLength before))) := by
  rw [seekText, dropBytes?_succ before cs (by decide), Seeking.lift_bind]
  rcases indexedText?_indexed 0 cs with ⟨indexed, read⟩ | ⟨text, inner, rest, same, indexed, read⟩
  · rw [indexed, read]
    rfl
  · rw [indexed, read]
    dsimp only
    rw [byteLength_closing before cs (by decide) same]
    rfl

theorem seekSign_eq (due : Bool) :
    seekSign (before ++ c :: cs) due (Text.byteLength before) c =
      some (c == '-' && due && cs.head?.any Char.isDigit) := by
  rw [seekSign]
  cases minus : c == '-' && due with
  | false => rfl
  | true =>
    obtain ⟨same, -⟩ := Bool.and_eq_true_iff.mp minus
    rw [if_pos rfl, eq_of_beq same, dropBytes?_succ before cs (by decide)]
    rfl

theorem seekSigned_eq :
    seekSigned (before ++ '-' :: cs) (Text.byteLength before) = .of (
      (numberToken true ('-' :: cs.take (wordLength cs)) (cs.take (wordLength cs))).map fun t =>
        (t, Text.byteLength before + Text.byteLength ('-' :: cs.take (wordLength cs)))) := by
  have stop : seekWord (before ++ '-' :: cs) (Text.byteLength before + 1) =
      some (Text.byteLength before + Text.byteLength ('-' :: cs.take (0 + wordLength cs))) :=
    @seekWord_behind before cs '-' cs 0 rfl
  have word : Text.slice? (before ++ '-' :: cs) (Text.byteLength before + 1)
      (Text.byteLength before + Text.byteLength ('-' :: cs.take (wordLength cs))) =
      some (cs.take (wordLength cs)) := by
    have cut := Text.slice?_append (before ++ ['-']) (cs.take (wordLength cs)) (cs.drop (wordLength cs))
    rw [List.take_append_drop, ← List.append_cons, Text.byteLength_append, Nat.add_assoc] at cut
    exact cut
  rw [Nat.zero_add] at stop
  rw [seekSigned, stop, Seeking.lift_bind, word, Seeking.lift_bind, slice?_behind, numberToken]
  cases Number.readLiteral? (cs.take (wordLength cs)) <;> rfl

theorem seekOperator_eq :
    seekOperator (before ++ c :: cs) (Text.byteLength before) = .of (
      match Operator.atStart? (c :: cs) with
      | some op => .ok (.operator op,
          Text.byteLength before + Text.byteLength (c :: cs.take (op.spelling.length - 1)))
      | none => .error (.unknownOperator (Text.byteLength before))) := by
  rw [seekOperator, Text.dropBytes?_append, Seeking.lift_bind]
  cases spelled : Operator.atStart? (c :: cs) with
  | none => rfl
  | some op =>
    have size : Text.byteLength op.spelling.toList = op.spelling.length := by cases op <;> decide
    dsimp only
    rw [take_of_atStart? spelled, size]
    rfl

theorem not_endsWord_of_beginsWord {c : Char} (visible : Text.isBlank c = false)
    (begins : beginsWord c = true) (cs : List Char) : endsWord c cs = false := by
  have notBreak : isBreak c = false := by
    rw [Bool.eq_false_iff, isBreak]
    intro mem
    have all : (" ),*/+-><=^".toList.all fun d => Text.isBlank d || !beginsWord d) = true := by decide
    have ends := List.all_eq_true.mp all c (List.contains_iff_mem.mp mem)
    simp [visible, begins] at ends
  have other : ∀ d : Char, beginsWord d = false → (c == d) = false := by
    intro d no
    rw [beq_eq_false_iff_ne]
    rintro rfl
    exact absurd (no.symm.trans begins) Bool.false_ne_true
  simp [endsWord, visible, notBreak, other '(' (by decide), other '"' (by decide),
    other '\'' (by decide), other '!' (by decide)]

theorem seekWordToken_eq (visible : Text.isBlank c = false) (begins : beginsWord c = true) :
    seekWordToken (before ++ c :: cs) (Text.byteLength before) c = .of (
      (if (cs.drop (wordLength cs)).head? == some '(' then
        functionToken (c :: cs.take (wordLength cs)) else wordToken (c :: cs.take (wordLength cs))).map
      fun t => (t, Text.byteLength before + Text.byteLength (c :: cs.take (wordLength cs)))) := by
  have long : wordLength (c :: cs) = wordLength cs + 1 := by
    rw [wordLength, if_neg (by simp [not_endsWord_of_beginsWord visible begins])]
  have stop := seekWord_eq before (c :: cs)
  rw [long, List.take_succ_cons] at stop
  have moved : (Text.byteLength before + Text.byteLength (c :: cs.take (wordLength cs)) ==
      Text.byteLength before) = false := by
    have size := c.utf8Size_pos
    rw [beq_eq_false_iff_ne, Text.byteLength_cons]
    omega
  rw [seekWordToken, stop, Seeking.lift_bind, moved, if_neg Bool.false_ne_true, slice?_behind,
    Seeking.lift_bind, dropBytes?_behind, Seeking.lift_bind, seekPlain_eq]
  split <;> rw [Seeking.of_bind]
  · cases functionToken (c :: cs.take (wordLength cs)) <;> rfl
  · cases wordToken (c :: cs.take (wordLength cs)) <;> rfl

theorem map_pair {β : Type} (x : Except LexError Token) (n : Nat) (f : Token × Nat → β) :
    (do return (← x, n) : Except LexError (Token × Nat)).map f = x.map fun t => f (t, n) := by
  cases x <;> rfl

/-- **A token is read at a position as it is read from its characters**, and ends there. -/
theorem seekToken_eq (due : Bool) (visible : Text.isBlank c = false) :
    seekToken (before ++ c :: cs) due (Text.byteLength before) c =
      .of ((readToken due (Text.byteLength before) c cs).map fun (t, n) =>
        (t, Text.byteLength before + Text.byteLength (c :: cs.take n))) := by
  rw [seekToken, readToken]
  by_cases leftParen : (c == '(') = true
  · rw [if_pos leftParen, if_pos leftParen, eq_of_beq leftParen]
    rfl
  rw [if_neg leftParen, if_neg leftParen]
  by_cases rightParen : (c == ')') = true
  · rw [if_pos rightParen, if_pos rightParen, eq_of_beq rightParen]
    rfl
  rw [if_neg rightParen, if_neg rightParen]
  by_cases comma : (c == ',') = true
  · rw [if_pos comma, if_pos comma, eq_of_beq comma]
    rfl
  rw [if_neg comma, if_neg comma]
  by_cases quote : (c == '"') = true
  · rw [if_pos quote, if_pos quote, eq_of_beq quote, seekText_eq]
    cases readText? cs <;> rfl
  rw [if_neg quote, if_neg quote]
  by_cases apostrophe : (c == '\'') = true
  · rw [if_pos apostrophe, if_pos apostrophe, eq_of_beq apostrophe, seekQuoted_eq, Seeking.of_bind]
    cases quotedNameLength? cs with
    | none => rfl
    | some n =>
      dsimp only
      cases cs.drop n with
      | nil => rfl
      | cons d rest =>
        by_cases mark : d = '!'
        · subst mark
          show (do
              let word ← (liftM (Text.slice? (before ++ '\'' :: cs) (Text.byteLength before)
                (Text.byteLength before +
                  Text.byteLength ('\'' :: cs.take (n + 1 + wordLength rest)))) : Seeking _)
              return (← seekMention word, _)) =
            Seeking.of (Except.map _ (do
              return (← referenceToken ('\'' :: cs.take (n + 1 + wordLength rest)),
                n + 1 + wordLength rest)))
          rw [slice?_behind, Seeking.lift_bind, seekMention_eq, Seeking.of_bind, map_pair]
          cases referenceToken ('\'' :: cs.take (n + 1 + wordLength rest)) <;> rfl
        · simp [mark]
          rfl
  rw [if_neg apostrophe, if_neg apostrophe, seekSign_eq, Seeking.lift_bind]
  by_cases signed : (c == '-' && due && cs.head?.any Char.isDigit) = true
  · obtain ⟨minus, -⟩ := Bool.and_eq_true_iff.mp (Bool.and_eq_true_iff.mp signed).1
    rw [if_pos signed, if_pos signed, eq_of_beq minus, seekSigned_eq]
    dsimp only
    rw [map_pair]
  rw [if_neg signed, if_neg signed]
  by_cases operator : Operator.isFirstChar c = true
  · rw [if_pos operator, if_pos operator, seekOperator_eq]
    cases Operator.atStart? (c :: cs) <;> rfl
  have begins : beginsWord c = true := by
    simp [beginsWord, leftParen, rightParen, comma, quote, apostrophe, operator]
  rw [if_neg operator, if_neg operator, seekWordToken_eq before cs c visible begins]
  dsimp only
  split <;> rw [map_pair]

end

/-! ### Turn by turn -/

section

variable {formula : List Char} {s : Cursor}

theorem run_of_end (h : turn formula s = .of (.ok none)) : s.run formula = .some (.ok s.lexemes) := by
  refine Part.eq_some_iff.mpr (PFun.fix_stop ?_)
  rw [Cursor.step, h]
  exact Part.mem_some _

theorem run_of_error {e : LexError} (h : turn formula s = .of (.error e)) :
    s.run formula = .some (.error e) := by
  refine Part.eq_some_iff.mpr (PFun.fix_stop ?_)
  rw [Cursor.step, h]
  exact Part.mem_some _

theorem run_of_next {next : Cursor} (h : turn formula s = .of (.ok (some next))) :
    s.run formula = next.run formula := by
  refine PFun.fix_fwd_eq ?_
  rw [Cursor.step, h]
  exact Part.mem_some _

end

section

variable {before cs : List Char} {c : Char} {s : Cursor} (here : s.position = Text.byteLength before)

include here

theorem turn_end : turn before s = .of (.ok none) := by
  have cut := Text.dropBytes?_append before []
  rw [List.append_nil] at cut
  rw [turn, here, cut, Seeking.lift_bind]
  rfl

theorem turn_blank (blank : Text.isBlank c = true) :
    turn (before ++ c :: cs) s = .of (.ok (some { s with position := s.position + c.utf8Size })) := by
  rw [turn, here, Text.dropBytes?_append, Seeking.lift_bind]
  dsimp only [List.head?_cons]
  rw [if_pos blank]
  rfl

theorem turn_token (visible : Text.isBlank c = false) :
    turn (before ++ c :: cs) s =
      .of ((readToken s.operandDue s.position c cs).map fun (t, n) =>
        let stop := s.position + Text.byteLength (c :: cs.take n)
        some ⟨stop, s.lexemes ++ [⟨t, s.position, stop⟩]⟩) := by
  rw [turn, here, Text.dropBytes?_append, Seeking.lift_bind]
  dsimp only [List.head?_cons]
  rw [if_neg (by simp [visible]), seekToken_eq before cs c _ visible, Seeking.of_bind]
  cases readToken s.operandDue (Text.byteLength before) c cs <;> rfl

/-- **The turns come to the end and give the tokens**, or the error of the first that cannot be read. -/
theorem run_eq : s.run (before ++ cs) =
    .some ((piecesFrom s.operandDue s.position cs).map fun ps =>
      s.lexemes ++ lexemesFrom s.position ps) := by
  induction length : cs.length using Nat.strongRecOn generalizing before cs s with
  | ind bound ih =>
    cases cs with
    | nil =>
      rw [List.append_nil, run_of_end (turn_end here), piecesFrom]
      simp [Except.map, lexemesFrom]
    | cons c cs =>
      by_cases blank : Text.isBlank c = true
      · have moved : s.position + c.utf8Size = Text.byteLength (before ++ [c]) := by simp [here]
        have next := ih cs.length (by rw [← length]; exact Nat.lt_succ_self _)
          (s := { s with position := s.position + c.utf8Size }) moved rfl
        rw [← List.append_cons] at next
        rw [run_of_next (turn_blank here blank), piecesFrom_blank blank]
        refine next.trans ?_
        show Part.some ((piecesFrom s.operandDue (s.position + c.utf8Size) cs).map _) = _
        cases piecesFrom s.operandDue (s.position + c.utf8Size) cs <;> rfl
      · have visible : Text.isBlank c = false := Bool.eq_false_iff.mpr blank
        have taken := @turn_token before cs c s here visible
        cases first : readToken s.operandDue s.position c cs with
        | error e =>
          rw [first] at taken
          rw [run_of_error taken, piecesFrom, if_neg blank, first]
          rfl
        | ok pair =>
          rw [first] at taken
          obtain ⟨t, n⟩ := pair
          let stop := s.position + Text.byteLength (c :: cs.take n)
          let read : Cursor := ⟨stop, s.lexemes ++ [⟨t, s.position, stop⟩]⟩
          have shorter : (cs.drop n).length < bound := by
            rw [← length, List.length_drop, List.length_cons]
            omega
          have moved : read.position = Text.byteLength (before ++ c :: cs.take n) := by
            rw [Text.byteLength_append, ← here]
          have next := ih (cs.drop n).length shorter moved rfl
          have due : read.operandDue = t.opensOperand := by simp [read, Cursor.operandDue]
          rw [List.append_assoc, List.cons_append, List.take_append_drop, due] at next
          rw [run_of_next taken, piecesFrom_token visible ((readToken_eq_ok_iff _).mp first)]
          refine next.trans ?_
          show Part.some ((piecesFrom t.opensOperand stop (cs.drop n)).map fun ps =>
            (s.lexemes ++ [⟨t, s.position, stop⟩]) ++ lexemesFrom stop ps) = _
          cases piecesFrom t.opensOperand stop (cs.drop n) with
          | error e => rfl
          | ok ps => rw [Except.map, List.append_assoc]; rfl

end

/-- **Reading by positions never breaks down.**  It gives the tokens of a formula where they stand, or
the error for which there are none. -/
theorem seekLexemes_eq (formula : String) : seekLexemes formula = .some (lexemes formula) := by
  have whole : (⟨0, []⟩ : Cursor).run formula.toList =
      .some ((piecesFrom true 0 formula.toList).map fun ps => [] ++ lexemesFrom 0 ps) :=
    @run_eq [] formula.toList ⟨0, []⟩ rfl
  rw [seekLexemes, whole, lexemes, pieces]
  cases piecesFrom true 0 formula.toList <;> rfl

end Formula

end Spreadsheet
