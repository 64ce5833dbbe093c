import Spreadsheet.Proofs.Json.Scalar
import Spreadsheet.Proofs.Number.Bits

/-!
# JSON that reads back

A value that is written is read again, up to the form of its numbers.  The induction is on the value,
with a text behind it that does not go on; twice the length of the text is fuel enough, because between
any two steps into a value a character is taken.

* `Json.reread`: the value that the text of a value is read as.
* `Json.reads`: what is written is read, with fuel enough.
* `Json.ofText?_text`: the text of a value as a whole.
* `Json.Library.RoundTrips`: a library reads what it wrote.
* `Json.roundTrips`: so do this writer and this reader.
-/

namespace Spreadsheet.Json

mutual

/-- The value that the text of a value is read as, if `numeral` says it of the numbers. -/
def reread (numeral : Numeral → Numeral) : Json → Json
  | null | unreadable => null
  | bool b => bool b
  | number n => number (numeral n)
  | string s => string s
  | array items => array (rereadItems numeral items)
  | object fields => object (rereadFields numeral fields)

def rereadItems (numeral : Numeral → Numeral) : List Json → List Json
  | [] => []
  | v :: vs => v.reread numeral :: rereadItems numeral vs

def rereadFields (numeral : Numeral → Numeral) :
    List (String × Json) → List (String × Json)
  | [] => []
  | (name, v) :: fields => (name, v.reread numeral) :: rereadFields numeral fields

end

/-! ### First characters -/

def BeginsValue (c : Char) : Prop :=
  (c == ' ' || c == '\n' || c == '\t' || c == '\r') = false ∧ c ≠ ']'

theorem beginsValue_of_isDigit {c : Char} (digit : c.isDigit = true) : BeginsValue c := by
  have other : ∀ d : Char, d.isDigit = false → c ≠ d := by
    rintro d noDigit rfl
    exact absurd digit (by simp [noDigit])
  simp [BeginsValue, other ' ' (by decide), other '\n' (by decide), other '\t' (by decide),
    other '\r' (by decide), other ']' (by decide)]

def BeginsNumeral (c : Char) : Prop := c = '-' ∨ c.isDigit = true

theorem BeginsNumeral.beginsValue {c : Char} (h : BeginsNumeral c) : BeginsValue c := by
  rcases h with rfl | digit
  · exact ⟨by decide, by decide⟩
  · exact beginsValue_of_isDigit digit

theorem head_digits {ds cs : List Char} (some : ds ≠ []) (digits : ∀ c ∈ ds, c.isDigit = true) :
    ∃ c cs', ds ++ cs = c :: cs' ∧ BeginsNumeral c := by
  obtain ⟨d, ds, rfl⟩ := List.exists_cons_of_ne_nil some
  exact ⟨d, ds ++ cs, rfl, Or.inr (digits d List.mem_cons_self)⟩

theorem head_numeralChars (n : Numeral) : ∃ c cs, numeralChars n = c :: cs ∧ BeginsNumeral c := by
  cases n with
  | natural n =>
    have head : ∃ c cs, Nat.toDigits 10 n ++ [] = c :: cs ∧ BeginsNumeral c :=
      head_digits Nat.toDigits_ne_nil isDigit_of_mem_toDigits
    rwa [List.append_nil] at head
  | decimal negative d =>
    cases negative with
    | true => exact ⟨'-', _, rfl, Or.inl rfl⟩
    | false =>
      obtain ⟨p, proper, -, written, -⟩ := writes_decimalChars d
      rw [numeralChars, written, if_neg Bool.false_ne_true, List.nil_append]
      exact head_digits proper.whole.some proper.whole.digits

theorem head_chars (v : Json) : ∃ c cs, v.chars = c :: cs ∧ BeginsValue c := by
  cases v with
  | null => exact ⟨'n', _, by rw [chars]; rfl, by decide, by decide⟩
  | unreadable => exact ⟨'n', _, by rw [chars]; rfl, by decide, by decide⟩
  | bool b =>
    cases b with
    | true => exact ⟨'t', _, by rw [chars]; rfl, by decide, by decide⟩
    | false => exact ⟨'f', _, by rw [chars]; rfl, by decide, by decide⟩
  | number n =>
    obtain ⟨c, cs, front, begins⟩ := head_numeralChars n
    exact ⟨c, cs, by rw [chars, front], begins.beginsValue⟩
  | string s => exact ⟨'"', _, by rw [chars]; rfl, by decide, by decide⟩
  | array items => exact ⟨'[', _, by rw [chars]; rfl, by decide, by decide⟩
  | object fields => exact ⟨'{', _, by rw [chars]; rfl, by decide, by decide⟩

theorem skipBlanks_cons {c : Char} (begins : BeginsValue c) (cs : List Char) :
    skipBlanks (c :: cs) = c :: cs := by
  rw [skipBlanks, List.dropWhile_cons, begins.1]
  rfl

theorem readValue_numeral (fuel : Nat) {c : Char} (first : BeginsNumeral c)
    (cs : List Char) : readValue (fuel + 1) (c :: cs) =
      (readNumeral? (c :: cs)).map fun (n, rest) => (number n, rest) := by
  have other : ∀ d : Char, d.isDigit = false → d ≠ '-' → c ≠ d := by
    rintro d noDigit noSign rfl
    rcases first with sign | digit
    · exact noSign sign
    · exact absurd digit (by simp [noDigit])
  rw [readValue]
  all_goals simp [other]

theorem expect?_append (word : String) (rest : List Char) :
    expect? word (word.toList ++ rest) = some rest := by
  have front : word.toList.isPrefixOf (word.toList ++ rest) = true :=
    List.isPrefixOf_iff_prefix.mpr (List.prefix_append _ _)
  rw [expect?, front, if_pos rfl, ← String.length_toList, List.drop_left]

theorem endsNumeral_cons {c : Char} {rest : List Char} (mark : c = ',' ∨ c = ']' ∨ c = '}') :
    EndsNumeral (c :: rest) := by
  intro d mem
  cases mem
  rcases mark with rfl | rfl | rfl <;> decide

theorem mapM_names (fields : List (String × Json)) :
    (fields.map fun (name, v) => (some name.toList, v)).mapM
      (fun (name, v) => name.map (String.ofList ·, v) :
        Option (List Char) × Json → Option (String × Json)) = some fields := by
  induction fields with
  | nil => rfl
  | cons field fields ih =>
    rw [List.map_cons, List.mapM_cons, ih]
    simp

theorem ofReadFields_some (fields : List (String × Json)) :
    ofReadFields (fields.map fun (name, v) => (some name.toList, v)) = object fields := by
  rw [ofReadFields, mapM_names]

/-! ### Steps of the reader -/

theorem skipBlanks_chars (v : Json) (rest : List Char) :
    skipBlanks (v.chars ++ rest) = v.chars ++ rest := by
  obtain ⟨c, cs, front, begins⟩ := head_chars v
  rw [front]
  exact skipBlanks_cons begins _

theorem itemChars_cons (v w : Json) (vs : List Json) :
    itemChars (v :: w :: vs) = v.chars ++ ',' :: itemChars (w :: vs) := by
  rw [itemChars]
  exact nofun

theorem fieldChars_cons (name : String) (v : Json) (field : String × Json)
    (fields : List (String × Json)) :
    fieldChars ((name, v) :: field :: fields) =
      quoted name ++ ':' :: v.chars ++ ',' :: fieldChars (field :: fields) := by
  rw [fieldChars]
  exact nofun

theorem head_itemChars (v : Json) (vs : List Json) :
    ∃ c cs, itemChars (v :: vs) = c :: cs ∧ BeginsValue c := by
  obtain ⟨c, cs, front, begins⟩ := head_chars v
  cases vs with
  | nil => exact ⟨c, cs, by rw [itemChars, front], begins⟩
  | cons w vs => exact ⟨c, _, by rw [itemChars_cons, front]; rfl, begins⟩

theorem skipBlanks_itemChars (v : Json) (vs : List Json) (rest : List Char) :
    skipBlanks (itemChars (v :: vs) ++ rest) = itemChars (v :: vs) ++ rest := by
  obtain ⟨c, cs, front, begins⟩ := head_itemChars v vs
  rw [front]
  exact skipBlanks_cons begins _

theorem readValue_array (fuel : Nat) (v : Json) (vs : List Json) (rest : List Char) :
    readValue (fuel + 1) ('[' :: (itemChars (v :: vs) ++ rest)) =
      (readItems fuel (itemChars (v :: vs) ++ rest)).map fun (items, rest) => (array items, rest) := by
  have blank := skipBlanks_itemChars v vs rest
  obtain ⟨c, cs, front, begins⟩ := head_itemChars v vs
  rw [readValue, blank, front, List.cons_append]
  have other : c ≠ ']' := begins.2
  split
  · rename_i same
    exact absurd (List.cons.inj same).1 other
  · rfl

theorem skipBlanks_fieldChars (name : String) (v : Json) (fields : List (String × Json))
    (rest : List Char) : skipBlanks (fieldChars ((name, v) :: fields) ++ rest) =
      fieldChars ((name, v) :: fields) ++ rest := by
  cases fields with
  | nil => rfl
  | cons field fields =>
    rw [fieldChars_cons]
    rfl

theorem readValue_object (fuel : Nat) (name : String) (v : Json) (fields : List (String × Json))
    (rest : List Char) :
    readValue (fuel + 1) ('{' :: (fieldChars ((name, v) :: fields) ++ rest)) =
      (readFields fuel (fieldChars ((name, v) :: fields) ++ rest)).map fun (fields, rest) =>
        (ofReadFields fields, rest) := by
  cases fields with
  | nil => rfl
  | cons field fields =>
    rw [fieldChars_cons]
    rfl

theorem readItems_last {fuel : Nat} {cs rest : List Char} {v : Json}
    (read : readValue fuel cs = some (v, ']' :: rest)) :
    readItems (fuel + 1) cs = some ([v], rest) := by
  rw [readItems, read]
  rfl

theorem readItems_next {fuel : Nat} {cs next rest : List Char} {v : Json} {vs : List Json}
    (read : readValue fuel cs = some (v, ',' :: next)) (start : skipBlanks next = next)
    (more : readItems fuel next = some (vs, rest)) :
    readItems (fuel + 1) cs = some (v :: vs, rest) := by
  rw [readItems, read]
  show (readItems fuel (skipBlanks next)).bind _ = _
  rw [start, more]
  rfl

theorem readFields_name {fuel : Nat} {name : String} {cs : List Char} {v : Json} {rest : List Char}
    {read : Option (List (Option (List Char) × Json) × List Char)}
    (start : skipBlanks cs = cs) (value : readValue fuel cs = some (v, rest))
    (more : (match skipBlanks rest with
      | ',' :: rest => (do
        let (fields, rest) ← readFields fuel (skipBlanks rest)
        return ((some name.toList, v) :: fields, rest))
      | '}' :: rest => some ([(some name.toList, v)], rest)
      | _ => none) = read) :
    readFields (fuel + 1) (quoted name ++ ':' :: cs) = read := by
  rw [readFields, quoted, List.append_assoc]
  show ((readString (name.toList.flatMap escapedChar ++ '"' :: ':' :: cs)).bind _ : Option _) = _
  rw [readString_quoted]
  show (readValue fuel (skipBlanks cs)).bind _ = _
  rw [start, value]
  exact more

/-- The reader reads everything that is written and that its fuel is enough for. -/
structure Reads (fuel : Nat) : Prop where
  value : ∀ (v : Json) (rest : List Char), 2 * v.chars.length ≤ fuel → EndsNumeral rest →
    readValue fuel (v.chars ++ rest) = some (v.reread Numeral.reread, rest)
  items : ∀ (v : Json) (vs : List Json) (rest : List Char),
    2 * (itemChars (v :: vs)).length < fuel →
      readItems fuel (itemChars (v :: vs) ++ ']' :: rest) =
        some (rereadItems Numeral.reread (v :: vs), rest)
  fields : ∀ (name : String) (v : Json) (fields : List (String × Json)) (rest : List Char),
    2 * (fieldChars ((name, v) :: fields)).length < fuel →
      readFields fuel (fieldChars ((name, v) :: fields) ++ '}' :: rest) =
        some ((rereadFields Numeral.reread ((name, v) :: fields)).map
          fun (name, v) => (some name.toList, v), rest)

theorem Reads.value_succ {fuel : Nat} (h : Reads fuel) (v : Json) (rest : List Char)
    (enough : 2 * v.chars.length ≤ fuel + 1) (stop : EndsNumeral rest) :
    readValue (fuel + 1) (v.chars ++ rest) = some (v.reread Numeral.reread, rest) := by
  cases v with
  | null | unreadable =>
    rw [chars, reread]
    exact congrArg (Option.map _) (expect?_append "null" rest)
  | bool b =>
    rw [chars, reread]
    cases b with
    | true => exact congrArg (Option.map _) (expect?_append "true" rest)
    | false => exact congrArg (Option.map _) (expect?_append "false" rest)
  | number n =>
    obtain ⟨c, cs, front, begins⟩ := head_numeralChars n
    have read := readNumeral?_numeralChars n stop
    rw [chars, reread, front, List.cons_append, readValue_numeral fuel begins, ← List.cons_append,
      ← front, read]
    rfl
  | string s =>
    rw [chars, reread, quoted, List.append_assoc]
    show (readString (s.toList.flatMap escapedChar ++ '"' :: rest)).map _ = _
    rw [readString_quoted]
    show some (string (String.ofList s.toList), rest) = _
    rw [String.ofList_toList]
  | array items =>
    rw [chars, reread, List.append_assoc]
    cases items with
    | nil => rfl
    | cons v vs =>
      rw [chars, List.length_append, List.length_cons, List.length_singleton] at enough
      have read := h.items v vs rest (by omega)
      refine (readValue_array fuel v vs (']' :: rest)).trans ?_
      rw [read]
      rfl
  | object fields =>
    rw [chars, reread, List.append_assoc]
    cases fields with
    | nil => rfl
    | cons field fields =>
      obtain ⟨name, v⟩ := field
      rw [chars, List.length_append, List.length_cons, List.length_singleton] at enough
      have read := h.fields name v fields rest (by omega)
      refine (readValue_object fuel name v fields ('}' :: rest)).trans ?_
      rw [read]
      show some (ofReadFields _, rest) = _
      rw [ofReadFields_some]

theorem Reads.items_succ {fuel : Nat} (h : Reads fuel) (v : Json) (vs : List Json) (rest : List Char)
    (enough : 2 * (itemChars (v :: vs)).length < fuel + 1) :
    readItems (fuel + 1) (itemChars (v :: vs) ++ ']' :: rest) =
      some (rereadItems Numeral.reread (v :: vs), rest) := by
  cases vs with
  | nil =>
    rw [itemChars] at enough ⊢
    exact readItems_last (h.value v _ (by omega) (endsNumeral_cons (by decide)))
  | cons w vs =>
    rw [itemChars_cons, List.length_append, List.length_cons] at enough
    rw [itemChars_cons, List.append_assoc]
    refine readItems_next (h.value v _ (by omega) (endsNumeral_cons (by decide))) ?_ ?_
    · exact skipBlanks_itemChars w vs _
    · exact h.items w vs rest (by omega)

theorem Reads.fields_succ {fuel : Nat} (h : Reads fuel) (name : String) (v : Json)
    (fields : List (String × Json)) (rest : List Char)
    (enough : 2 * (fieldChars ((name, v) :: fields)).length < fuel + 1) :
    readFields (fuel + 1) (fieldChars ((name, v) :: fields) ++ '}' :: rest) =
      some ((rereadFields Numeral.reread ((name, v) :: fields)).map
        fun (name, v) => (some name.toList, v), rest) := by
  cases fields with
  | nil =>
    rw [fieldChars] at enough ⊢
    rw [List.length_append, List.length_cons] at enough
    rw [List.append_assoc, List.cons_append]
    exact readFields_name (skipBlanks_chars v _)
      (h.value v _ (by omega) (endsNumeral_cons (by decide))) rfl
  | cons field fields =>
    obtain ⟨next, w⟩ := field
    rw [fieldChars_cons, List.length_append, List.length_append, List.length_cons,
      List.length_cons] at enough
    have more := h.fields next w fields rest (by omega)
    rw [fieldChars_cons, List.append_assoc, List.append_assoc, List.cons_append]
    refine readFields_name (skipBlanks_chars v _)
      (h.value v _ (by omega) (endsNumeral_cons (by decide))) ?_
    show (readFields fuel (skipBlanks (fieldChars ((next, w) :: fields) ++ '}' :: rest))).bind _ = _
    rw [skipBlanks_fieldChars, more]
    rfl

/-- **What is written is read**, with fuel for twice its length. -/
theorem reads (fuel : Nat) : Reads fuel := by
  induction fuel with
  | zero =>
    refine ⟨fun v rest enough _ => ?_, nofun, nofun⟩
    obtain ⟨c, cs, front, -⟩ := head_chars v
    rw [front] at enough
    exact absurd enough (by simp)
  | succ fuel ih => exact ⟨ih.value_succ, ih.items_succ, ih.fields_succ⟩

/-- **The text of a value is read as the value**, up to the form of its numbers. -/
theorem ofText?_text (v : Json) : ofText? v.text = some (v.reread Numeral.reread) := by
  have blank := skipBlanks_chars v []
  have read := (reads (2 * v.chars.length + 2)).value v [] (by omega) endsNumeral_nil
  rw [List.append_nil] at blank read
  rw [ofText?, text, String.toList_ofList, blank, read]
  rfl

/-! ### Libraries -/

/-- A value whose numbers are finite doubles and natural numbers of 64 bits, and whose arrays and objects
are nested at most so deep. -/
inductive Proper : Nat → Json → Prop
  | bool {depth : Nat} (b : Bool) : Proper depth (bool b)
  | natural {depth n : Nat} (fits : n < UInt64.size) : Proper depth (nat n)
  | double {depth : Nat} {x : Float} (finite : Number.patternOf x < Number.infinite) :
      Proper depth (number (.ofFloat x))
  | string {depth : Nat} (s : String) : Proper depth (string s)
  | array {depth : Nat} {items : List Json} (proper : ∀ v ∈ items, Proper depth v) :
      Proper (depth + 1) (array items)
  | object {depth : Nat} {fields : List (String × Json)} (distinct : (fields.map Prod.fst).Nodup)
      (proper : ∀ field ∈ fields, Proper depth field.2) : Proper (depth + 1) (object fields)

/-- The library reads what it wrote, with each number in the form that `numeral` gives it: finite
doubles, natural numbers of 64 bits and texts come back.  Libraries refuse what is nested deeper. -/
structure Library.RoundTrips (library : Library) (numeral : Numeral → Numeral) : Prop where
  natural : ∀ n < UInt64.size, numeral (.natural n) = .natural n
  double : ∀ x : Float, Number.patternOf x < Number.infinite →
    (numeral (.ofFloat x)).toFloat? = some x
  value : ∀ v : Json, v.Proper 127 → library.ofText? (library.text v) = some (v.reread numeral)

theorem toFloat?_ofFloat {x : Float} (finite : Number.patternOf x < Number.infinite) :
    (Numeral.ofFloat x).toFloat? = some x := by
  show finiteDouble? (Number.isNegative x) (Number.shortest (Number.patternOf x)).pattern = _
  rw [Number.pattern_shortest finite, finiteDouble?, if_pos finite, Number.ofPattern_patternOf]

/-- **This writer and this reader** give back everything that is written. -/
theorem roundTrips : Library.RoundTrips ⟨text, ofText?⟩ Numeral.reread where
  natural n _ := Numeral.reread_natural n
  double _ finite := (Numeral.toFloat?_reread _).trans (toFloat?_ofFloat finite)
  value v _ := ofText?_text v

end Spreadsheet.Json
