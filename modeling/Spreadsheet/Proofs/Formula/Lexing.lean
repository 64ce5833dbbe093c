import Spreadsheet.Formula.Token
import Spreadsheet.Proofs.Reference.RoundTrip

/-!
# Reading one token

What a token is read from, and how far what follows it matters.

* `Lexed due c cs t n`: the token `t` takes the character `c` and `n` of the characters `cs`.
* `readToken_eq_ok_iff`: this is what `readToken` decides.
* `Lexed.extend`: a word is read in the same way in front of other characters that end it.
-/

namespace Spreadsheet.Formula

def beginsWord (c : Char) : Bool :=
  !(c == '(' || c == ')' || c == ',' || c == '"' || c == '\'' || Operator.isFirstChar c)

/-- The token that begins with a character takes a number of the characters that follow. -/
inductive Lexed (due : Bool) (c : Char) (cs : List Char) : Token → Nat → Prop
  | leftParen : c = '(' → Lexed due c cs .leftParen 0
  | rightParen : c = ')' → Lexed due c cs .rightParen 0
  | comma : c = ',' → Lexed due c cs .comma 0
  | text {s : List Char} {n : Nat} : c = '"' → readText? cs = some (s, n) →
      Lexed due c cs (.text (String.ofList s)) n
  | quoted {t : Token} {n : Nat} {rest : List Char} : c = '\'' → quotedNameLength? cs = some n →
      cs.drop n = '!' :: rest → referenceToken (c :: cs.take (n + 1 + wordLength rest)) = .ok t →
      Lexed due c cs t (n + 1 + wordLength rest)
  | negative {t : Token} : c = '-' → due = true → cs.head?.any Char.isDigit = true →
      numberToken true (c :: cs.take (wordLength cs)) (cs.take (wordLength cs)) = .ok t →
      Lexed due c cs t (wordLength cs)
  | operator {op : Operator} : (c == '-' && due && cs.head?.any Char.isDigit) = false →
      Operator.isFirstChar c = true → Operator.atStart? (c :: cs) = some op →
      Lexed due c cs (.operator op) (op.spelling.length - 1)
  | function {t : Token} : beginsWord c = true → (cs.drop (wordLength cs)).head? = some '(' →
      functionToken (c :: cs.take (wordLength cs)) = .ok t → Lexed due c cs t (wordLength cs)
  | word {t : Token} : beginsWord c = true → (cs.drop (wordLength cs)).head? ≠ some '(' →
      wordToken (c :: cs.take (wordLength cs)) = .ok t → Lexed due c cs t (wordLength cs)

theorem plain_of_beginsWord {c : Char} (h : beginsWord c = true) :
    Operator.isFirstChar c = false ∧ (c == '-') = false := by
  simp only [beginsWord, Bool.not_eq_true', Bool.or_eq_false_iff] at h
  refine ⟨h.2, ?_⟩
  rw [beq_eq_false_iff_ne]
  rintro rfl
  exact absurd h.2 (by decide)

theorem pair_of_bind {x : Except LexError Token} {n k : Nat} {t : Token}
    (h : (do return (← x, n)) = (.ok (t, k) : Except LexError (Token × Nat))) :
    x = .ok t ∧ n = k := by
  cases x with
  | error e => exact absurd h nofun
  | ok u =>
    cases h
    exact ⟨rfl, rfl⟩

theorem readToken_eq_ok_iff {due : Bool} (position : Nat) {c : Char} {cs : List Char} {t : Token}
    {n : Nat} : readToken due position c cs = .ok (t, n) ↔ Lexed due c cs t n := by
  constructor
  · intro ok
    rw [readToken] at ok
    split at ok
    · cases ok
      exact .leftParen (eq_of_beq ‹_›)
    split at ok
    · cases ok
      exact .rightParen (eq_of_beq ‹_›)
    split at ok
    · cases ok
      exact .comma (eq_of_beq ‹_›)
    split at ok
    · split at ok
      · cases ok
        exact .text (eq_of_beq ‹_›) ‹_›
      · exact absurd ok nofun
    split at ok
    · split at ok
      · exact absurd ok nofun
      · split at ok
        · obtain ⟨read, rfl⟩ := pair_of_bind ok
          exact .quoted (eq_of_beq ‹_›) ‹_› ‹_› read
        · exact absurd ok nofun
    split at ok
    · rename_i negative
      simp only [Bool.and_eq_true, beq_iff_eq] at negative
      obtain ⟨read, rfl⟩ := pair_of_bind ok
      exact .negative negative.1.1 negative.1.2 negative.2 read
    split at ok
    · split at ok
      · cases ok
        exact .operator (by simpa using ‹¬ (c == '-' && due && _) = true›) ‹_› ‹_›
      · exact absurd ok nofun
    · have begins : beginsWord c = true := by simp_all [beginsWord]
      dsimp only at ok
      split at ok
      · obtain ⟨read, rfl⟩ := pair_of_bind ok
        exact .function begins (eq_of_beq ‹_›) read
      · obtain ⟨read, rfl⟩ := pair_of_bind ok
        rename_i paren
        exact .word begins (fun same => paren (beq_iff_eq.mpr same)) read
  · intro lexed
    cases lexed with
    | leftParen same => rw [same]; rfl
    | rightParen same => rw [same]; rfl
    | comma same => rw [same]; rfl
    | text same read =>
      rw [same]
      simp [readToken, read]
    | quoted same length mark read =>
      rw [same] at read ⊢
      simp [readToken, length, mark, read, bind, Except.bind, pure, Except.pure]
    | negative same isDue digit read =>
      rw [same] at read ⊢
      simp [readToken, isDue, digit, read, bind, Except.bind, pure, Except.pure]
    | operator notNumber first spelled =>
      have other : ∀ d, Operator.isFirstChar d = false → (c == d) = false := by
        intro d plain
        rw [beq_eq_false_iff_ne]
        rintro rfl
        exact absurd (first.symm.trans plain) nofun
      simp [readToken, other '(' (by decide), other ')' (by decide), other ',' (by decide),
        other '"' (by decide), other '\'' (by decide), notNumber, first, spelled]
    | function begins paren read =>
      obtain ⟨notFirst, notMinus⟩ := plain_of_beginsWord begins
      simp only [beginsWord, Bool.not_eq_true', Bool.or_eq_false_iff] at begins
      rw [readToken]
      simp [begins, notMinus, paren, read, bind, Except.bind, pure, Except.pure]
    | word begins paren read =>
      obtain ⟨notFirst, notMinus⟩ := plain_of_beginsWord begins
      simp only [beginsWord, Bool.not_eq_true', Bool.or_eq_false_iff] at begins
      rw [List.head?_drop] at paren
      rw [readToken]
      simp [begins, notMinus, paren, read, bind, Except.bind, pure, Except.pure]

/-! ### What the words are -/

def Token.isOperand : Token → Bool
  | number _ | text _ | bool _ | cell _ | range _ => true
  | _ => false

theorem referenceToken_eq_ok {word : List Char} {t : Token} (h : referenceToken word = .ok t) :
    (∃ r, Range.ofChars word = .ok r ∧ t = .range r) ∨
      ∃ r, Reference.ofChars word = .ok r ∧ ':' ∉ word ∧ t = .cell r := by
  rw [referenceToken] at h
  split at h
  · cases read : Range.ofChars word with
    | error e => rw [read] at h; exact absurd h nofun
    | ok r =>
      rw [read] at h
      cases h
      exact Or.inl ⟨r, rfl, rfl⟩
  · cases read : Reference.ofChars word with
    | error e => rw [read] at h; exact absurd h nofun
    | ok r =>
      rw [read] at h
      cases h
      exact Or.inr ⟨r, rfl, fun colon => ‹¬ _› (List.contains_iff_mem.mpr colon), rfl⟩

theorem isOperand_of_referenceToken {word : List Char} {t : Token}
    (h : referenceToken word = .ok t) : t.isOperand = true := by
  rcases referenceToken_eq_ok h with ⟨r, -, rfl⟩ | ⟨r, -, -, rfl⟩ <;> rfl

theorem number_of_numberToken {negative : Bool} {written word : List Char} {t : Token}
    (h : numberToken negative written word = .ok t) : ∃ x, t = .number x := by
  rw [numberToken] at h
  split at h
  · cases h
    exact ⟨_, rfl⟩
  · exact absurd h nofun

theorem isOperand_of_numberToken {negative : Bool} {written word : List Char} {t : Token}
    (h : numberToken negative written word = .ok t) : t.isOperand = true := by
  obtain ⟨x, rfl⟩ := number_of_numberToken h
  rfl

theorem function_of_functionToken {word : List Char} {t : Token} (h : functionToken word = .ok t) :
    ∃ name, t = .function name := by
  rw [functionToken] at h
  split at h
  · cases h
    exact ⟨_, rfl⟩
  · exact absurd h nofun

theorem wordToken_eq_ok {word : List Char} {t : Token} (h : wordToken word = .ok t) :
    (∃ x, t = .number x) ∨ (∃ b, t = .bool b) ∨ referenceToken word = .ok t := by
  rw [wordToken] at h
  split at h
  · exact Or.inl (number_of_numberToken h)
  split at h
  · cases h
    exact Or.inr (Or.inl ⟨true, rfl⟩)
  split at h
  · cases h
    exact Or.inr (Or.inl ⟨false, rfl⟩)
  · exact Or.inr (Or.inr h)

theorem isOperand_of_wordToken {word : List Char} {t : Token} (h : wordToken word = .ok t) :
    t.isOperand = true := by
  rcases wordToken_eq_ok h with ⟨x, rfl⟩ | ⟨b, rfl⟩ | read
  · rfl
  · rfl
  · exact isOperand_of_referenceToken read

/-! ### What follows a token -/

theorem wordLength_le (cs : List Char) : wordLength cs ≤ cs.length := by
  induction cs with
  | nil => exact Nat.le_refl _
  | cons c cs ih =>
    rw [wordLength]
    split
    · exact Nat.zero_le _
    · exact Nat.succ_le_succ ih

theorem wordLength_take_append {cs rest : List Char}
    (head : rest.head? = (cs.drop (wordLength cs)).head?) (ends : wordLength rest = 0) :
    wordLength (cs.take (wordLength cs) ++ rest) = wordLength cs := by
  induction cs with
  | nil => exact ends
  | cons c cs ih =>
    rw [wordLength] at head ⊢
    split
    · exact ends
    · rename_i inner
      rw [if_neg inner, List.drop_succ_cons] at head
      have next : (cs.take (wordLength cs) ++ rest).head? = cs.head? := by
        cases length : wordLength cs with
        | zero =>
          rw [length] at head
          exact head
        | succ n => cases cs with
          | nil => exact absurd length nofun
          | cons d ds => rfl
      rw [List.take_succ_cons, List.cons_append, wordLength, ih head]
      rw [endsWord] at inner ⊢
      rw [next, if_neg inner]

theorem readText?_take {cs s : List Char} {n : Nat} (h : readText? cs = some (s, n))
    (rest : List Char) : n ≤ cs.length ∧ readText? (cs.take n ++ rest) = some (s, n) := by
  fun_induction readText? cs generalizing s n with
  | case1 => exact absurd h nofun
  | case2 cs =>
    cases h
    exact ⟨Nat.succ_le_succ (Nat.zero_le _), by simp [readText?]⟩
  | case3 => exact absurd h nofun
  | case4 c cs ih =>
    obtain ⟨⟨s', n'⟩, read, same⟩ := Option.map_eq_some_iff.mp h
    cases same
    obtain ⟨le, again⟩ := ih read
    exact ⟨Nat.succ_le_succ (Nat.succ_le_succ le), by simp [readText?, again]⟩
  | case5 c cs notQuote notLast notEscape ih =>
    obtain ⟨⟨s', n'⟩, read, same⟩ := Option.map_eq_some_iff.mp h
    cases same
    obtain ⟨le, again⟩ := ih read
    have notBackslash : c ≠ '\\' := by
      intro same
      cases cs with
      | nil => exact notLast same rfl
      | cons d ds => exact notEscape d ds same rfl
    refine ⟨Nat.succ_le_succ le, ?_⟩
    rw [List.take_succ_cons, List.cons_append, readText?, again]
    · rfl
    · exact notQuote
    · exact fun same _ => notBackslash same
    · exact fun _ _ same _ => notBackslash same

theorem quotedNameLength?_take {cs : List Char} {n : Nat} (h : quotedNameLength? cs = some n)
    (rest : List Char) (other : '\'' ∉ rest.head?) :
    n ≤ cs.length ∧ quotedNameLength? (cs.take n ++ rest) = some n := by
  fun_induction quotedNameLength? cs generalizing n with
  | case1 => exact absurd h nofun
  | case2 cs ih =>
    obtain ⟨n', read, rfl⟩ := Option.map_eq_some_iff.mp h
    obtain ⟨le, again⟩ := ih read
    exact ⟨Nat.succ_le_succ (Nat.succ_le_succ le), by simp [quotedNameLength?, again]⟩
  | case3 cs notDoubled =>
    cases h
    refine ⟨Nat.succ_le_succ (Nat.zero_le _), ?_⟩
    cases rest with
    | nil => rfl
    | cons d ds =>
      have plain : d ≠ '\'' := fun same => other (same ▸ rfl)
      simp [quotedNameLength?, plain]
  | case4 c cs notDoubled notLast ih =>
    obtain ⟨n', read, rfl⟩ := Option.map_eq_some_iff.mp h
    obtain ⟨le, again⟩ := ih read
    refine ⟨Nat.succ_le_succ le, ?_⟩
    rw [List.take_succ_cons, List.cons_append, quotedNameLength?, again]
    · rfl
    · exact fun _ same _ => notLast same
    · exact notLast

theorem head?_take_append {cs rest : List Char} {n : Nat} (head : rest.head? = (cs.drop n).head?) :
    (cs.take n ++ rest).head? = cs.head? := by
  cases n with
  | zero => exact head
  | succ n =>
    cases cs with
    | nil => exact head
    | cons c cs => rfl

theorem prefix_of_atStart? {cs : List Char} {op : Operator} (h : Operator.atStart? cs = some op) :
    op.spelling.toList <+: cs := by
  rw [Operator.atStart?] at h
  have spelled := List.find?_some h
  exact List.isPrefixOf_iff_prefix.mp spelled

theorem take_of_atStart? {c : Char} {cs : List Char} {op : Operator}
    (h : Operator.atStart? (c :: cs) = some op) :
    c :: cs.take (op.spelling.length - 1) = op.spelling.toList := by
  have taken := List.prefix_iff_eq_take.mp (prefix_of_atStart? h)
  obtain ⟨k, hk⟩ : ∃ k, op.spelling.length = k + 1 := by cases op <;> exact ⟨_, rfl⟩
  rw [String.length_toList, hk, List.take_succ_cons] at taken
  rw [taken, hk]
  rfl

theorem Lexed.le_length {due : Bool} {c : Char} {cs : List Char} {t : Token} {n : Nat}
    (h : Lexed due c cs t n) : n ≤ cs.length := by
  cases h with
  | leftParen | rightParen | comma => exact Nat.zero_le _
  | text _ read => exact (readText?_take read []).1
  | @quoted _ k rest _ _ mark _ =>
    have lengths := congrArg List.length mark
    rw [List.length_drop, List.length_cons] at lengths
    have := wordLength_le rest
    omega
  | negative | function | word => exact wordLength_le cs
  | @operator op _ _ spelled =>
    have short := (prefix_of_atStart? spelled).length_le
    rw [String.length_toList, List.length_cons] at short
    omega

/-- **A word, a text or a closing bracket is read in the same way** in front of other characters that
begin alike and end a word. -/
theorem Lexed.extend {due : Bool} {c : Char} {cs : List Char} {t : Token} {n : Nat}
    (h : Lexed due c cs t n) (notOperator : ∀ op, t ≠ .operator op) {rest : List Char}
    (head : rest.head? = (cs.drop n).head?) (ends : wordLength rest = 0) :
    Lexed due c (cs.take n ++ rest) t n := by
  have le := h.le_length
  have taken : (cs.take n ++ rest).take n = cs.take n := List.take_left' (List.length_take_of_le le)
  have dropped : (cs.take n ++ rest).drop n = rest := List.drop_left' (List.length_take_of_le le)
  cases h with
  | leftParen same => exact .leftParen same
  | rightParen same => exact .rightParen same
  | comma same => exact .comma same
  | text same read => exact .text same (readText?_take read rest).2
  | @quoted _ k word same length mark read =>
    -- The text is a name, the mark and a word; only the word meets what follows.
    have parts : cs = cs.take k ++ '!' :: word := by rw [← mark, List.take_append_drop]
    have name : (cs.take k).length = k := List.length_take_of_le (by omega)
    have cut : cs.drop (k + 1 + wordLength word) = word.drop (wordLength word) := by
      rw [Nat.add_assoc, ← List.drop_drop, mark, Nat.add_comm, List.drop_succ_cons]
    rw [cut] at head
    have long := wordLength_take_append head ends
    have joined : cs.take (k + 1 + wordLength word) ++ rest =
        cs.take k ++ '!' :: (word.take (wordLength word) ++ rest) := by
      rw [Nat.add_assoc, List.take_add, mark, Nat.add_comm, List.take_succ_cons]
      simp
    have length' := (quotedNameLength?_take length
      ('!' :: (word.take (wordLength word) ++ rest)) (by simp)).2
    have mark' : (cs.take (k + 1 + wordLength word) ++ rest).drop k =
        '!' :: (word.take (wordLength word) ++ rest) := by
      rw [joined, List.drop_left' name]
    have again : Lexed due c (cs.take (k + 1 + wordLength word) ++ rest) t _ :=
      .quoted same (joined ▸ length') mark' (by rw [long, taken]; exact read)
    rwa [long] at again
  | negative same isDue digit read =>
    have long := wordLength_take_append head ends
    have again : Lexed due c (cs.take (wordLength cs) ++ rest) t _ := .negative same isDue
      (by rwa [head?_take_append head]) (by rw [long, taken]; exact read)
    rwa [long] at again
  | operator => exact absurd rfl (notOperator _)
  | function begins paren read =>
    have long := wordLength_take_append head ends
    have again : Lexed due c (cs.take (wordLength cs) ++ rest) t _ := .function begins
      (by rw [long, dropped, head]; exact paren) (by rw [long, taken]; exact read)
    rwa [long] at again
  | word begins paren read =>
    have long := wordLength_take_append head ends
    have again : Lexed due c (cs.take (wordLength cs) ++ rest) t _ := .word begins
      (by rw [long, dropped, head]; exact paren) (by rw [long, taken]; exact read)
    rwa [long] at again

theorem atStart?_spelling (op : Operator) {rest : List Char} (equals : '=' ∉ rest.head?)
    (above : '>' ∉ rest.head?) : Operator.atStart? (op.spelling.toList ++ rest) = some op := by
  cases rest with
  | nil => cases op <;> decide
  | cons d ds =>
    have notEquals : ('=' == d) = false := by
      rw [beq_eq_false_iff_ne]
      rintro rfl
      exact equals rfl
    have notAbove : ('>' == d) = false := by
      rw [beq_eq_false_iff_ne]
      rintro rfl
      exact above rfl
    have two : ∀ c : Char, c = '=' ∨ c = '>' → [c].isPrefixOf (d :: ds) = false := by
      rintro c (rfl | rfl) <;> simp [List.isPrefixOf, notEquals, notAbove]
    cases op <;> simp [Operator.atStart?, Operator.all, Operator.spelling, two]

def Token.spelling? : Token → Option (List Char)
  | operator op => some op.spelling.toList
  | leftParen => some ['(']
  | rightParen => some [')']
  | comma => some [',']
  | _ => none

theorem Token.spelling?_of_isOperand {t : Token} (h : t.isOperand = true) : t.spelling? = none := by
  cases t <;> first | rfl | exact absurd h nofun

theorem Lexed.spelling {due : Bool} {c : Char} {cs : List Char} {t : Token} {n : Nat}
    (h : Lexed due c cs t n) {s : List Char} (hs : t.spelling? = some s) : c :: cs.take n = s := by
  have notOperand : t.isOperand = true → c :: cs.take n = s := fun operand =>
    absurd (hs.symm.trans (Token.spelling?_of_isOperand operand)) nofun
  cases h with
  | leftParen same | rightParen same | comma same =>
    rw [same]
    exact Option.some.inj hs
  | text => exact notOperand rfl
  | quoted _ _ _ read => exact notOperand (isOperand_of_referenceToken read)
  | negative _ _ _ read => exact notOperand (isOperand_of_numberToken read)
  | function _ _ read =>
    obtain ⟨_, rfl⟩ := function_of_functionToken read
    exact absurd hs nofun
  | word _ _ read => exact notOperand (isOperand_of_wordToken read)
  | @operator op _ _ spelled =>
    rw [take_of_atStart? spelled]
    exact Option.some.inj hs

theorem Lexed.function_head {due : Bool} {c : Char} {cs : List Char} {name : String} {n : Nat}
    (h : Lexed due c cs (.function name) n) : (cs.drop n).head? = some '(' := by
  cases h with
  | quoted _ _ _ read => exact absurd (isOperand_of_referenceToken read) nofun
  | negative _ _ _ read => exact absurd (isOperand_of_numberToken read) nofun
  | function _ paren _ => exact paren
  | word _ _ read => exact absurd (isOperand_of_wordToken read) nofun

/-- Only an operator begins with the second character of an operator. -/
theorem Lexed.first_ne {due : Bool} {c : Char} {cs : List Char} {t : Token} {n : Nat}
    (h : Lexed due c cs t n) (notOperator : ∀ op, t ≠ .operator op) : c ≠ '=' ∧ c ≠ '>' := by
  have word : beginsWord c = true → c ≠ '=' ∧ c ≠ '>' := by
    intro begins
    constructor <;> rintro rfl <;> exact absurd begins (by decide)
  cases h with
  | leftParen same | rightParen same | comma same | text same | quoted same | negative same =>
    rw [same]
    decide
  | operator => exact absurd rfl (notOperator _)
  | function begins => exact word begins
  | word begins => exact word begins

/-- **An operator between operands is read in the same way** in front of other characters that do not
make it longer. -/
theorem Lexed.extend_operator {c : Char} {cs : List Char} {op : Operator} {n : Nat}
    (h : Lexed false c cs (.operator op) n) {rest : List Char} (equals : '=' ∉ rest.head?)
    (above : '>' ∉ rest.head?) : Lexed false c (cs.take n ++ rest) (.operator op) n := by
  have spelling := h.spelling rfl
  cases h with
  | quoted _ _ _ read => exact absurd (isOperand_of_referenceToken read) nofun
  | negative _ isDue => exact absurd isDue nofun
  | function _ _ read =>
    obtain ⟨_, same⟩ := function_of_functionToken read
    exact absurd same nofun
  | word _ _ read => exact absurd (isOperand_of_wordToken read) nofun
  | operator _ first _ =>
    refine .operator (by simp) first ?_
    rw [← List.cons_append, spelling]
    exact atStart?_spelling op equals above

end Spreadsheet.Formula
