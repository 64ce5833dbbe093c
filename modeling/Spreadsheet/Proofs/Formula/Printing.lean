import Spreadsheet.Proofs.Formula.Grammar
import Spreadsheet.Proofs.Formula.Substitution

/-!
# Writing an expression

An expression is written without blanks and with no parentheses that its grouping can do without.  An
operand of an operator stands in parentheses only if its own operator binds looser, or as tight where
the operand is the right one, since operators group to the left.  What is written is read back as the
same expression.

* `Source`: an expression with its numbers as they are written.  Only what can be written is one.
* `Source.chars s` and `Source.tokens s`: the text and the tokens of an expression.
* `Source.derives`: the grammar derives the expression from the tokens.
* `Source.tokenized`: in front of anything that ends an operand, the text is cut into the tokens.
* `Source.parse_written`: the text says the expression.
-/

namespace Spreadsheet.Formula

/-! ### Expressions as they are written -/

/-- A number as a formula writes it: digits with at most one point among them, and perhaps a `-` in
front. -/
structure Numeral where
  negative : Bool
  /-- The digits in front of the point. -/
  whole : List Char
  /-- The digits after the point, if there is one. -/
  fraction : Option (List Char)
  digits : ∀ c ∈ whole ++ fraction.getD [], c.isDigit = true
  nonempty : whole ++ fraction.getD [] ≠ []
  /-- A `-` stands in front of a digit. -/
  leading : negative = true → whole ≠ []

namespace Numeral

variable (n : Numeral)

def magnitude : List Char := n.whole ++ n.fraction.elim [] ('.' :: ·)

/-- The text of a number. -/
def chars : List Char := if n.negative then '-' :: n.magnitude else n.magnitude

/-- The double nearest to the decimal fraction that is written. -/
def value : Float :=
  Number.ofPattern n.negative
    (Number.ofDecimal (Nat.ofDigitChars 10 (n.whole ++ n.fraction.getD []) 0)
      (-(n.fraction.getD []).length))

end Numeral

/-- The name of a function in capitals. -/
structure FunctionName where
  chars : List Char
  proper : isFunctionName chars = true
  capital : Text.capitals chars = chars

/-- An expression that can be written, with its numbers as they are written. -/
inductive Source
  | number (n : Numeral)
  | text (value : String)
  | bool (value : Bool)
  | mention (m : Mention) (admissible : m.Admissible)
  | call (name : FunctionName) (arguments : List Source)
  | binary (op : Operator) (left right : Source)

namespace Source

/-- The level of the grammar on which the expression stands without parentheses. -/
def level : Source → Nat
  | binary op _ _ => op.level + 1
  | _ => 0

mutual

/-- The expression that is written. -/
def expr : Source → Expr
  | number n => .number n.value
  | text value => .text value
  | bool value => .bool value
  | mention m _ => m.expr
  | call name arguments => .call (String.ofList name.chars) (exprAll arguments)
  | binary op left right => .binary op left.expr right.expr

def exprAll : List Source → List Expr
  | [] => []
  | s :: ss => s.expr :: exprAll ss

end

def enclose (limit : Nat) (s : Source) (cs : List Char) : List Char :=
  if s.level ≤ limit then cs else '(' :: (cs ++ [')'])

mutual

/-- The text of an expression. -/
def chars : Source → List Char
  | number n => n.chars
  | text value => (Text.quote value).toList
  | bool value => (boolText value).toList
  | mention m _ => m.text.toList
  | call name arguments => name.chars ++ '(' :: ([','].intercalate (charsAll arguments) ++ [')'])
  | binary op left right =>
    enclose (op.level + 1) left left.chars ++
      (op.spelling.toList ++ enclose op.level right right.chars)

def charsAll : List Source → List (List Char)
  | [] => []
  | s :: ss => s.chars :: charsAll ss

end

/-- The text of an expression, as a string. -/
def written (s : Source) : String := String.ofList s.chars

def encloseTokens (limit : Nat) (s : Source) (ts : List Token) : List Token :=
  if s.level ≤ limit then ts else .leftParen :: (ts ++ [.rightParen])

mutual

/-- The tokens of an expression. -/
def tokens : Source → List Token
  | number n => [.number n.value]
  | text value => [.text value]
  | bool value => [.bool value]
  | mention m _ => [m.token]
  | call name arguments =>
    .function (String.ofList name.chars) :: .leftParen ::
      ([Token.comma].intercalate (tokensAll arguments) ++ [.rightParen])
  | binary op left right =>
    encloseTokens (op.level + 1) left left.tokens ++
      .operator op :: encloseTokens op.level right right.tokens

def tokensAll : List Source → List (List Token)
  | [] => []
  | s :: ss => s.tokens :: tokensAll ss

end

/-! ### The tokens -/

def phrase (s : Source) : Phrase := ⟨s.tokens, s.expr⟩

theorem tokensAll_eq (ss : List Source) : tokensAll ss = (ss.map phrase).map Phrase.tokens := by
  induction ss with
  | nil => rfl
  | cons s ss ih => rw [tokensAll, ih]; rfl

theorem exprAll_eq (ss : List Source) : exprAll ss = (ss.map phrase).map Phrase.expr := by
  induction ss with
  | nil => rfl
  | cons s ss ih => rw [exprAll, ih]; rfl

theorem level_le (s : Source) : s.level ≤ Operator.levelCount := by
  cases s with
  | binary op => exact op.level_lt_levelCount
  | _ => exact Nat.zero_le _

theorem derives_enclose {s : Source} (h : Derives s.level s.tokens s.expr) (limit : Nat) :
    Derives limit (encloseTokens limit s s.tokens) s.expr := by
  rw [encloseTokens]
  split
  · exact h.mono ‹_›
  · exact (Derives.group (h.mono s.level_le)).mono (Nat.zero_le _)

mutual

/-- **The grammar derives the expression from its tokens.** -/
theorem derives : ∀ s : Source, Derives s.level s.tokens s.expr
  | number n => .number n.value
  | text value => .text value
  | bool value => .bool value
  | mention m _ => by cases m <;> constructor
  | call name arguments => by
    rw [tokens, expr, tokensAll_eq, exprAll_eq]
    refine .call _ _ ?_
    intro a ha
    obtain ⟨s, hs, rfl⟩ := List.mem_map.mp ha
    exact (derivesAll arguments s hs).mono s.level_le
  | binary op left right => by
    rw [tokens, expr]
    exact (derives_enclose left.derives _).snoc rfl (derives_enclose right.derives _)

theorem derivesAll : ∀ ss : List Source, ∀ s ∈ ss, Derives s.level s.tokens s.expr
  | [], _, hs => absurd hs List.not_mem_nil
  | s :: ss, t, ht => by
    rcases List.mem_cons.mp ht with same | ht
    · rw [same]
      exact s.derives
    · exact derivesAll ss t ht

end

end Source

/-! ### Cutting a text -/

/-- The text is cut into the tokens.  `due` says whether an operand has to come next. -/
def Tokenized (due : Bool) (cs : List Char) (ts : List Token) : Prop :=
  ∃ ps, Pieced due cs ps ∧ ps.filterMap Piece.token? = ts

theorem tokens_eq_ok_iff_tokenized {formula : String} {ts : List Token} :
    tokens formula = .ok ts ↔ Tokenized true formula.toList ts := tokens_eq_ok_iff

/-- What follows an operand: it ends the operand's word and opens no call. -/
def EndsOperand (rest : List Char) : Prop := wordLength rest = 0 ∧ '(' ∉ rest.head?

theorem endsOperand_nil : EndsOperand [] := ⟨rfl, nofun⟩

theorem endsOperand_spelling {t : Token} {s : List Char} (ends : t.endsOperand = true)
    (spelled : t.spelling? = some s) (rest : List Char) : EndsOperand (s ++ rest) :=
  ends_of_endsOperand ends spelled rest

namespace Tokenized

variable {due : Bool} {c : Char} {cs rest : List Char} {t : Token} {ts : List Token}

theorem nil : Tokenized due [] [] := ⟨[], .nil, rfl⟩

theorem token {n : Nat} (visible : Text.isBlank c = false) (lexed : Lexed due c cs t n)
    (h : Tokenized t.opensOperand (cs.drop n) ts) : Tokenized due (c :: cs) (t :: ts) := by
  obtain ⟨ps, pieced, rfl⟩ := h
  exact ⟨_, .token visible lexed pieced, rfl⟩

theorem append (visible : Text.isBlank c = false) (lexed : Lexed due c (cs ++ rest) t cs.length)
    (h : Tokenized t.opensOperand rest ts) : Tokenized due (c :: cs ++ rest) (t :: ts) := by
  rw [List.cons_append]
  exact token visible lexed (by rwa [List.drop_left])

theorem leftParen (h : Tokenized true rest ts) : Tokenized due ('(' :: rest) (.leftParen :: ts) :=
  token (by decide) (.leftParen rfl) h

theorem rightParen (h : Tokenized false rest ts) :
    Tokenized due (')' :: rest) (.rightParen :: ts) :=
  token (by decide) (.rightParen rfl) h

theorem comma (h : Tokenized true rest ts) : Tokenized due (',' :: rest) (.comma :: ts) :=
  token (by decide) (.comma rfl) h

/-- A text whose first token is no operator begins with no second character of an operator. -/
theorem first_ne (h : Tokenized due cs ts) (notOperator : ∀ op, .operator op ∉ ts.head?) :
    '=' ∉ cs.head? ∧ '>' ∉ cs.head? := by
  obtain ⟨ps, pieced, rfl⟩ := h
  cases pieced with
  | nil => exact ⟨nofun, nofun⟩
  | blank blank =>
    constructor <;> rintro ⟨⟩ <;> exact absurd blank (by decide)
  | token _ lexed =>
    have ne := lexed.first_ne fun op same => notOperator op (same ▸ rfl)
    exact ⟨fun same => ne.1 (Option.some.inj same), fun same => ne.2 (Option.some.inj same)⟩

theorem operator (op : Operator) (h : Tokenized true rest ts)
    (notOperator : ∀ op, .operator op ∉ ts.head?) :
    Tokenized false (op.spelling.toList ++ rest) (.operator op :: ts) := by
  obtain ⟨equals, above⟩ := h.first_ne notOperator
  obtain ⟨c, cs, spelled, first, visible⟩ : ∃ c cs, op.spelling.toList = c :: cs ∧
      Operator.isFirstChar c = true ∧ Text.isBlank c = false := by
    cases op <;> exact ⟨_, _, rfl, by decide, by decide⟩
  have whole := atStart?_spelling op equals above
  have length : op.spelling.length - 1 = cs.length := by
    rw [← String.length_toList, spelled]
    rfl
  rw [spelled] at whole ⊢
  exact append visible (length ▸ .operator (by simp) first whole) h

end Tokenized

/-! ### The operands -/

def ReadAs (t : Token) (text : List Char) : Prop :=
  ∃ c cs, text = c :: cs ∧ Text.isBlank c = false ∧
    ∀ rest, EndsOperand rest → Lexed true c (cs ++ rest) t cs.length

theorem ReadAs.tokenized {t : Token} {text rest : List Char} {ts : List Token} (h : ReadAs t text)
    (operand : t.isOperand = true) (ends : EndsOperand rest) (tail : Tokenized false rest ts) :
    Tokenized true (text ++ rest) (t :: ts) := by
  obtain ⟨c, cs, rfl, visible, lexed⟩ := h
  rw [← Token.opensOperand_of_isOperand operand] at tail
  exact .append visible (lexed rest ends) tail

theorem readAs_word {t : Token} {c : Char} {cs : List Char} (inner : ∀ d ∈ c :: cs, isInner d = true)
    (read : wordToken (c :: cs) = .ok t) : ReadAs t (c :: cs) := by
  have first : isInner c = true := inner c List.mem_cons_self
  refine ⟨c, cs, rfl, not_isBlank_of_isInner first, fun rest ends => ?_⟩
  have long : wordLength (cs ++ rest) = cs.length := by
    rw [wordLength_append fun d hd => inner d (List.mem_cons_of_mem _ hd), ends.1, Nat.add_zero]
  have word : Lexed true c (cs ++ rest) t (wordLength (cs ++ rest)) :=
    .word (beginsWord_of_isInner first) (by rw [long, List.drop_left]; exact ends.2)
      (by rw [long, List.take_left]; exact read)
  rwa [long] at word

theorem readAs_bool (b : Bool) : ReadAs (.bool b) (boolText b).toList := by
  cases b with
  | true => exact @readAs_word (.bool true) 'T' "RUE".toList (List.all_eq_true.mp (by decide)) rfl
  | false => exact @readAs_word (.bool false) 'F' "ALSE".toList (List.all_eq_true.mp (by decide)) rfl

theorem readAs_quote (text : String) : ReadAs (.text text) (Text.quote text).toList := by
  refine ⟨'"', Text.escape text.toList ++ ['"'], ?_, by decide, fun rest _ => ?_⟩
  · rw [Text.quote, String.toList_ofList, List.cons_append]
  · have body := readText?_escape text.toList rest
    rw [List.append_assoc, List.singleton_append, List.length_append, List.length_singleton]
    have read : Lexed true '"' (Text.escape text.toList ++ '"' :: rest) _ _ := .text rfl body
    rwa [String.ofList_toList] at read

theorem Mention.readAs_text {m : Mention} (admissible : m.Admissible) :
    ReadAs m.token m.text.toList := by
  obtain ⟨c, cs, text, visible, -, -, whole⟩ := m.readWhole_text
  have read : wordToken m.text.toList = .ok m.token := by
    rw [wordToken_text admissible.positive]
    exact (referenceToken_text admissible.writable).1 admissible.fits
  refine ⟨c, cs, text, visible, fun rest ends => ?_⟩
  refine (readToken_eq_ok_iff 0).mp ?_
  rw [whole rest ends.1 ends.2, ← text, read]
  rfl

/-! ### Numbers -/

namespace Numeral

theorem isDigit_of_mem_whole (n : Numeral) {c : Char} (h : c ∈ n.whole) : c.isDigit = true :=
  n.digits c (List.mem_append_left _ h)

theorem isInner_of_mem_magnitude (n : Numeral) {c : Char} (h : c ∈ n.magnitude) :
    isInner c = true := by
  have digit : ∀ d : Char, d.isDigit = true → isInner d = true := fun d hd => by simp [isInner, hd]
  have digits := n.digits
  rw [magnitude] at h
  cases fraction : n.fraction with
  | none =>
    rw [fraction] at h
    exact digit c (n.isDigit_of_mem_whole (by simpa using h))
  | some ds =>
    rw [fraction] at h digits
    rcases List.mem_append.mp h with h | h
    · exact digit c (n.isDigit_of_mem_whole h)
    · rcases List.mem_cons.mp h with rfl | h
      · decide
      · exact digit c (digits c (List.mem_append_right _ h))

/-- The digits in front of the point end where it stands. -/
theorem span_magnitude (n : Numeral) :
    n.magnitude.takeWhile Char.isDigit = n.whole ∧
      n.magnitude.dropWhile Char.isDigit = n.fraction.elim [] ('.' :: ·) := by
  have whole : ∀ c ∈ n.whole, c.isDigit = true := fun c h => n.isDigit_of_mem_whole h
  rw [magnitude, List.takeWhile_append_of_pos whole, List.dropWhile_append_of_pos whole]
  cases n.fraction with
  | none => exact ⟨List.append_nil _, rfl⟩
  | some ds => exact ⟨List.append_nil _, rfl⟩

theorem readLiteral?_magnitude (n : Numeral) :
    Number.readLiteral? n.magnitude =
      some (Number.ofDecimal (Nat.ofDigitChars 10 (n.whole ++ n.fraction.getD []) 0)
        (-(n.fraction.getD []).length)) := by
  obtain ⟨front, back⟩ := n.span_magnitude
  have nonempty := n.nonempty
  have digits := n.digits
  rw [Number.readLiteral?, Number.Mantissa.ofChars?, front, back]
  cases fraction : n.fraction with
  | none =>
    have some : n.whole ≠ [] := by simpa [fraction] using nonempty
    simp [some, Number.Mantissa.pattern]
  | some ds =>
    have all : ds.all Char.isDigit = true := List.all_eq_true.mpr fun c hc =>
      digits c (List.mem_append_right _ (by rwa [fraction]))
    have some : (n.whole.isEmpty && ds.isEmpty) = false := by
      rw [fraction] at nonempty
      rw [← Bool.not_eq_true, Bool.and_eq_true, List.isEmpty_iff, List.isEmpty_iff]
      rintro ⟨none, none'⟩
      exact nonempty (by rw [none]; exact none')
    simp only [Option.elim_some, all, some]
    simp [Number.Mantissa.pattern]

theorem numberToken_magnitude (n : Numeral) (written : List Char) :
    numberToken n.negative written n.magnitude = .ok (.number n.value) := by
  rw [numberToken, n.readLiteral?_magnitude]
  rfl

theorem exists_magnitude_cons (n : Numeral) :
    ∃ c cs, n.magnitude = c :: cs ∧ beginsNumber c = true ∧
      (n.negative = true → c.isDigit = true) := by
  cases whole : n.whole with
  | cons c cs =>
    have digit : c.isDigit = true := n.isDigit_of_mem_whole (whole ▸ List.mem_cons_self)
    exact ⟨c, _, by rw [magnitude, whole]; rfl, by simp [beginsNumber, digit], fun _ => digit⟩
  | nil =>
    cases fraction : n.fraction with
    | none => exact absurd (by rw [whole, fraction]; rfl) n.nonempty
    | some ds =>
      exact ⟨'.', ds, by rw [magnitude, whole, fraction]; rfl, by decide,
        fun negative => absurd whole (n.leading negative)⟩

/-- **A number is read as its value**, also with a `-` in front. -/
theorem readAs_chars (n : Numeral) : ReadAs (.number n.value) n.chars := by
  obtain ⟨c, cs, magnitude, begins, digit⟩ := n.exists_magnitude_cons
  have token := n.numberToken_magnitude
  have inner : ∀ d ∈ n.magnitude, isInner d = true := fun d hd => n.isInner_of_mem_magnitude hd
  rw [chars]
  cases negative : n.negative with
  | false =>
    rw [magnitude] at inner token ⊢
    refine readAs_word inner ?_
    rw [wordToken, if_pos (show (c :: cs).head?.any beginsNumber = true from begins), ← negative]
    exact token _
  | true =>
    refine ⟨'-', n.magnitude, rfl, by decide, fun rest ends => ?_⟩
    have long : wordLength (n.magnitude ++ rest) = n.magnitude.length := by
      rw [wordLength_append inner, ends.1, Nat.add_zero]
    have first : (n.magnitude ++ rest).head?.any Char.isDigit = true := by
      rw [magnitude]
      exact digit negative
    have read : Lexed true '-' (n.magnitude ++ rest) (.number n.value) _ :=
      .negative rfl rfl first (by rw [long, List.take_left, ← negative]; exact token _)
    rwa [long] at read

end Numeral

/-! ### The text of an expression -/

namespace FunctionName

variable (name : FunctionName)

theorem isInner_of_mem_chars {c : Char} (h : c ∈ name.chars) : isInner c = true := by
  have proper := name.proper
  cases chars : name.chars with
  | nil =>
    rw [chars] at h
    exact absurd h List.not_mem_nil
  | cons d ds =>
    rw [chars] at h proper
    rw [isFunctionName, Bool.and_eq_true, List.all_eq_true] at proper
    rcases List.mem_cons.mp h with rfl | h
    · simp [isInner, proper.1]
    · have kind := proper.2 c h
      simp only [Char.isAlphanum, Bool.or_eq_true, beq_iff_eq] at kind
      simp only [isInner, Bool.or_eq_true, beq_iff_eq]
      tauto

theorem tokenized {rest : List Char} {ts : List Token} (tail : Tokenized true rest ts) :
    Tokenized true (name.chars ++ '(' :: rest)
      (.function (String.ofList name.chars) :: .leftParen :: ts) := by
  have inner : ∀ c ∈ name.chars, isInner c = true := fun c h => name.isInner_of_mem_chars h
  have proper := name.proper
  have capital := name.capital
  cases chars : name.chars with
  | nil =>
    rw [chars] at proper
    cases proper
  | cons c cs =>
    rw [chars] at inner proper capital
    have long : wordLength (cs ++ '(' :: rest) = cs.length := by
      rw [wordLength_append fun d hd => inner d (List.mem_cons_of_mem _ hd)]
      rfl
    have read : functionToken (c :: cs) = .ok (.function (String.ofList (c :: cs))) := by
      rw [functionToken, if_pos proper, capital]
    have function : Lexed true c (cs ++ '(' :: rest) _ (wordLength (cs ++ '(' :: rest)) :=
      .function (beginsWord_of_isInner (inner c List.mem_cons_self))
        (by rw [long, List.drop_left]; rfl) (by rw [long, List.take_left]; exact read)
    rw [long] at function
    exact .append (not_isBlank_of_isInner (inner c List.mem_cons_self)) function tail.leftParen

end FunctionName

theorem Derives.head_ne_operator {k : Nat} {ts : List Token} {e : Expr} (h : Derives k ts e) :
    ∃ t ts', ts = t :: ts' ∧ ∀ op, t ≠ .operator op := by
  induction h with
  | row _ _ _ _ ih =>
    obtain ⟨t, ts', rfl, plain⟩ := ih
    exact ⟨t, _, rfl, plain⟩
  | _ => exact ⟨_, _, rfl, nofun⟩

namespace Source

def IsTokenized (s : Source) : Prop :=
  ∀ rest ts, EndsOperand rest → Tokenized false rest ts →
    Tokenized true (s.chars ++ rest) (s.tokens ++ ts)

theorem IsTokenized.enclose {s : Source} (h : s.IsTokenized) (limit : Nat) {rest : List Char}
    {ts : List Token} (ends : EndsOperand rest) (tail : Tokenized false rest ts) :
    Tokenized true (s.enclose limit s.chars ++ rest) (s.encloseTokens limit s.tokens ++ ts) := by
  rw [Source.enclose, encloseTokens]
  split
  · exact h rest ts ends tail
  · rw [List.cons_append, List.cons_append, List.append_assoc, List.append_assoc]
    exact (h _ _ (endsOperand_spelling (t := .rightParen) rfl rfl rest) tail.rightParen).leftParen

theorem operator_not_mem_head (s : Source) (limit : Nat) (ts : List Token) (op : Operator) :
    .operator op ∉ (s.encloseTokens limit s.tokens ++ ts).head? := by
  obtain ⟨t, ts', listed, plain⟩ := (derives_enclose s.derives limit).head_ne_operator
  rw [listed, List.cons_append, List.head?_cons]
  exact fun same => plain op (Option.some.inj same)

theorem tokenized_arguments {rest : List Char} {ts : List Token} (tail : Tokenized false rest ts)
    {ss : List Source} (h : ∀ s ∈ ss, s.IsTokenized) :
    Tokenized true ([','].intercalate (charsAll ss) ++ ')' :: rest)
      ([Token.comma].intercalate (tokensAll ss) ++ .rightParen :: ts) := by
  induction ss with
  | nil => exact tail.rightParen
  | cons s ss ih =>
    have others := ih fun x hx => h x (List.mem_cons_of_mem _ hx)
    have first := h s List.mem_cons_self
    cases ss with
    | nil =>
      have ends := endsOperand_spelling (t := .rightParen) rfl rfl rest
      simpa [charsAll, tokensAll] using first _ _ ends tail.rightParen
    | cons s' ss =>
      have ends := endsOperand_spelling (t := .comma) rfl rfl
        ([','].intercalate (charsAll (s' :: ss)) ++ ')' :: rest)
      have joined := first _ _ ends others.comma
      rw [charsAll, tokensAll, List.intercalate_cons_of_ne_nil (by simp [charsAll]),
        List.intercalate_cons_of_ne_nil (by simp [tokensAll])]
      simpa using joined

mutual

/-- **The text of an expression is cut into its tokens.** -/
theorem tokenized : ∀ s : Source, s.IsTokenized
  | number n => fun _ _ ends tail => n.readAs_chars.tokenized rfl ends tail
  | text value => fun _ _ ends tail => (readAs_quote value).tokenized rfl ends tail
  | bool value => fun _ _ ends tail => (readAs_bool value).tokenized rfl ends tail
  | mention m admissible => fun _ _ ends tail =>
    (Mention.readAs_text admissible).tokenized m.isOperand_token ends tail
  | call name arguments => fun rest ts _ tail => by
    have inside := tokenized_arguments tail (tokenizedAll arguments)
    rw [chars, tokens]
    simpa using name.tokenized inside
  | binary op left right => fun rest ts ends tail => by
    have last := right.tokenized.enclose op.level ends tail
    have middle := last.operator op (right.operator_not_mem_head _ _)
    have first := left.tokenized.enclose (op.level + 1)
      (endsOperand_spelling (t := .operator op) rfl rfl _) middle
    rw [chars, tokens]
    simpa using first

theorem tokenizedAll : ∀ ss : List Source, ∀ s ∈ ss, s.IsTokenized
  | [], _, hs => absurd hs List.not_mem_nil
  | s :: ss, t, ht => by
    rcases List.mem_cons.mp ht with same | ht
    · rw [same]
      exact s.tokenized
    · exact tokenizedAll ss t ht

end

/-- **Reading undoes writing**: the text of an expression says the expression. -/
theorem parse_written (s : Source) : parse s.written = .ok s.expr := by
  have tokenized := s.tokenized [] [] endsOperand_nil .nil
  rw [List.append_nil, List.append_nil] at tokenized
  have lexed : Formula.tokens s.written = .ok s.tokens := by
    rw [tokens_eq_ok_iff_tokenized, written, String.toList_ofList]
    exact tokenized
  have derived := s.derives.mono s.level_le
  obtain ⟨t, ts, listed, -⟩ := derived.head
  rw [parse, lexed]
  show Expr.ofTokens s.tokens = _
  rw [Expr.ofTokens, if_neg (by simp [listed])]
  exact readExpr_eq_ok_iff.mpr derived

/-- A negative number after a minus sign, and operands on the right that keep their parentheses. -/
example :
    let two : Source := .number
      ⟨true, ['2'], some ['5'], List.all_eq_true.mp (by decide), by decide, by decide⟩
    let cell : Source := .mention (.cell ⟨some "it's", 3, 1, true, false⟩)
      ⟨⟨by decide, by decide, nofun⟩, by rintro _ ⟨⟩; decide⟩
    let call : Source := .call ⟨['P', 'I'], by decide, by decide⟩ []
    (binary .notEqual (.binary .minus (.binary .minus call two) (.binary .plus two (.text "\"")))
        (.binary .less cell two)).written =
      "PI()--2.5-(-2.5+\"\\\"\")!=('it''s'!A$3<-2.5)" := by
  decide +kernel

end Source

end Spreadsheet.Formula
