import Spreadsheet.Proofs.Formula.Splicing

/-!
# The grammar of formulas

The grammar has a level for each level of operators.  An operand is a literal, a reference, a range,
a call or an expression in parentheses; an expression of the next level is a row of expressions of
this level with its operators between them, folded from the left.

* `Derives k ts e`: the tokens `ts` are an expression of level `k` that says `e`.
* `Derives.isRead`: what the grammar derives is read as a chain that is grouped to what it says.
* `Chain.Spelled.derives`: what a chain is grouped to is derived from the tokens of the chain.
* `derives_of_readExpr`: what is read is derived.
-/

namespace Spreadsheet.Formula

/-- Some tokens and the expression that they are. -/
structure Phrase where
  tokens : List Token
  expr : Expr

/-- The tokens are an expression of the level.  Level 0 has no operators outside of brackets; level
`k + 1` is a row of expressions of level `k` with the operators of level `k` between them. -/
inductive Derives : Nat → List Token → Expr → Prop
  | number (x : Float) : Derives 0 [.number x] (.number x)
  | text (s : String) : Derives 0 [.text s] (.text s)
  | bool (b : Bool) : Derives 0 [.bool b] (.bool b)
  | cell (r : WrittenReference) : Derives 0 [.cell r] (.cell r)
  | range (r : WrittenRange) : Derives 0 [.range r] (.range r)
  | call (name : String) (arguments : List Phrase) :
      (∀ a ∈ arguments, Derives Operator.levelCount a.tokens a.expr) →
        Derives 0
          (.function name :: .leftParen ::
            ([Token.comma].intercalate (arguments.map Phrase.tokens) ++ [.rightParen]))
          (.call name (arguments.map Phrase.expr))
  | group {ts : List Token} {e : Expr} : Derives Operator.levelCount ts e →
      Derives 0 (.leftParen :: (ts ++ [.rightParen])) e
  | row {k : Nat} {ts : List Token} {e : Expr} (rest : List (Operator × Phrase)) :
      Derives k ts e → (∀ r ∈ rest, r.1.level = k) →
        (∀ r ∈ rest, Derives k r.2.tokens r.2.expr) →
          Derives (k + 1) (ts ++ rest.flatMap fun r => .operator r.1 :: r.2.tokens)
            (rest.foldl (fun e r => .binary r.1 e r.2.expr) e)

namespace Derives

theorem operand {t : Token} {e : Expr} (h : t.operand? = some e) : Derives 0 [t] e := by
  cases t <;> cases h <;> constructor

theorem lift {k : Nat} {ts : List Token} {e : Expr} (h : Derives k ts e) : Derives (k + 1) ts e := by
  have row := Derives.row [] h nofun nofun
  rwa [List.flatMap_nil, List.append_nil] at row

theorem mono {k l : Nat} {ts : List Token} {e : Expr} (h : Derives k ts e) (le : k ≤ l) :
    Derives l ts e := by
  induction le with
  | refl => exact h
  | step _ ih => exact ih.lift

theorem snoc {k : Nat} {ts ts' : List Token} {e e' : Expr} {op : Operator}
    (h : Derives (k + 1) ts e) (level : op.level = k) (h' : Derives k ts' e') :
    Derives (k + 1) (ts ++ .operator op :: ts') (.binary op e e') := by
  cases h with
  | @row _ ts e rest first levels operands =>
    have row := Derives.row (rest ++ [(op, ⟨ts', e'⟩)]) first
      (List.forall_mem_append.mpr ⟨levels, List.forall_mem_singleton.mpr level⟩)
      (List.forall_mem_append.mpr ⟨operands, List.forall_mem_singleton.mpr h'⟩)
    simpa using row

theorem head {k : Nat} {ts : List Token} {e : Expr} (h : Derives k ts e) :
    ∃ t ts', ts = t :: ts' ∧ t ≠ .rightParen := by
  induction h with
  | row _ _ _ _ ih =>
    obtain ⟨t, ts', rfl, notClosed⟩ := ih
    exact ⟨t, _, rfl, notClosed⟩
  | _ => exact ⟨_, _, rfl, nofun⟩

end Derives

/-! ### Grouping a chain -/

def Chain.join (c : Chain) (op : Operator) (d : Chain) : Chain :=
  ⟨c.first, c.rest ++ (op, d.first) :: d.rest⟩

theorem Chain.join_assoc (c d e : Chain) (op op' : Operator) :
    c.join op (d.join op' e) = (c.join op d).join op' e := by
  simp [join]

/-- The chain after the operators of the first `k` levels have joined their neighbours. -/
def Chain.grouped (k : Nat) (c : Chain) : Chain :=
  (List.range k).foldl (fun c level => regroup level c.first c.rest) c

theorem Chain.expr_eq_grouped (c : Chain) : c.expr = (c.grouped Operator.levelCount).first := rfl

theorem Chain.grouped_succ (k : Nat) (c : Chain) :
    c.grouped (k + 1) = regroup k (c.grouped k).first (c.grouped k).rest := by
  rw [grouped, List.range_succ, List.foldl_append]
  rfl

theorem regroup_join {level : Nat} {op : Operator} (other : op.level ≠ level) (e e' : Expr)
    (rest rest' : List (Operator × Expr)) :
    regroup level e (rest ++ (op, e') :: rest') =
      (regroup level e rest).join op (regroup level e' rest') := by
  induction rest generalizing e with
  | nil =>
    rw [List.nil_append, regroup.eq_2, if_neg other]
    rfl
  | cons head rest ih =>
    obtain ⟨op', operand⟩ := head
    rw [List.cons_append, regroup, regroup]
    split
    · exact ih _
    · rw [ih]
      rfl

theorem Chain.grouped_join {k : Nat} {op : Operator} (later : k ≤ op.level) (c d : Chain) :
    (c.join op d).grouped k = (c.grouped k).join op (d.grouped k) := by
  induction k with
  | zero => rfl
  | succ k ih =>
    rw [grouped_succ, ih (by omega), grouped_succ, grouped_succ]
    exact regroup_join (by omega) _ _ _ _

theorem regroup_of_level {k : Nat} {rest : List (Operator × Expr)} (levels : ∀ r ∈ rest, r.1.level = k)
    (e : Expr) : regroup k e rest = ⟨rest.foldl (fun e r => .binary r.1 e r.2) e, []⟩ := by
  induction rest generalizing e with
  | nil => rfl
  | cons head rest ih =>
    obtain ⟨op, operand⟩ := head
    rw [regroup, if_pos (levels _ List.mem_cons_self), List.foldl_cons]
    exact ih (fun r hr => levels r (List.mem_cons_of_mem _ hr)) _

theorem level_regroup {k : Nat} {e : Expr} {rest : List (Operator × Expr)} {x : Operator × Expr}
    (mem : x ∈ (regroup k e rest).rest) : x.1.level ≠ k ∧ ∃ y ∈ rest, y.1 = x.1 := by
  induction rest generalizing e with
  | nil => exact absurd mem List.not_mem_nil
  | cons head rest ih =>
    obtain ⟨op, operand⟩ := head
    rw [regroup] at mem
    split at mem
    · obtain ⟨other, y, hy, same⟩ := ih mem
      exact ⟨other, y, List.mem_cons_of_mem _ hy, same⟩
    · rename_i other
      rcases List.mem_cons.mp mem with rfl | mem
      · exact ⟨other, _, List.mem_cons_self, rfl⟩
      · obtain ⟨other, y, hy, same⟩ := ih mem
        exact ⟨other, y, List.mem_cons_of_mem _ hy, same⟩

theorem Chain.le_level_of_mem_grouped {k : Nat} {c : Chain} {x : Operator × Expr}
    (mem : x ∈ (c.grouped k).rest) : k ≤ x.1.level := by
  induction k generalizing x with
  | zero => exact Nat.zero_le _
  | succ k ih =>
    rw [grouped_succ] at mem
    obtain ⟨other, y, hy, same⟩ := level_regroup mem
    have := ih hy
    rw [same] at this
    omega

theorem Chain.rest_grouped (c : Chain) : (c.grouped Operator.levelCount).rest = [] := by
  refine List.eq_nil_iff_forall_not_mem.mpr fun x mem => ?_
  exact absurd (x.1.level_lt_levelCount) (Nat.not_lt.mpr (le_level_of_mem_grouped mem))

/-! ### What is derived is read -/

def Pending.append : Pending → Chain → Chain
  | none, d => d
  | some (c, op), d => c.join op d

theorem Pending.complete_eq_append (pending : Pending) (e : Expr) :
    pending.complete e = pending.append ⟨e, []⟩ := by
  match pending with
  | none => rfl
  | some _ => rfl

theorem Pending.append_join (pending : Pending) (c d : Chain) (op : Operator) :
    pending.append (c.join op d) = (pending.append c).join op d := by
  match pending with
  | none => rfl
  | some _ => exact Chain.join_assoc _ _ _ _ _

def Chain.IsRead (c : Chain) (ts : List Token) : Prop :=
  ∀ (stack : List OpenBracket) (pending : Pending) (i : Nat) (rest : List Token),
    readExpr stack (.due pending) i (ts ++ rest) =
      readExpr stack (.complete (pending.append c)) (i + ts.length) rest

namespace Chain.IsRead

theorem operand {t : Token} {e : Expr} (h : t.operand? = some e) : IsRead ⟨e, []⟩ [t] := by
  intro stack pending i rest
  rw [List.singleton_append, readExpr_operand stack pending i h, Pending.complete_eq_append]
  rfl

theorem join {c d : Chain} {ts ts' : List Token} (hc : c.IsRead ts) (op : Operator)
    (hd : d.IsRead ts') : (c.join op d).IsRead (ts ++ .operator op :: ts') := by
  intro stack pending i rest
  calc readExpr stack (.due pending) i (ts ++ .operator op :: ts' ++ rest)
      = readExpr stack (.complete (pending.append c)) (i + ts.length)
          (.operator op :: (ts' ++ rest)) := by
        rw [List.append_assoc, List.cons_append]
        exact hc _ _ _ _
    _ = readExpr stack (.due (some (pending.append c, op))) (i + ts.length + 1) (ts' ++ rest) := by
        rw [readExpr]
    _ = readExpr stack (.complete ((pending.append c).join op d)) (i + ts.length + 1 + ts'.length)
          rest := hd _ _ _ _
    _ = _ := by
        rw [Pending.append_join, List.length_append, List.length_cons]
        congr 1
        omega

theorem group {c : Chain} {ts : List Token} (hc : c.IsRead ts) :
    IsRead ⟨c.expr, []⟩ (.leftParen :: (ts ++ [.rightParen])) := by
  intro stack pending i rest
  rw [List.cons_append, List.append_assoc, List.singleton_append, readExpr, hc, readExpr,
    Pending.complete_eq_append]
  · congr 1
    simp
    omega

/-- The arguments of a call that are still to come are read up to its closing parenthesis. -/
theorem arguments {name : String} {before : Pending} {stack : List OpenBracket}
    {rest : List Token} {as : List Phrase} (nonempty : as ≠ [])
    (h : ∀ a ∈ as, ∃ c : Chain, c.expr = a.expr ∧ c.IsRead a.tokens) (done : List Expr) (i : Nat) :
    readExpr (⟨.call name done, before⟩ :: stack) (.due none) i
        ([Token.comma].intercalate (as.map Phrase.tokens) ++ .rightParen :: rest) =
      readExpr stack (.complete (before.complete (.call name (done ++ as.map Phrase.expr))))
        (i + ([Token.comma].intercalate (as.map Phrase.tokens)).length + 1) rest := by
  induction as generalizing done i with
  | nil => exact absurd rfl nonempty
  | cons a as ih =>
    obtain ⟨c, said, read⟩ := h a List.mem_cons_self
    cases as with
    | nil =>
      rw [List.map_singleton, List.map_singleton, List.intercalate_singleton, read, readExpr, ← said]
      rfl
    | cons b as =>
      have comma : [Token.comma].intercalate ((a :: b :: as).map Phrase.tokens) =
          a.tokens ++ .comma :: [Token.comma].intercalate ((b :: as).map Phrase.tokens) := by
        simp
      rw [comma, List.append_assoc, List.cons_append, read, readExpr,
        ih (List.cons_ne_nil _ _) (fun x hx => h x (List.mem_cons_of_mem _ hx))]
      rw [show (Pending.append none c).expr = a.expr from said, List.append_assoc,
        List.length_append, List.length_cons]
      congr 1
      omega

end Chain.IsRead


/-- A row of chains that are each grouped to one expression is read as one chain, which is grouped to
these expressions. -/
theorem Chain.exists_row {k : Nat} {e : Expr} (rest : List (Operator × Phrase))
    (levels : ∀ r ∈ rest, r.1.level = k)
    (h : ∀ r ∈ rest, ∃ d : Chain, d.grouped k = ⟨r.2.expr, []⟩ ∧ d.IsRead r.2.tokens)
    {c : Chain} {done : List (Operator × Expr)} (grouped : c.grouped k = ⟨e, done⟩)
    {ts : List Token} (read : c.IsRead ts) :
    ∃ c' : Chain, c'.grouped k = ⟨e, done ++ rest.map fun r => (r.1, r.2.expr)⟩ ∧
      c'.IsRead (ts ++ rest.flatMap fun r => .operator r.1 :: r.2.tokens) := by
  induction rest generalizing c done ts with
  | nil => exact ⟨c, by simpa using grouped, by simpa using read⟩
  | cons r rest ih =>
    obtain ⟨d, grouped', read'⟩ := h r List.mem_cons_self
    have joined : (c.join r.1 d).grouped k = ⟨e, done ++ [(r.1, r.2.expr)]⟩ := by
      rw [grouped_join (Nat.le_of_eq (levels r List.mem_cons_self).symm), grouped, grouped']
      rfl
    obtain ⟨c', hc', hread⟩ := ih (fun x hx => levels x (List.mem_cons_of_mem _ hx))
      (fun x hx => h x (List.mem_cons_of_mem _ hx)) joined (read.join r.1 read')
    exact ⟨c', by simpa using hc', by simpa using hread⟩

theorem Chain.IsRead.call (name : String) {as : List Phrase}
    (h : ∀ a ∈ as, ∃ c : Chain, c.expr = a.expr ∧ c.IsRead a.tokens)
    (head : ∀ a ∈ as, ∃ t ts', a.tokens = t :: ts' ∧ t ≠ .rightParen) :
    IsRead ⟨.call name (as.map Phrase.expr), []⟩
      (.function name :: .leftParen ::
        ([Token.comma].intercalate (as.map Phrase.tokens) ++ [.rightParen])) := by
  intro stack pending i rest
  rw [← Pending.complete_eq_append]
  cases as with
  | nil => exact readExpr.eq_3 _ _ _ _ _
  | cons a as =>
    -- the first argument does not begin with the parenthesis of a call without arguments
    have opened : ∀ ts, [Token.comma].intercalate ((a :: as).map Phrase.tokens) ++
        .rightParen :: rest ≠ .rightParen :: ts := by
      obtain ⟨t, ts', same, notClosed⟩ := head a List.mem_cons_self
      intro ts closed
      cases as <;> simp [same, notClosed] at closed
    rw [List.cons_append, List.cons_append, List.append_assoc, List.singleton_append, readExpr,
      arguments (List.cons_ne_nil _ _) h]
    · congr 1
      simp
      omega
    · exact opened

/-- **What the grammar derives is read** as a chain that is grouped to what it says. -/
theorem Derives.isRead {k : Nat} {ts : List Token} {e : Expr} (h : Derives k ts e) :
    ∃ c : Chain, c.grouped k = ⟨e, []⟩ ∧ c.IsRead ts := by
  induction h with
  | number | text | bool | cell | range => exact ⟨⟨_, []⟩, rfl, .operand rfl⟩
  | call name arguments derived ih =>
    refine ⟨⟨_, []⟩, rfl, ?_⟩
    have read : ∀ a ∈ arguments, ∃ c : Chain, c.expr = a.expr ∧ c.IsRead a.tokens := by
      intro a ha
      obtain ⟨c, grouped, read⟩ := ih a ha
      exact ⟨c, by rw [Chain.expr_eq_grouped, grouped], read⟩
    exact .call name read fun a ha => (derived a ha).head
  | @group ts e _ ih =>
    obtain ⟨c, grouped, read⟩ := ih
    have said : c.expr = e := by rw [Chain.expr_eq_grouped, grouped]
    exact ⟨⟨e, []⟩, rfl, said ▸ read.group⟩
  | row rest _ levels _ ih ihs =>
    obtain ⟨c, grouped, read⟩ := ih
    obtain ⟨c', grouped', read'⟩ := Chain.exists_row rest levels ihs grouped read
    refine ⟨c', ?_, read'⟩
    rw [Chain.grouped_succ, grouped', List.nil_append,
      regroup_of_level (List.forall_mem_map.mpr levels), List.foldl_map]


/-! ### What is read is derived -/

/-- The tokens are operators, each with an operand of the level after it. -/
inductive Links (k : Nat) : List (Operator × Expr) → List Token → Prop
  | nil : Links k [] []
  | cons {op : Operator} {e : Expr} {ts ts' : List Token} {rest : List (Operator × Expr)} :
      Derives k ts e → Links k rest ts' → Links k ((op, e) :: rest) (.operator op :: (ts ++ ts'))

theorem Links.append {k : Nat} {rest rest' : List (Operator × Expr)} {ts ts' : List Token}
    (h : Links k rest ts) (h' : Links k rest' ts') : Links k (rest ++ rest') (ts ++ ts') := by
  induction h with
  | nil => exact h'
  | cons derived _ ih =>
    rw [List.cons_append, List.cons_append, List.append_assoc]
    exact .cons derived ih

def Chain.Spelled (k : Nat) (c : Chain) (ts : List Token) : Prop :=
  ∃ ts₁ ts₂, ts = ts₁ ++ ts₂ ∧ Derives k ts₁ c.first ∧ Links k c.rest ts₂

theorem regroup_spelled {k : Nat} {e : Expr} {rest : List (Operator × Expr)} {ts ts' : List Token}
    (h : Derives (k + 1) ts e) (links : Links k rest ts') :
    (regroup k e rest).Spelled (k + 1) (ts ++ ts') := by
  induction links generalizing ts e with
  | nil => exact ⟨ts, [], rfl, h, .nil⟩
  | @cons op e' ts₁ ts₂ rest derived _ ih =>
    rw [regroup]
    split
    · rename_i level
      have joined := ih (h.snoc level derived)
      rwa [List.append_assoc, List.cons_append] at joined
    · obtain ⟨ts₃, ts₄, same, first, others⟩ := ih derived.lift
      rw [same]
      exact ⟨ts, _, rfl, h, .cons first others⟩

theorem Chain.Spelled.grouped {c : Chain} {ts : List Token} (h : c.Spelled 0 ts) (k : Nat) :
    (c.grouped k).Spelled k ts := by
  induction k with
  | zero => exact h
  | succ k ih =>
    obtain ⟨ts₁, ts₂, rfl, first, others⟩ := ih
    rw [grouped_succ]
    exact regroup_spelled first.lift others

/-- **What a chain of operands stands for is derived from its tokens.** -/
theorem Chain.Spelled.derives {c : Chain} {ts : List Token} (h : c.Spelled 0 ts) :
    Derives Operator.levelCount ts c.expr := by
  obtain ⟨ts₁, ts₂, rfl, first, others⟩ := h.grouped Operator.levelCount
  rw [c.rest_grouped] at others
  cases others
  rwa [List.append_nil]

def Pending.Spelled : Pending → List Token → Prop
  | none, ts => ts = []
  | some (c, op), ts => ∃ ts', ts = ts' ++ [.operator op] ∧ c.Spelled 0 ts'

theorem Pending.Spelled.complete {pending : Pending} {ts ts' : List Token} {e : Expr}
    (h : pending.Spelled ts) (he : Derives 0 ts' e) :
    (pending.complete e).Spelled 0 (ts ++ ts') := by
  match pending, h with
  | none, h =>
    cases h
    exact ⟨ts', [], by simp, he, .nil⟩
  | some (c, op), h =>
    obtain ⟨_, rfl, ts₁, ts₂, rfl, first, others⟩ := h
    refine ⟨ts₁, ts₂ ++ .operator op :: (ts' ++ []), by simp, first, ?_⟩
    exact others.append (.cons he .nil)

/-- The tokens open the bracket: they are what is read of it in front of the expression that is being
read. -/
def Bracket.Opened : Bracket → List Token → Prop
  | group, ts => ts = [.leftParen]
  | call name arguments, ts => ∃ as : List Phrase, arguments = as.map Phrase.expr ∧
      (∀ a ∈ as, Derives Operator.levelCount a.tokens a.expr) ∧
        ts = .function name :: .leftParen :: as.flatMap fun a => a.tokens ++ [.comma]

theorem intercalate_concat (as : List Phrase) (ts : List Token) :
    [Token.comma].intercalate (as.map Phrase.tokens ++ [ts]) =
      (as.flatMap fun a => a.tokens ++ [.comma]) ++ ts := by
  induction as with
  | nil => simp
  | cons a as ih =>
    rw [List.map_cons, List.cons_append, List.intercalate_cons_of_ne_nil (by simp), ih]
    simp

theorem Bracket.Opened.comma {name : String} {arguments : List Expr} {ts ts' : List Token} {e : Expr}
    (h : (call name arguments).Opened ts) (he : Derives Operator.levelCount ts' e) :
    (call name (arguments ++ [e])).Opened (ts ++ (ts' ++ [.comma])) := by
  obtain ⟨as, rfl, derived, rfl⟩ := h
  refine ⟨as ++ [⟨ts', e⟩], by simp, ?_, by simp⟩
  exact List.forall_mem_append.mpr ⟨derived, List.forall_mem_singleton.mpr he⟩

theorem Bracket.Opened.close {b : Bracket} {ts ts' : List Token} {e : Expr} (h : b.Opened ts)
    (he : Derives Operator.levelCount ts' e) :
    Derives 0 (ts ++ (ts' ++ [.rightParen])) (b.close e) := by
  cases b with
  | group =>
    cases h
    exact .group he
  | call name arguments =>
    obtain ⟨as, rfl, derived, rfl⟩ := h
    have call := Derives.call name (as ++ [⟨ts', e⟩])
      (List.forall_mem_append.mpr ⟨derived, List.forall_mem_singleton.mpr he⟩)
    rw [List.map_append, List.map_singleton, intercalate_concat] at call
    simpa [Bracket.close] using call

/-- The tokens are those in front of the last open bracket's expression. -/
def Outside : List OpenBracket → List Token → Prop
  | [], ts => ts = []
  | b :: stack, ts => ∃ ts₁ ts₂ ts₃, ts = ts₁ ++ (ts₂ ++ ts₃) ∧ Outside stack ts₁ ∧
      b.before.Spelled ts₂ ∧ b.bracket.Opened ts₃

def Reading.Spelled : Reading → List Token → Prop
  | due pending, ts => pending.Spelled ts
  | complete chain, ts => chain.Spelled 0 ts

/-- **What is read is derived** from the tokens that have been read and those still to be read. -/
theorem derives_of_readExpr (stack : List OpenBracket) (reading : Reading) (i : Nat)
    (ts : List Token) {e : Expr} (ok : readExpr stack reading i ts = .ok e)
    {outside inside : List Token} (ho : Outside stack outside) (hi : reading.Spelled inside) :
    Derives Operator.levelCount (outside ++ (inside ++ ts)) e := by
  fun_induction readExpr stack reading i ts generalizing outside inside with
  | case1 => cases ok
  | case2 stack _ chain empty =>
    cases ok
    rw [List.isEmpty_iff.mp empty] at ho
    rw [show outside = [] from ho, List.nil_append, List.append_nil]
    exact Chain.Spelled.derives hi
  | case3 => cases ok
  | case4 stack pending i name ts ih =>
    have call := Derives.call name [] fun _ hm => absurd hm List.not_mem_nil
    have read := ih ok ho (Pending.Spelled.complete hi call)
    simpa using read
  | case5 stack pending i name ts _ ih =>
    have read := ih ok ⟨outside, inside, _, rfl, ho, hi, [], rfl,
      fun _ hm => absurd hm List.not_mem_nil, rfl⟩ rfl
    simpa using read
  | case6 stack pending i ts ih =>
    have read := ih ok ⟨outside, inside, _, rfl, ho, hi, rfl⟩ rfl
    simpa using read
  | case7 stack pending i t ts _ _ _ operand found ih =>
    have read := ih ok ho (Pending.Spelled.complete hi (Derives.operand found))
    simpa using read
  | case8 => cases ok
  | case9 stack chain i op ts ih =>
    have read := ih ok ho ⟨inside, rfl, hi⟩
    simpa using read
  | case10 chain i ts bracket before stack ih =>
    obtain ⟨ts₁, ts₂, ts₃, rfl, hs, hb, opened⟩ := ho
    have read := ih ok hs (hb.complete (opened.close (Chain.Spelled.derives hi)))
    simpa using read
  | case11 => cases ok
  | case12 chain i ts name arguments before stack ih =>
    obtain ⟨ts₁, ts₂, ts₃, rfl, hs, hb, opened⟩ := ho
    have read := ih ok ⟨ts₁, ts₂, _, rfl, hs, hb, opened.comma (Chain.Spelled.derives hi)⟩ rfl
    simpa using read
  | case13 => cases ok
  | case14 => cases ok

/-! ### The grammar -/

theorem readExpr_eq_ok_iff {ts : List Token} {e : Expr} :
    readExpr [] (.due none) 0 ts = .ok e ↔ Derives Operator.levelCount ts e := by
  constructor
  · exact fun ok => derives_of_readExpr [] (.due none) 0 ts ok rfl rfl
  · intro h
    obtain ⟨c, grouped, read⟩ := h.isRead
    have all := read [] none 0 []
    rw [List.append_nil] at all
    rw [all, ← show c.expr = e by rw [Chain.expr_eq_grouped, grouped]]
    rfl

/-- **The grammar is unambiguous** on every level. -/
theorem Derives.unique {k : Nat} (le : k ≤ Operator.levelCount) {ts : List Token} {e e' : Expr}
    (h : Derives k ts e) (h' : Derives k ts e') : e' = e := by
  have read := readExpr_eq_ok_iff.mpr (h.mono le)
  rw [readExpr_eq_ok_iff.mpr (h'.mono le)] at read
  exact Except.ok.inj read

/-- Of two operators the first groups with what is in front of it, unless the second binds tighter. -/
theorem derives_iff_of_level_le {op op' : Operator} (le : op.level ≤ op'.level)
    {ts₁ ts₂ ts₃ : List Token} {x y z : Expr} (hx : Derives (op.level + 1) ts₁ x)
    (hy : Derives op.level ts₂ y) (hz : Derives op'.level ts₃ z) (e : Expr) :
    Derives (op'.level + 1) (ts₁ ++ .operator op :: ts₂ ++ .operator op' :: ts₃) e ↔
      e = .binary op' (.binary op x y) z := by
  have derived : Derives (op'.level + 1) (ts₁ ++ .operator op :: ts₂ ++ .operator op' :: ts₃)
      (.binary op' (.binary op x y) z) := ((hx.snoc rfl hy).mono (by omega)).snoc rfl hz
  exact ⟨fun h => derived.unique op'.level_lt_levelCount h, fun same => same ▸ derived⟩

theorem derives_iff_of_level_lt {op op' : Operator} (lt : op'.level < op.level)
    {ts₁ ts₂ ts₃ : List Token} {x y z : Expr} (hx : Derives (op.level + 1) ts₁ x)
    (hy : Derives (op'.level + 1) ts₂ y) (hz : Derives op'.level ts₃ z) (e : Expr) :
    Derives (op.level + 1) (ts₁ ++ .operator op :: (ts₂ ++ .operator op' :: ts₃)) e ↔
      e = .binary op x (.binary op' y z) := by
  have derived : Derives (op.level + 1) (ts₁ ++ .operator op :: (ts₂ ++ .operator op' :: ts₃))
      (.binary op x (.binary op' y z)) := hx.snoc rfl ((hy.snoc rfl hz).mono lt)
  exact ⟨fun h => derived.unique op.level_lt_levelCount h, fun same => same ▸ derived⟩

theorem Pieced.head_leftParen {due : Bool} {cs : List Char} {ps : List Piece} (h : Pieced due cs ps)
    (paren : cs.head? = some '(') : ∃ ts, ps.filterMap Piece.token? = .leftParen :: ts := by
  cases h with
  | nil => exact absurd paren nofun
  | blank blank =>
    cases paren
    exact absurd blank (by decide)
  | token _ lexed =>
    cases paren
    obtain ⟨rfl, rfl⟩ := lexed.unique (.leftParen rfl)
    exact ⟨_, rfl⟩

theorem Pieced.leftParen_of_function {due : Bool} {cs : List Char} {ps : List Piece}
    (h : Pieced due cs ps) {before after : List Token} {name : String}
    (listed : ps.filterMap Piece.token? = before ++ .function name :: after) :
    ∃ after', after = .leftParen :: after' := by
  induction h generalizing before with
  | nil => simp at listed
  | blank _ _ ih => exact ih listed
  | token _ lexed pieced ih =>
    cases before with
    | nil =>
      obtain ⟨rfl, rfl⟩ := List.cons.inj listed
      exact pieced.head_leftParen lexed.function_head
    | cons _ before => exact ih (List.cons.inj listed).2

theorem tokens_eq_ok_iff {formula : String} {ts : List Token} :
    tokens formula = .ok ts ↔
      ∃ ps, Pieced true formula.toList ps ∧ ps.filterMap Piece.token? = ts := by
  simp only [← pieces_eq_ok_iff, tokens]
  cases pieces formula <;> simp [bind, Except.bind, pure, Except.pure]

/-- **A formula says what the grammar derives from its tokens.**  The grammar is unambiguous,
operators group to the left unless the next one binds tighter, and in the tokens of a formula a
parenthesis follows every name of a function, so that a name never stands for anything else. -/
theorem parse_eq_ok_iff {formula : String} {ts : List Token} (lexed : tokens formula = .ok ts) :
    (∀ e, parse formula = .ok e ↔
      ts = [] ∧ e = .empty ∨ Derives Operator.levelCount ts e) ∧
    (∀ before name after, ts = before ++ .function name :: after →
      ∃ after', after = .leftParen :: after') ∧
    (∀ k ≤ Operator.levelCount, ∀ ts e e', Derives k ts e → Derives k ts e' → e' = e) ∧
    (∀ (op op' : Operator) ts₁ ts₂ ts₃ x y z, op.level ≤ op'.level →
      Derives (op.level + 1) ts₁ x → Derives op.level ts₂ y → Derives op'.level ts₃ z → ∀ e,
        Derives (op'.level + 1) (ts₁ ++ .operator op :: ts₂ ++ .operator op' :: ts₃) e ↔
          e = .binary op' (.binary op x y) z) ∧
    ∀ (op op' : Operator) ts₁ ts₂ ts₃ x y z, op'.level < op.level →
      Derives (op.level + 1) ts₁ x → Derives (op'.level + 1) ts₂ y → Derives op'.level ts₃ z → ∀ e,
        Derives (op.level + 1) (ts₁ ++ .operator op :: (ts₂ ++ .operator op' :: ts₃)) e ↔
          e = .binary op x (.binary op' y z) := by
  refine ⟨fun e => ?_, fun before name after listed => ?_, fun k le ts e e' h h' => h.unique le h',
    fun op op' ts₁ ts₂ ts₃ x y z le hx hy hz => derives_iff_of_level_le le hx hy hz,
    fun op op' ts₁ ts₂ ts₃ x y z lt hx hy hz => derives_iff_of_level_lt lt hx hy hz⟩
  · rw [parse, lexed]
    cases ts with
    | nil =>
      have none : ¬ Derives Operator.levelCount [] e := by
        intro h
        obtain ⟨_, _, same, _⟩ := h.head
        cases same
      simp [Expr.ofTokens, none, eq_comm]
    | cons t ts => simpa [Expr.ofTokens] using readExpr_eq_ok_iff
  · obtain ⟨ps, pieced, rfl⟩ := tokens_eq_ok_iff.mp lexed
    exact pieced.leftParen_of_function listed

/-- Four levels, a call with a group in it, and a name in front of `()`. -/
theorem parse_eq_ok_iff_call :
    let ts : List Token :=
      [.bool true, .operator .minus, .bool false, .operator .minus, .function "SUM", .leftParen,
        .text "a", .operator .power, .bool true, .operator .times, .bool false, .comma, .leftParen,
        .function "PI", .leftParen, .rightParen, .rightParen, .rightParen, .operator .notEqual,
        .bool true]
    let e : Expr := .binary .notEqual
      (.binary .minus (.binary .minus (.bool true) (.bool false))
        (.call "SUM"
          [.binary .times (.binary .power (.text "a") (.bool true)) (.bool false), .call "PI" []]))
      (.bool true)
    tokens "TRUE-FALSE-Sum(\"a\"^true*FALSE, (pi()))!=TRUE" = .ok ts ∧
      Derives Operator.levelCount ts e ∧ ∀ e', Derives Operator.levelCount ts e' → e' = e := by
  intro ts e
  have lexed : tokens "TRUE-FALSE-Sum(\"a\"^true*FALSE, (pi()))!=TRUE" = .ok ts := by decide +kernel
  obtain ⟨parsed, -, unique, -⟩ := parse_eq_ok_iff lexed
  have derived : Derives Operator.levelCount ts e := by
    rcases (parsed e).mp (by rw [parse, lexed]; rfl) with ⟨empty, -⟩ | derived
    · exact absurd empty (List.cons_ne_nil _ _)
    · exact derived
  exact ⟨lexed, derived, fun e' h => unique _ (Nat.le_refl _) ts e e' derived h⟩

end Spreadsheet.Formula
