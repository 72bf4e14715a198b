/-
# The steps of a parse

What each step of a parser does to its state, one equation a step. A parser
reads tokens in one way only: it moves past the current one (`past`). The
equations say when a step does that, what it changes besides, and with which
error it refuses; the rest of the theory uses them and never opens a step.

Key definitions: `Parser.past`, `Parser.inside`, `Parser.withNode`, `Rule.signs`, `Rule.Stops`.
Key theorems: `Parser.takeOperator?_eq`, `Parser.leaf_eq`, `Parser.openGroup_eq`,
`Parser.closeGroup_eq`, `Token.isSign_eq_false_of_isMark`.
-/
import Calculator.Parser.Grammar
import Calculator.Parser.Phrase

namespace Calculator

/-! ### Which tokens exclude each other -/

namespace Token

theorem isEnd_eq_false_of_isPunct {token : Token} (h : token.isPunct = true) :
    token.isEnd = false := by
  simp only [isPunct, decide_eq_true_eq] at h
  simp [isEnd, h]

theorem isInteger_eq_false_of_isPunct {token : Token} (h : token.isPunct = true) :
    token.isInteger = false := by
  simp only [isPunct, decide_eq_true_eq] at h
  simp [isInteger, h]

theorem isEnd_eq_false_of_isInteger {token : Token} (h : token.isInteger = true) :
    token.isEnd = false := by
  simp only [isInteger, decide_eq_true_eq] at h
  simp [isEnd, h]

theorem isPunct_of_isMark {c : Char} {token : Token} (h : token.isMark c = true) :
    token.isPunct = true := by
  simp only [isMark, Bool.and_eq_true] at h
  exact h.1

theorem isMark_eq_false_of_isInteger {token : Token} (h : token.isInteger = true) (c : Char) :
    token.isMark c = false := by
  simp only [isInteger, decide_eq_true_eq] at h
  simp [isMark, isPunct, h]

theorem isSign_eq_false_of_isEnd {token : Token} (h : token.isEnd = true) (op : Operator) :
    token.isSign op = false := by
  simp [isSign, h]

theorem isEnd_eq_false_of_isSign {token : Token} {op : Operator} (h : token.isSign op = true) :
    token.isEnd = false := by
  simp only [isSign, Bool.and_eq_true, Bool.not_eq_true'] at h
  exact h.1

theorem isSign_injective {token : Token} {a b : Operator} (ha : token.isSign a = true)
    (hb : token.isSign b = true) : a = b := by
  simp only [isSign, Bool.and_eq_true, decide_eq_true_eq] at ha hb
  exact Operator.symbol_injective (ha.2.symm.trans hb.2)

/-- No parenthesis is an operator. -/
theorem isSign_eq_false_of_isMark {token : Token} {c : Char} (hc : c = '(' ∨ c = ')')
    (h : token.isMark c = true) (op : Operator) : token.isSign op = false := by
  rw [Bool.eq_false_iff]
  intro hs
  simp only [isSign, Bool.and_eq_true, decide_eq_true_eq] at hs
  simp only [isMark, Bool.and_eq_true, hs.2, beq_iff_eq] at h
  have hhead := h.2
  rcases hc with rfl | rfl <;> cases op <;> exact absurd hhead (by decide)

end Token

/-! ### Which tokens a phrase goes on with -/

namespace Rule

/-- The operators that a phrase of the rule goes on with: its own and those of the tighter
rules. -/
def signs : Rule → List Operator
  | sum => [.add, .sub, .mul, .div]
  | product => [.mul, .div]
  | atom => []

/-- No phrase of the rule goes on with the token. -/
def Stops (rule : Rule) (token : Token) : Prop := ∀ op ∈ rule.signs, token.isSign op = false

theorem mem_signs_iff {rule tighter : Rule} (h : rule.operand? = some tighter) (op : Operator) :
    op ∈ rule.signs ↔ op ∈ rule.operators ∨ op ∈ tighter.signs := by
  cases rule <;> cases h <;> cases op <;> decide

theorem not_mem_signs_of_operand? {rule tighter : Rule} (h : rule.operand? = some tighter)
    {op : Operator} (ho : op ∈ rule.operators) : op ∉ tighter.signs := by
  cases rule <;> cases h <;> cases op <;> revert ho <;> decide

theorem mem_signs_sum (op : Operator) : op ∈ Rule.sum.signs := by
  cases op <;> decide

theorem stops_atom (token : Token) : Rule.atom.Stops token := fun _ h => absurd h List.not_mem_nil

theorem stops_of_isEnd (rule : Rule) {token : Token} (h : token.isEnd = true) : rule.Stops token :=
  fun op _ => Token.isSign_eq_false_of_isEnd h op

theorem stops_of_isClose (rule : Rule) {token : Token} (h : token.isClose = true) :
    rule.Stops token :=
  fun op _ => Token.isSign_eq_false_of_isMark (Or.inr rfl) h op

theorem stops_of_isSign {rule tighter : Rule} (h : rule.operand? = some tighter) {op : Operator}
    (ho : op ∈ rule.operators) {token : Token} (hs : token.isSign op = true) :
    tighter.Stops token := by
  intro other hother
  rw [Bool.eq_false_iff]
  intro hs'
  rw [Token.isSign_injective hs hs'] at ho
  exact not_mem_signs_of_operand? h ho hother

end Rule

/-! ### The current token -/

namespace Parser

/-- The parser one token further. -/
def past (p : Parser) : Parser := { p with cursor := p.cursor.pass 1 }

/-- The parser inside the group that its current token opens. -/
def inside (p : Parser) : Parser := { p.past with depth := p.depth + 1 }

/-- The parser with one more node built. -/
def withNode (p : Parser) : Parser := { p with built := p.built + 1 }

theorem current_isEnd_iff (p : Parser) : p.current.isEnd = true ↔ p.cursor.ahead = [] :=
  p.cursor.atEnd_iff

theorem ahead_eq_cons {p : Parser} (h : p.current.isEnd = false) :
    p.cursor.ahead = p.current :: p.past.cursor.ahead := by
  cases ha : p.cursor.ahead with
  | nil => rw [(current_isEnd_iff p).2 ha] at h; cases h
  | cons token tokens =>
    have hcur : p.current = token := by simp [current, Cursor.current, ha]
    rw [hcur]
    simp [past, Cursor.pass, ha]

theorem current_of_ahead {p : Parser} {token : Token} {tokens : List Token}
    (h : p.cursor.ahead = token :: tokens) : p.current = token := by
  simp [current, Cursor.current, h]

/-! ### The steps -/

theorem eatOperator_eq {p : Parser} (h : p.current.isPunct = true) :
    p.eatOperator = .ok (p.current, p.past) := by
  have hend : p.cursor.atEnd = false := Token.isEnd_eq_false_of_isPunct h
  have hkind : p.cursor.current.kind = .punct := of_decide_eq_true h
  simp only [eatOperator, Cursor.eatOperator, Cursor.eat, hend, hkind]
  rfl

theorem eatInteger_eq {p : Parser} (h : p.current.isInteger = true) :
    p.eatInteger = .ok (p.current, p.past) := by
  have hend : p.cursor.atEnd = false := Token.isEnd_eq_false_of_isInteger h
  have hkind : p.cursor.current.kind = .integer := of_decide_eq_true h
  simp only [eatInteger, Cursor.eatInteger, Cursor.eat, hend, hkind]
  rfl

theorem lookahead?_one_eq (p : Parser) (op : Operator) :
    p.lookahead? 1 op.symbol = if p.current.isSign op then some p.past else none := by
  unfold lookahead? Cursor.lookahead? Token.isSign
  cases ha : p.cursor.ahead with
  | nil =>
    have hend : p.current.isEnd = true := (current_isEnd_iff p).2 ha
    simp [Cursor.endWithin, ha, hend]
  | cons token tokens =>
    have hcur := current_of_ahead ha
    have hend : token.isEnd = false := p.cursor.isEnd_of_mem token (by simp [ha])
    by_cases ht : token.text = op.symbol
    · simp [Cursor.endWithin, Cursor.textAhead, ha, hcur, hend, ht, past]
    · simp [Cursor.endWithin, Cursor.textAhead, ha, hcur, hend, ht]

/-- An operator is taken exactly if the current token is its sign. -/
theorem takeOperator?_eq (p : Parser) (operators : List Operator) :
    p.takeOperator? operators =
      (operators.find? fun op => p.current.isSign op).map fun op =>
        (op, p.current.span, p.past) := by
  unfold takeOperator?
  induction operators with
  | nil => rfl
  | cons op operators ih =>
    rw [List.findSome?_cons, List.find?_cons, lookahead?_one_eq, ih]
    by_cases h : p.current.isSign op = true
    · simp [h]
    · simp [h]

theorem takeOperator?_eq_none_iff {p : Parser} {operators : List Operator} :
    p.takeOperator? operators = none ↔ ∀ op ∈ operators, p.current.isSign op = false := by
  simp [takeOperator?_eq]

theorem takeOperator?_of_isSign {p : Parser} {operators : List Operator} {op : Operator}
    (ho : op ∈ operators) (hs : p.current.isSign op = true) :
    p.takeOperator? operators = some (op, p.current.span, p.past) := by
  rw [takeOperator?_eq]
  cases hf : operators.find? fun op => p.current.isSign op with
  | none => exact absurd hs (List.find?_eq_none.1 hf op ho)
  | some other =>
    have hother := List.find?_some hf
    rw [Token.isSign_injective hs hother]
    rfl

theorem takeOperator?_eq_some {p q : Parser} {operators : List Operator} {op : Operator}
    {span : Span} (h : p.takeOperator? operators = some (op, span, q)) :
    op ∈ operators ∧ p.current.isSign op = true ∧ span = p.current.span ∧ q = p.past := by
  rw [takeOperator?_eq, Option.map_eq_some_iff] at h
  obtain ⟨other, hf, heq⟩ := h
  simp only [Prod.mk.injEq] at heq
  obtain ⟨rfl, rfl, rfl⟩ := heq
  have hs := List.find?_some hf
  exact ⟨List.mem_of_find?_eq_some hf, hs, rfl, rfl⟩

/-- A leaf is an integer with a value; anything else is refused for what it is. -/
theorem leaf_eq (p : Parser) :
    p.leaf = if p.current.isEnd then ⟨p, .error ⟨.endedEarly, p.position⟩⟩
      else if p.current.isInteger then
        match p.current.number with
        | none => ⟨p.past, .error ⟨.internal "integer token without a value", p.position⟩⟩
        | some value =>
          ⟨p.past.withNode, .ok (.number value p.current.span)⟩
      else ⟨p, .error ⟨.expectedNumber p.current.text, p.position⟩⟩ := by
  unfold leaf
  have hend : p.cursor.atEnd = p.current.isEnd := rfl
  rw [hend]
  split
  · rfl
  · split
    · next hint =>
      rw [eatInteger_eq hint]
      rfl
    · rfl

theorem exists_of_leaf_eq_ok {p : Parser} {e : Expr} (h : p.leaf.result = .ok e) :
    ∃ value, p.current.isInteger = true ∧ p.current.number = some value ∧
      e = .number value p.current.span ∧ p.leaf = ⟨p.past.withNode, .ok e⟩ := by
  rw [leaf_eq] at h ⊢
  by_cases hend : p.current.isEnd = true
  · rw [if_pos hend] at h
    cases h
  rw [if_neg hend] at h ⊢
  by_cases hint : p.current.isInteger = true
  · rw [if_pos hint] at h ⊢
    cases hnum : p.current.number with
    | none =>
      rw [hnum] at h
      cases h
    | some value =>
      rw [hnum] at h
      cases h
      exact ⟨value, hint, rfl, rfl, rfl⟩
  · rw [if_neg hint] at h
    cases h

/-- A group is entered unless the limit of open groups is reached. -/
theorem openGroup_eq {p : Parser} (h : p.current.isOpen = true) :
    p.openGroup = if p.limit ≤ p.depth then .error (p, ⟨.nestedTooDeep p.limit, p.position⟩)
      else .ok p.inside := by
  unfold openGroup enterGroup
  by_cases hfull : p.limit ≤ p.depth
  · rw [if_pos hfull, if_pos hfull]
  · rw [if_neg hfull, if_neg hfull]
    have hpunct : ({ p with depth := p.depth + 1 } : Parser).current.isPunct = true :=
      Token.isPunct_of_isMark h
    simp only [eatOperator_eq hpunct]
    rfl

/-- A group is left at the token that closes it. -/
theorem closeGroup_eq (e : Expr) (p : Parser) :
    p.closeGroup e = if p.current.isClose then ⟨p.past.exitGroup, .ok e⟩
      else ⟨p, .error ⟨.expectedClose p.current.text, p.position⟩⟩ := by
  unfold closeGroup
  by_cases h : p.current.isClose = true
  · rw [if_pos h, if_pos h, eatOperator_eq (Token.isPunct_of_isMark h)]
  · rw [if_neg h, if_neg h]

end Parser

end Calculator
