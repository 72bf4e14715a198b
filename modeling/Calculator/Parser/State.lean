/-
# The state of a parse

A parser has a cursor, a limit on the number of groups that are open at once,
and three accounts of what it did: the groups open now, the nodes built, and the
visits its rules paid to tokens. A step either changes this state or fails and
changes nothing.

Key definitions: `Parser`, `Rule`, `Visit`, `Parser.start`, `Parser.enterGroup`,
`Parser.exitGroup`, `Parser.takeOperator?`, `Parser.expectEnd`.
-/
import Calculator.Cursor
import Calculator.Expr

namespace Calculator

/-- A rule of the grammar, loosest first. -/
inductive Rule
  /-- Products with `+` and `-` between them. -/
  | sum
  /-- Atoms with `*` and `/` between them. -/
  | product
  /-- An integer, or a sum in parentheses. -/
  | atom
deriving DecidableEq

namespace Rule

/-- The name of a rule in a log. -/
def name : Rule → String
  | sum => "parse_add_or_sub"
  | product => "parse_mul_or_div"
  | atom => "parse_num_or_bracket"

/-- The rule for the operands of a chain. -/
def operand? : Rule → Option Rule
  | sum => some product
  | product => some atom
  | atom => none

/-- The operators between the operands of a chain. -/
def operators : Rule → List Operator
  | sum => [.add, .sub]
  | product => [.mul, .div]
  | atom => []

/-- How many rules are tighter. -/
def rank : Rule → Nat
  | sum => 2
  | product => 1
  | atom => 0

theorem rank_of_operand? : ∀ {rule tighter : Rule}, rule.operand? = some tighter →
    rule.rank = tighter.rank + 1
  | sum, _, rfl => rfl
  | product, _, rfl => rfl

end Rule

/-- A rule that started on a token. -/
structure Visit where
  rule : Rule
  /-- The text of the token. -/
  text : String
deriving DecidableEq

/-- The state of a parse. -/
structure Parser where
  cursor : Cursor
  /-- The name of the source. -/
  file : String
  /-- How many groups may be open at once. -/
  limit : Nat
  /-- How many groups are open. -/
  depth : Nat
  /-- How many nodes were built. -/
  built : Nat
  /-- The visits, the latest first. -/
  visits : List Visit

namespace Parser

/-- The limit on open groups if none is given. -/
def defaultLimit : Nat := 256

/-- A parser on the first of the tokens. -/
def start (tokens : List Token) (file : String) (limit : Nat) : Parser :=
  ⟨Cursor.ofTokens tokens file, file, limit, 0, 0, []⟩

/-- The current token. -/
def current (p : Parser) : Token := p.cursor.current

/-- Where the current token starts. -/
def position (p : Parser) : Position := p.cursor.position

/-- The number of tokens before the end of input. -/
def remaining (p : Parser) : Nat := p.cursor.ahead.length

/-- Notes that a rule starts on the current token. -/
def visit (p : Parser) (rule : Rule) : Parser :=
  { p with visits := ⟨rule, p.current.text⟩ :: p.visits }

/-- Opens a group, unless as many are open as the limit allows. -/
def enterGroup (p : Parser) (position : Position) : Except Error Parser :=
  if p.limit ≤ p.depth then .error ⟨.nestedTooDeep p.limit, position⟩
  else .ok { p with depth := p.depth + 1 }

/-- Closes a group, if one is open. -/
def exitGroup (p : Parser) : Parser := { p with depth := p.depth - 1 }

/-- Moves past the current token. -/
def advance (p : Parser) : Except Error (Token × Parser) :=
  p.cursor.advance.map fun r => (r.1, { p with cursor := r.2 })

/-- Moves past a punctuation mark. -/
def eatOperator (p : Parser) : Except Error (Token × Parser) :=
  p.cursor.eatOperator.map fun r => (r.1, { p with cursor := r.2 })

/-- Moves past an integer. -/
def eatInteger (p : Parser) : Except Error (Token × Parser) :=
  p.cursor.eatInteger.map fun r => (r.1, { p with cursor := r.2 })

/-- Moves past the next `k` tokens if their joined text is `text`. -/
def lookahead? (p : Parser) (k : Nat) (text : String) : Option Parser :=
  (p.cursor.lookahead? k text).map fun cursor => { p with cursor }

/-- Moves past the first of the operators whose text is that of the current token, and gives
it back with the span of the token. -/
def takeOperator? (p : Parser) (operators : List Operator) : Option (Operator × Span × Parser) :=
  operators.findSome? fun op =>
    (p.lookahead? 1 op.symbol).map fun q => (op, p.current.span, q)

/-- Builds a leaf. -/
def makeNumber (p : Parser) (value : Int64) (span : Span) : Expr × Parser :=
  (.number value span, { p with built := p.built + 1 })

/-- Builds a node of an operator and its operands. -/
def makeBinary (p : Parser) (op : Operator) (left right : Expr) (span : Span) : Expr × Parser :=
  (.binary op left right span, { p with built := p.built + 1 })

/-- Fails unless the current token is the end of input. -/
def expectEnd (p : Parser) : Except Error Unit :=
  if p.cursor.atEnd then .ok () else .error ⟨.trailing p.current.text, p.position⟩

@[simp] theorem remaining_visit (p : Parser) (rule : Rule) :
    (p.visit rule).remaining = p.remaining := rfl

theorem remaining_enterGroup {p q : Parser} {position : Position}
    (h : p.enterGroup position = .ok q) : q.remaining = p.remaining := by
  unfold enterGroup at h
  split at h <;> cases h
  rfl

theorem remaining_eatOperator {p q : Parser} {token : Token} (h : p.eatOperator = .ok (token, q)) :
    q.remaining < p.remaining := by
  unfold eatOperator at h
  cases hc : p.cursor.eatOperator with
  | error e => rw [hc] at h; cases h
  | ok r =>
    rw [hc] at h
    cases h
    exact Cursor.length_ahead_of_eat hc

theorem remaining_eatInteger {p q : Parser} {token : Token} (h : p.eatInteger = .ok (token, q)) :
    q.remaining < p.remaining := by
  unfold eatInteger at h
  cases hc : p.cursor.eatInteger with
  | error e => rw [hc] at h; cases h
  | ok r =>
    rw [hc] at h
    cases h
    exact Cursor.length_ahead_of_eat hc

theorem remaining_takeOperator? {p q : Parser} {operators : List Operator} {op : Operator}
    {span : Span} (h : p.takeOperator? operators = some (op, span, q)) :
    q.remaining < p.remaining := by
  obtain ⟨o, -, ho⟩ := List.exists_of_findSome?_eq_some h
  rw [Option.map_eq_some_iff] at ho
  obtain ⟨r, hr, heq⟩ := ho
  cases heq
  rw [lookahead?, Option.map_eq_some_iff] at hr
  obtain ⟨d, hd, rfl⟩ := hr
  obtain ⟨hle, -, rfl⟩ := Cursor.lookahead?_eq_some_iff.1 hd
  simp only [remaining, Cursor.length_ahead_pass]
  omega

end Parser

end Calculator
