/-
# The rules of the grammar at work

Each rule takes a phrase off the tokens and builds its expression:

* a sum is a product, followed by any number of `+` or `-` with a product;
* a product is an atom, followed by any number of `*` or `/` with an atom;
* an atom is an integer, or a sum between an opening and a closing parenthesis.

Operators of one rule group from the left. A rule that fails keeps the state at
the point of failure. A rule that succeeds has passed at least one token, which
is why the rules come to an end: each calls a tighter rule at the same token, or
any rule after fewer tokens.

Key definitions: `Outcome`, `Parser.phrase`, `Parser.chain`, `Parser.operand`.
Key theorems: `Parser.phrase_chain`, `Parser.phrase_atom`, `Parser.chain_eq`,
`Parser.operand_eq`, `Parser.phrase_advances`.
-/
import Calculator.Parser.State

namespace Calculator

/-- How a rule ends: the state it leaves, and the expression it built or the error. -/
structure Outcome where
  parser : Parser
  result : Except Error Expr

namespace Outcome

/-- Whether the outcome, if it is an expression, has left fewer than `n` tokens. -/
def Under (n : Nat) (out : Outcome) : Prop :=
  ∀ e, out.result = .ok e → out.parser.remaining < n

/-- Goes on with the expression, if there is one. -/
def andThen (out : Outcome) (next : Expr → Parser → Outcome) : Outcome :=
  match out.result with
  | .ok e => next e out.parser
  | .error error => ⟨out.parser, .error error⟩

theorem under_error (n : Nat) (p : Parser) (error : Error) : Under n ⟨p, .error error⟩ :=
  fun _ h => by cases h

theorem Under.mono {m n : Nat} {out : Outcome} (h : out.Under m) (hmn : m ≤ n) : out.Under n :=
  fun e he => Nat.lt_of_lt_of_le (h e he) hmn

end Outcome

namespace Parser

/-- A leaf for the integer under the cursor. -/
def leaf (p : Parser) : Outcome :=
  if p.cursor.atEnd then ⟨p, .error ⟨.endedEarly, p.position⟩⟩
  else if p.current.isInteger then
    match p.eatInteger with
    | .error error => ⟨p, .error error⟩
    | .ok (token, q) =>
      match token.number with
      | none => ⟨q, .error ⟨.internal "integer token without a value", token.span.start⟩⟩
      | some value =>
        ⟨(q.makeNumber value token.span).2, .ok (q.makeNumber value token.span).1⟩
  else ⟨p, .error ⟨.expectedNumber p.current.text, p.position⟩⟩

theorem leaf_under (p : Parser) : p.leaf.Under p.remaining := by
  unfold leaf
  split
  · exact Outcome.under_error _ _ _
  · split
    · split
      · exact Outcome.under_error _ _ _
      · next token q hq =>
        have hq := remaining_eatInteger hq
        split
        · exact Outcome.under_error _ _ _
        · exact fun _ _ => hq
    · exact Outcome.under_error _ _ _

/-- Moves into the group that the current token opens. -/
def openGroup (p : Parser) : Except (Parser × Error) Parser :=
  match p.enterGroup p.position with
  | .error error => .error (p, error)
  | .ok q =>
    match q.eatOperator with
    | .error error => .error (q, error)
    | .ok (_, q) => .ok q

/-- Moves out of a group after its expression, which the current token has to close. -/
def closeGroup (e : Expr) (p : Parser) : Outcome :=
  if p.current.isClose then
    match p.eatOperator with
    | .error error => ⟨p, .error error⟩
    | .ok (_, q) => ⟨q.exitGroup, .ok e⟩
  else ⟨p, .error ⟨.expectedClose p.current.text, p.position⟩⟩

theorem remaining_openGroup {p q : Parser} (h : p.openGroup = .ok q) :
    q.remaining < p.remaining := by
  unfold openGroup at h
  split at h
  · cases h
  · next r hr =>
    have hr := remaining_enterGroup hr
    split at h
    · cases h
    · next token s hs =>
      cases h
      exact hr ▸ remaining_eatOperator hs

theorem closeGroup_under (e : Expr) (p : Parser) : (p.closeGroup e).Under p.remaining := by
  unfold closeGroup
  split
  · split
    · exact Outcome.under_error _ _ _
    · next token q hq =>
      have hq := remaining_eatOperator hq
      exact fun _ _ => hq
  · exact Outcome.under_error _ _ _

mutual

/-- Takes a phrase of a rule. -/
def phraseWithin (rule : Rule) (p : Parser) : { out : Outcome // out.Under p.remaining } :=
  match hr : rule.operand? with
  | none => atomWithin (p.visit rule)
  | some tighter =>
    have := Rule.rank_of_operand? hr
    match phraseWithin tighter (p.visit rule) with
    | ⟨⟨q, .error error⟩, _⟩ => ⟨⟨q, .error error⟩, Outcome.under_error _ _ _⟩
    | ⟨⟨q, .ok left⟩, under⟩ =>
      have hq : q.remaining < p.remaining := under left rfl
      let out := chainWithin rule.operators tighter left q
      ⟨out.1, out.2.mono hq⟩
termination_by 4 * p.remaining + rule.rank + 1
decreasing_by
  · simp only [remaining_visit]
    omega
  · simp only [remaining_visit]
    omega
  · omega

/-- Takes operators and phrases of a tighter rule for as long as there are any. -/
def chainWithin (operators : List Operator) (tighter : Rule) (left : Expr) (p : Parser) :
    { out : Outcome // out.Under (p.remaining + 1) } :=
  match ho : p.takeOperator? operators with
  | none => ⟨⟨p, .ok left⟩, fun _ _ => Nat.lt_succ_self _⟩
  | some (op, span, q) =>
    have hq := remaining_takeOperator? ho
    match phraseWithin tighter q with
    | ⟨⟨r, .error error⟩, _⟩ => ⟨⟨r, .error error⟩, Outcome.under_error _ _ _⟩
    | ⟨⟨r, .ok right⟩, under⟩ =>
      have hr : r.remaining < q.remaining := under right rfl
      let out := chainWithin operators tighter (r.makeBinary op left right span).1
        (r.makeBinary op left right span).2
      ⟨out.1, out.2.mono (Nat.succ_le_succ (Nat.le_of_lt (Nat.lt_trans hr hq)))⟩
termination_by 4 * p.remaining
decreasing_by
  · cases tighter <;> simp only [Rule.rank] <;> omega
  · have : (r.makeBinary op left right span).2.remaining = r.remaining := rfl
    omega

/-- Takes an integer, or a sum between parentheses. -/
def atomWithin (p : Parser) : { out : Outcome // out.Under p.remaining } :=
  if p.current.isOpen then
    match ho : p.openGroup with
    | .error (q, error) => ⟨⟨q, .error error⟩, Outcome.under_error _ _ _⟩
    | .ok q =>
      have hq := remaining_openGroup ho
      match phraseWithin .sum q with
      | ⟨⟨r, .error error⟩, _⟩ => ⟨⟨r, .error error⟩, Outcome.under_error _ _ _⟩
      | ⟨⟨r, .ok e⟩, under⟩ =>
        have hr : r.remaining < q.remaining := under e rfl
        ⟨r.closeGroup e, (closeGroup_under e r).mono (Nat.le_of_lt (Nat.lt_trans hr hq))⟩
  else ⟨p.leaf, leaf_under p⟩
termination_by 4 * p.remaining
decreasing_by
  simp only [Rule.rank]
  omega

end

/-- Takes a phrase of a rule. -/
def phrase (rule : Rule) (p : Parser) : Outcome := (phraseWithin rule p).1

/-- Takes operators and phrases of a tighter rule after the operand `left`, for as long as there
are any. -/
def chain (operators : List Operator) (tighter : Rule) (left : Expr) (p : Parser) : Outcome :=
  (chainWithin operators tighter left p).1

/-- Takes an integer, or a sum between parentheses. -/
def operand (p : Parser) : Outcome := (atomWithin p).1

/-- A phrase of a rule with operators is an operand and what follows it. -/
theorem phrase_chain {rule tighter : Rule} (h : rule.operand? = some tighter) (p : Parser) :
    p.phrase rule = ((p.visit rule).phrase tighter).andThen fun left q =>
      q.chain rule.operators tighter left := by
  rw [phrase, phraseWithin]
  split
  · next hn => rw [h] at hn; cases hn
  · next t ht =>
    rw [h] at ht
    cases ht
    split
    · next q error hq heq => rw [phrase, heq]; rfl
    · next q left hq heq => rw [phrase, heq]; rfl

/-- A phrase of the tightest rule is an integer or a group. -/
theorem phrase_atom (p : Parser) : p.phrase .atom = (p.visit .atom).operand := by
  rw [phrase, phraseWithin]
  split
  · rfl
  · next t ht => cases ht

/-- What follows an operand is an operator with its right operand and what follows them, or
nothing. -/
theorem chain_eq (operators : List Operator) (tighter : Rule) (left : Expr) (p : Parser) :
    p.chain operators tighter left = match p.takeOperator? operators with
      | none => ⟨p, .ok left⟩
      | some (op, span, q) => (q.phrase tighter).andThen fun right r =>
        (r.makeBinary op left right span).2.chain operators tighter
          (r.makeBinary op left right span).1 := by
  rw [chain, chainWithin]
  split
  · next h => rw [h]
  · next op span q h =>
    conv => rhs; rw [h]
    split
    · next r error hr heq => simp only [phrase, heq]; rfl
    · next r right hr heq => simp only [phrase, heq]; rfl

/-- A group is a sum and the token that closes it; anything else is an integer. -/
theorem operand_eq (p : Parser) :
    p.operand = if p.current.isOpen then
        match p.openGroup with
        | .error (q, error) => ⟨q, .error error⟩
        | .ok q => (q.phrase .sum).andThen closeGroup
      else p.leaf := by
  rw [operand, atomWithin]
  split
  · split
    · next q error h => rw [h]
    · next q h =>
      conv => rhs; rw [h]
      split
      · next r error hr heq => simp only [phrase, heq]; rfl
      · next r e hr heq => simp only [phrase, heq]; rfl
  · rfl

/-- A rule that succeeds has passed a token. -/
theorem phrase_advances {rule : Rule} {p : Parser} {e : Expr}
    (h : (p.phrase rule).result = .ok e) : (p.phrase rule).parser.remaining < p.remaining :=
  (phraseWithin rule p).2 e h

end Parser

end Calculator
