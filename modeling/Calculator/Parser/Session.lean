/-
# Parsers, operation by operation

A parser can be used for less than a whole parse: for one phrase of a rule in the
middle of a list, for a single step of its cursor, to open or close a group, to build
a node. In a session such operations come in any order. Each is answered, and the next
one finds the parser in the state that the last one left, also after an error.

Key definitions: `Cursor.Operation`, `Cursor.perform`, `Parser.Operation`, `Parser.perform`,
`Parser.after`, `Parser.answers`.
-/
import Calculator.Parser.Phrase

namespace Calculator

namespace Cursor

/-- What a cursor can be asked for. -/
inductive Operation
  /-- To move past the current token. -/
  | advance
  /-- To move past a punctuation mark. -/
  | eatOperator
  /-- To move past an integer. -/
  | eatInteger
  /-- Whether the end of input is among the next `k` tokens. -/
  | endWithin (k : Nat)
  /-- To move past the next `k` tokens if their joined text is `text`. -/
  | lookahead (k : Nat) (text : String)
deriving DecidableEq

/-- What a cursor answers. -/
inductive Answer
  /-- The token it has moved past, or why it has not. -/
  | token (result : Except Error Token)
  /-- Whether it is so, or has been done. -/
  | flag (holds : Bool)

/-- Whether the answer is an error or a no. -/
def Answer.isRefusal : Answer → Bool
  | token (.ok _) => false
  | token (.error _) => true
  | flag holds => !holds

/-- The answer of a step that gives back a token. A step that fails has moved nothing. -/
def taken (c : Cursor) : Except Error (Token × Cursor) → Answer × Cursor
  | .ok (token, d) => (.token (.ok token), d)
  | .error error => (.token (.error error), c)

/-- What a cursor answers to an operation, and where it stands then. -/
def perform (c : Cursor) : Operation → Answer × Cursor
  | .advance => c.taken c.advance
  | .eatOperator => c.taken c.eatOperator
  | .eatInteger => c.taken c.eatInteger
  | .endWithin k => (.flag (c.endWithin k), c)
  | .lookahead k text => (.flag (c.lookahead? k text).isSome, (c.lookahead? k text).getD c)

end Cursor

namespace Parser

/-- What a parser can be asked for. -/
inductive Operation
  /-- A step of its cursor. -/
  | cursor (op : Cursor.Operation)
  /-- To take a phrase of the rule. -/
  | phrase (rule : Rule)
  /-- To open a group. -/
  | enterGroup (position : Position)
  /-- To close a group. -/
  | exitGroup
  /-- To fail before the end of input. -/
  | expectEnd
  /-- To build a leaf. -/
  | makeNumber (value : Int64) (span : Span)
  /-- To build a node of an operator and its operands. -/
  | makeBinary (op : Operator) (left right : Expr) (span : Span)
deriving DecidableEq

/-- What a parser answers. -/
inductive Answer
  /-- The answer of its cursor. -/
  | cursor (answer : Cursor.Answer)
  /-- An expression, or why there is none. -/
  | expr (result : Except Error Expr)
  /-- That it has been done, or why it has not. -/
  | done (result : Except Error Unit)

/-- What a parser answers to an operation, and the state it is in then. -/
def perform (p : Parser) : Operation → Answer × Parser
  | .cursor op => (.cursor (p.cursor.perform op).1, { p with cursor := (p.cursor.perform op).2 })
  | .phrase rule => (.expr (p.phrase rule).result, (p.phrase rule).parser)
  | .enterGroup position =>
    match p.enterGroup position with
    | .ok q => (.done (.ok ()), q)
    | .error error => (.done (.error error), p)
  | .exitGroup => (.done (.ok ()), p.exitGroup)
  | .expectEnd => (.done p.expectEnd, p)
  | .makeNumber value span =>
    (.expr (.ok (p.makeNumber value span).1), (p.makeNumber value span).2)
  | .makeBinary op left right span =>
    (.expr (.ok (p.makeBinary op left right span).1), (p.makeBinary op left right span).2)

theorem perform_enterGroup (p : Parser) (position : Position) :
    p.perform (.enterGroup position) =
      if p.limit ≤ p.depth then (.done (.error ⟨.nestedTooDeep p.limit, position⟩), p)
      else (.done (.ok ()), { p with depth := p.depth + 1 }) := by
  rw [perform, enterGroup]
  split
  · next h =>
    split at h
    · cases h
    · next hroom => rw [if_neg hroom]; cases h; rfl
  · next h =>
    split at h
    · next hfull => rw [if_pos hfull]; cases h; rfl
    · cases h

/-- The state after the operations, one after the other. -/
def after (p : Parser) : List Operation → Parser
  | [] => p
  | op :: operations => (p.perform op).2.after operations

/-- The answers to the operations, one after the other. -/
def answers (p : Parser) : List Operation → List Answer
  | [] => []
  | op :: operations => (p.perform op).1 :: (p.perform op).2.answers operations

end Parser

end Calculator
