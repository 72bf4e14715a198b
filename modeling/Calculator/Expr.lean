/-
# Expressions

An expression is a tree: an integer at a leaf, an operator with a left and a
right operand at every other node. Each node keeps the span of its token, the
integer's or the operator's; groups leave no node.

Key definitions: `Expr`, `Expr.size`, `Expr.height`, `Expr.bare`.
-/
import Calculator.Operator
import Calculator.Position

namespace Calculator

/-- An expression. -/
inductive Expr
  /-- An integer. -/
  | number (value : Int64) (span : Span)
  /-- An operator with its operands. -/
  | binary (op : Operator) (left right : Expr) (span : Span)
deriving DecidableEq

namespace Expr

/-- Whether the root is an integer. -/
def isNumber : Expr → Bool
  | number .. => true
  | binary .. => false

/-- The integer at the root. -/
def value? : Expr → Option Int64
  | number value _ => some value
  | binary .. => none

/-- The operator at the root. -/
def operator? : Expr → Option Operator
  | number .. => none
  | binary op .. => some op

/-- The left operand of the root. -/
def left? : Expr → Option Expr
  | number .. => none
  | binary _ left _ _ => some left

/-- The right operand of the root. -/
def right? : Expr → Option Expr
  | number .. => none
  | binary _ _ right _ => some right

/-- The span of the root's token. -/
def span : Expr → Span
  | number _ span => span
  | binary _ _ _ span => span

/-- The number of nodes. -/
def size : Expr → Nat
  | number .. => 1
  | binary _ left right _ => left.size + right.size + 1

/-- The number of operators on the longest way from the root to a leaf. -/
def height : Expr → Nat
  | number .. => 0
  | binary _ left right _ => max left.height right.height + 1

/-- The expression with every span replaced by one that stands in no source. -/
def bare : Expr → Expr
  | number value _ => number value ⟨.unknown, .unknown⟩
  | binary op left right _ => binary op left.bare right.bare ⟨.unknown, .unknown⟩

end Expr

end Calculator
