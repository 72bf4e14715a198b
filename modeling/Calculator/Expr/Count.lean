/-
# Counting the nodes of an expression

The leaves are counted by a loop over the nodes still to visit, so a long chain
of operators needs no deep recursion. Every operator has two operands, so the
operators are one fewer than the leaves.

Key definitions: `Expr.numberCount`, `Expr.operatorCount`, `Expr.nodeCount`,
`Expr.leaves`, `Expr.operators`.
Key theorems: `Expr.countNumbers_cons`, `Expr.operatorCount_eq`, `Expr.nodeCount_eq`.
-/
import Calculator.Expr

namespace Calculator.Expr

/-- Adds the leaves of the nodes in `work` to `count`. -/
def countNumbers (work : List Expr) (count : Nat) : Nat :=
  match work with
  | [] => count
  | number .. :: work => countNumbers work (count + 1)
  | binary _ left right _ :: work => countNumbers (right :: left :: work) count
termination_by work.foldr (fun e steps => e.size + steps) 0
decreasing_by all_goals simp [size] <;> omega

/-- The number of leaves. -/
def numberCount (e : Expr) : Nat := countNumbers [e] 0

/-- The number of operators. -/
def operatorCount (e : Expr) : Nat := e.numberCount - 1

/-- The number of leaves and operators together. -/
def nodeCount (e : Expr) : Nat := e.numberCount + e.operatorCount

/-- The number of leaves, operand by operand. -/
def leaves : Expr → Nat
  | number .. => 1
  | binary _ left right _ => left.leaves + right.leaves

/-- The number of operators, operand by operand. -/
def operators : Expr → Nat
  | number .. => 0
  | binary _ left right _ => left.operators + right.operators + 1

/-- A node among those to visit adds its leaves. -/
theorem countNumbers_cons : ∀ (e : Expr) (work : List Expr) (count : Nat),
    countNumbers (e :: work) count = countNumbers work (count + e.leaves)
  | number .., work, count => by rw [countNumbers, leaves]
  | binary op left right span, work, count => by
    rw [countNumbers, countNumbers_cons right, countNumbers_cons left, leaves, Nat.add_assoc,
      Nat.add_comm right.leaves]

theorem numberCount_eq (e : Expr) : e.numberCount = e.leaves := by
  rw [numberCount, countNumbers_cons, countNumbers, Nat.zero_add]

theorem leaves_eq : ∀ e : Expr, e.leaves = e.operators + 1
  | number .. => rfl
  | binary _ left right _ => by
    rw [leaves, operators, leaves_eq left, leaves_eq right]
    omega

theorem size_eq : ∀ e : Expr, e.size = e.leaves + e.operators
  | number .. => rfl
  | binary _ left right _ => by
    rw [size, leaves, operators, size_eq left, size_eq right]
    omega

/-- The operators are counted by the leaves. -/
theorem operatorCount_eq (e : Expr) : e.operatorCount = e.operators := by
  rw [operatorCount, numberCount_eq, leaves_eq, Nat.add_sub_cancel]

/-- All nodes are counted. -/
theorem nodeCount_eq (e : Expr) : e.nodeCount = e.size := by
  rw [nodeCount, numberCount_eq, operatorCount_eq, size_eq]

end Calculator.Expr
