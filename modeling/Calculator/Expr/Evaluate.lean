/-
# The value of an expression

An expression is evaluated in 64-bit arithmetic by a machine with two stacks,
so a long chain of operators needs no deep recursion: one holds what is still to
do, the other the values of the operands done. The left operand comes before the
right one, and the first operator without a result ends the evaluation with an
error at that operator.

Key definitions: `Operator.apply`, `Expr.runTasks`, `Expr.evaluate`, `Expr.value`.
Key theorems: `Expr.runTasks_visit`.
-/
import Calculator.Error
import Calculator.Expr

namespace Calculator

/-- The result of an operator on two 64-bit integers. -/
def Operator.apply (op : Operator) (left right : Int64) : Except Fault Int64 :=
  if op = .div ∧ right = 0 then .error .divisionByZero
  else match op.checked? left right with
    | some result => .ok result
    | none => .error (.overflow op.symbol)

namespace Expr

/-- What is left to do in an evaluation. -/
inductive Task
  /-- Evaluate an expression. -/
  | visit (e : Expr)
  /-- Apply an operator to the last two values. -/
  | apply (op : Operator) (span : Span)

/-- The steps a task takes. -/
def Task.steps : Task → Nat
  | visit e => 2 * e.size
  | apply .. => 1

/-- Does the tasks in order. The values are those of the operands done, the last one first;
`root` is the place to report if no value is left. -/
def runTasks (root : Position) (tasks : List Task) (values : List Int64) : Except Error Int64 :=
  match tasks, values with
  | [], [] => .error ⟨.internal "evaluation produced no value", root⟩
  | [], value :: _ => .ok value
  | .visit (number value _) :: tasks, values => runTasks root tasks (value :: values)
  | .visit (binary op left right span) :: tasks, values =>
    runTasks root (.visit left :: .visit right :: .apply op span :: tasks) values
  | .apply op span :: tasks, right :: left :: values =>
    match op.apply left right with
    | .error fault => .error ⟨fault, span.start⟩
    | .ok result => runTasks root tasks (result :: values)
  | .apply _ span :: _, _ => .error ⟨.internal "missing operand during evaluation", span.start⟩
termination_by tasks.foldr (fun task steps => task.steps + steps) 0
decreasing_by all_goals simp [Task.steps, size] <;> omega

/-- The value of an expression. -/
def evaluate (e : Expr) : Except Error Int64 := runTasks e.span.start [.visit e] []

/-- The value of an expression, operand by operand. -/
def value : Expr → Except Error Int64
  | number value _ => .ok value
  | binary op left right span =>
    match left.value with
    | .error error => .error error
    | .ok a =>
      match right.value with
      | .error error => .error error
      | .ok b =>
        match op.apply a b with
        | .error fault => .error ⟨fault, span.start⟩
        | .ok result => .ok result

/-- To visit an expression is to push its value, or to end with its error. -/
theorem runTasks_visit (root : Position) : ∀ (e : Expr) (tasks : List Task) (values : List Int64),
    runTasks root (.visit e :: tasks) values = match e.value with
      | .error error => .error error
      | .ok result => runTasks root tasks (result :: values)
  | number .., tasks, values => by rw [runTasks, value]
  | binary op left right span, tasks, values => by
    rw [runTasks, runTasks_visit root left, value]
    cases left.value with
    | error error => rfl
    | ok a =>
      simp only []
      rw [runTasks_visit root right]
      cases right.value with
      | error error => rfl
      | ok b =>
        simp only []
        rw [runTasks]
        cases op.apply a b <;> rfl

end Expr

end Calculator
