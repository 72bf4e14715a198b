/-
# The four operators

Addition, subtraction, multiplication and division of integers. An operator
has an exact result over the unbounded integers, division truncating toward
zero, and a checked result over the 64-bit integers: the exact one if it fits,
`none` if it does not.

Key definitions: `Operator`, `Operator.symbol`, `Operator.exact`, `Operator.checked?`.
Key theorems: `Operator.checked?_eq_some_iff`.
-/

namespace Calculator

/-- A binary operator. -/
inductive Operator
  | add
  | sub
  | mul
  | div
deriving DecidableEq

namespace Operator

/-- The text of an operator. -/
def symbol : Operator → String
  | add => "+"
  | sub => "-"
  | mul => "*"
  | div => "/"

theorem symbol_injective : ∀ {a b : Operator}, a.symbol = b.symbol → a = b
  | a, b, h => by cases a <;> cases b <;> first | rfl | exact absurd h (by decide)

/-- The result over the unbounded integers. Division truncates toward zero. -/
def exact : Operator → Int → Int → Int
  | add, a, b => a + b
  | sub, a, b => a - b
  | mul, a, b => a * b
  | div, a, b => a.tdiv b

/-- Whether an integer fits into 64 bits: from -2 ^ 63 on, and below 2 ^ 63. -/
def fits (n : Int) : Bool := -0x8000000000000000 ≤ n && n < 0x8000000000000000

/-- The exact result as a 64-bit integer, if it fits. -/
def checked? (op : Operator) (a b : Int64) : Option Int64 :=
  let result := op.exact a.toInt b.toInt
  if fits result then some (Int64.ofInt result) else none

/-- A checked result is the exact one, and there is none only if that does not fit. -/
theorem checked?_eq_some_iff {op : Operator} {a b v : Int64} :
    op.checked? a b = some v ↔ v.toInt = op.exact a.toInt b.toInt := by
  have hlo := v.le_toInt
  have hhi := v.toInt_lt
  simp only [checked?, fits, Bool.and_eq_true, decide_eq_true_eq]
  constructor
  · intro h
    split at h
    · next hfit =>
      rw [Option.some.injEq] at h
      rw [← h, Int64.toInt_ofInt_of_le hfit.1 hfit.2]
    · exact absurd h (by simp)
  · intro h
    rw [← h, if_pos ⟨hlo, hhi⟩, Int64.ofInt_toInt]

end Operator

end Calculator
