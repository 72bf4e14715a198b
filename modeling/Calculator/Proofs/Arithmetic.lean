/-
# An evaluation is exact arithmetic

The machine with two stacks gives what arithmetic over the unbounded integers
gives, as long as every result on the way fits into 64 bits. Where one does not,
or where a division has a zero divisor, it gives the error of the first such
operator in the order of evaluation: the operators of the left operand, those of
the right one, the operator itself. So a value is only ever the exact one, and
the machine never runs out of values.

The arithmetic of the statements is written here, operator by operator, with a
quotient that is made of magnitudes and signs; that the operators of the machine
compute it is proved (`Operator.result_eq`, `Expr.unbounded_binary`).

Key definitions: `Operator.quotient`, `Operator.result`, `Expr.exactValue`, `Expr.unbounded`,
`Expr.Fits`, `Expr.signs`.
Key theorems: `Operator.result_eq`, `Operator.apply_map_toInt`, `Expr.value_map_toInt`,
`Expr.evaluate_eq_ok_iff`, `Expr.exists_sign_of_evaluate`, `evaluate_exact`.
-/
import Calculator.Expr.Evaluate

namespace Calculator

/-! ### One operator -/

namespace Operator

/-- The quotient without its fraction: its magnitude is how often that of the divisor goes into that
of the dividend, and it is negative if just one of the two is. -/
def quotient (a b : Int) : Int := a.sign * b.sign * (a.natAbs / b.natAbs : Nat)

/-- The integer, if it lies between -2 ^ 63 and 2 ^ 63 - 1, and else an overflow. -/
def inRange (symbol : String) (n : Int) : Except Fault Int :=
  if n < -0x8000000000000000 ∨ 0x7fffffffffffffff < n then .error (.overflow symbol) else .ok n

/-- The result of an operator over the unbounded integers, if it divides by no zero and the result
is in range. -/
def result : Operator → Int → Int → Except Fault Int
  | add, a, b => inRange "+" (a + b)
  | sub, a, b => inRange "-" (a - b)
  | mul, a, b => inRange "*" (a * b)
  | div, a, b => if b = 0 then .error .divisionByZero else inRange "/" (quotient a b)

/-- An exact division truncates toward zero. -/
theorem exact_div (a b : Int) : exact div a b = quotient a b := by
  have hparts : a.tdiv b = (a.tdiv b).sign * (a.natAbs / b.natAbs : Nat) :=
    calc a.tdiv b
      _ = (a.tdiv b).sign * (a.tdiv b).natAbs := (Int.sign_mul_natAbs _).symm
      _ = (a.tdiv b).sign * (a.natAbs / b.natAbs : Nat) := by
        rw [Int.natAbs_tdiv]
        rfl
  show a.tdiv b = quotient a b
  rw [hparts, Int.sign_tdiv, quotient]
  by_cases hlt : a.natAbs < b.natAbs
  · rw [if_pos hlt, Nat.div_eq_of_lt hlt]
    simp
  · rw [if_neg hlt]

example : quotient (-7) 2 = -3 := by decide

/-- The results of the four operators are the exact ones that are in range. -/
theorem result_eq (op : Operator) (a b : Int) : op.result a b =
    if op = .div ∧ b = 0 then .error .divisionByZero else inRange op.symbol (op.exact a b) := by
  cases op with
  | add => exact (if_neg (by simp)).symm
  | sub => exact (if_neg (by simp)).symm
  | mul => exact (if_neg (by simp)).symm
  | div =>
    rw [exact_div]
    simp only [true_and]
    rfl

theorem inRange_eq_ok_iff {symbol : String} {n r : Int} : inRange symbol n = .ok r ↔
    -0x8000000000000000 ≤ n ∧ n ≤ 0x7fffffffffffffff ∧ r = n := by
  unfold inRange
  by_cases hout : n < -0x8000000000000000 ∨ 0x7fffffffffffffff < n
  · rw [if_pos hout]
    refine iff_of_false nofun ?_
    rintro ⟨hlo, hhi, -⟩
    omega
  · rw [if_neg hout, Except.ok.injEq]
    constructor
    · rintro rfl
      exact ⟨by omega, by omega, rfl⟩
    · rintro ⟨-, -, rfl⟩
      rfl

theorem result_eq_ok_iff {op : Operator} {a b r : Int} :
    op.result a b = .ok r ↔ ¬ (op = .div ∧ b = 0) ∧ -0x8000000000000000 ≤ op.exact a b ∧
      op.exact a b ≤ 0x7fffffffffffffff ∧ r = op.exact a b := by
  rw [result_eq]
  by_cases hzero : op = .div ∧ b = 0
  · simp [hzero]
  · rw [if_neg hzero, inRange_eq_ok_iff, and_iff_right hzero]

theorem checked?_eq_none_iff {op : Operator} {a b : Int64} :
    op.checked? a b = none ↔ op.exact a.toInt b.toInt < -0x8000000000000000 ∨
      0x7fffffffffffffff < op.exact a.toInt b.toInt := by
  simp only [checked?, fits, Bool.and_eq_true, decide_eq_true_eq]
  by_cases hfit : -0x8000000000000000 ≤ op.exact a.toInt b.toInt ∧
      op.exact a.toInt b.toInt < 0x8000000000000000
  · rw [if_pos hfit]
    exact iff_of_false (Option.some_ne_none _) (by omega)
  · rw [if_neg hfit]
    exact iff_of_true rfl (by omega)

/-- Applied to 64-bit integers, an operator has the exact result or the same fault. -/
theorem apply_map_toInt (op : Operator) (a b : Int64) :
    (op.apply a b).map Int64.toInt = op.result a.toInt b.toInt := by
  have hzero : b = 0 ↔ b.toInt = 0 := by rw [← Int64.toInt_inj]; rfl
  rw [result_eq]
  unfold apply inRange
  simp only [hzero]
  by_cases hdiv : op = .div ∧ b.toInt = 0
  · rw [if_pos hdiv, if_pos hdiv]
    rfl
  · rw [if_neg hdiv, if_neg hdiv]
    cases hc : op.checked? a b with
    | none =>
      rw [if_pos (checked?_eq_none_iff.1 hc)]
      rfl
    | some v =>
      have hin : ¬ (op.exact a.toInt b.toInt < -0x8000000000000000 ∨
          0x7fffffffffffffff < op.exact a.toInt b.toInt) := by
        rw [← checked?_eq_none_iff, hc]
        exact Option.some_ne_none v
      rw [if_neg hin, ← checked?_eq_some_iff.1 hc]
      rfl

theorem apply_eq_error {op : Operator} {a b : Int64} {fault : Fault}
    (h : op.apply a b = .error fault) :
    (fault = .divisionByZero ∧ op = .div) ∨ fault = .overflow op.symbol := by
  unfold apply at h
  split at h
  · next hdiv =>
    cases h
    exact .inl ⟨rfl, hdiv.1⟩
  · split at h
    · cases h
    · cases h
      exact .inr rfl

end Operator

/-! ### The whole expression -/

namespace Expr

/-- The value of an expression in exact arithmetic. The error is the first one in the order of
evaluation, at its operator. -/
def exactValue : Expr → Except Error Int
  | number value _ => .ok value.toInt
  | binary op left right span =>
    match left.exactValue with
    | .error error => .error error
    | .ok a =>
      match right.exactValue with
      | .error error => .error error
      | .ok b =>
        match op.result a b with
        | .error fault => .error ⟨fault, span.start⟩
        | .ok r => .ok r

/-- The value of an expression over the unbounded integers, with nothing checked. -/
def unbounded : Expr → Int
  | number value _ => value.toInt
  | binary .add left right _ => left.unbounded + right.unbounded
  | binary .sub left right _ => left.unbounded - right.unbounded
  | binary .mul left right _ => left.unbounded * right.unbounded
  | binary .div left right _ => Operator.quotient left.unbounded right.unbounded

/-- Over the unbounded integers, every operator of the expression divides by no zero and has a
result between -2 ^ 63 and 2 ^ 63 - 1. -/
def Fits : Expr → Prop
  | number .. => True
  | binary op left right span => left.Fits ∧ right.Fits ∧ ¬ (op = .div ∧ right.unbounded = 0) ∧
      -0x8000000000000000 ≤ (binary op left right span).unbounded ∧
      (binary op left right span).unbounded ≤ 0x7fffffffffffffff

/-- The operators of an expression with their spans, from left to right. -/
def signs : Expr → List (Operator × Span)
  | number .. => []
  | binary op left right span => left.signs ++ (op, span) :: right.signs

theorem evaluate_eq_value (e : Expr) : e.evaluate = e.value := by
  rw [evaluate, runTasks_visit]
  cases e.value with
  | error error => rfl
  | ok v =>
    simp only []
    rw [runTasks]

theorem value_binary (op : Operator) (left right : Expr) (span : Span) :
    (binary op left right span).value = left.value.bind fun a => right.value.bind fun b =>
      (op.apply a b).mapError fun fault => ⟨fault, span.start⟩ := by
  rw [value]
  cases left.value with
  | error error => rfl
  | ok a =>
    cases right.value with
    | error error => rfl
    | ok b =>
      simp only [Except.bind]
      cases op.apply a b <;> rfl

/-- The value, as an integer, is the one of exact arithmetic, and so is the error. -/
theorem value_map_toInt : ∀ e : Expr, e.value.map Int64.toInt = e.exactValue
  | number value _ => rfl
  | binary op left right span => by
    have hleft := value_map_toInt left
    have hright := value_map_toInt right
    rw [value_binary, exactValue, ← hleft, ← hright]
    cases left.value with
    | error error => rfl
    | ok a =>
      cases right.value with
      | error error => rfl
      | ok b =>
        simp only [Except.bind, Except.map]
        rw [← Operator.apply_map_toInt]
        cases op.apply a b <;> rfl

theorem unbounded_binary (op : Operator) (left right : Expr) (span : Span) :
    (binary op left right span).unbounded = op.exact left.unbounded right.unbounded := by
  cases op with
  | add => rfl
  | sub => rfl
  | mul => rfl
  | div => exact (Operator.exact_div _ _).symm

/-- Exact arithmetic has a value exactly if no operator goes wrong, and then it is the value over
the unbounded integers. -/
theorem exactValue_eq_ok_iff : ∀ {e : Expr} {r : Int},
    e.exactValue = .ok r ↔ e.Fits ∧ r = e.unbounded
  | number value _, r => by simp [exactValue, Fits, unbounded, eq_comm]
  | binary op left right span, r => by
    rw [exactValue, Fits, unbounded_binary]
    constructor
    · intro h
      cases hl : left.exactValue with
      | error error => rw [hl] at h; cases h
      | ok a =>
        cases hr : right.exactValue with
        | error error => rw [hl, hr] at h; cases h
        | ok b =>
          obtain ⟨hfl, rfl⟩ := exactValue_eq_ok_iff.1 hl
          obtain ⟨hfr, rfl⟩ := exactValue_eq_ok_iff.1 hr
          simp only [hl, hr] at h
          cases hop : op.result left.unbounded right.unbounded with
          | error fault => rw [hop] at h; cases h
          | ok s =>
            rw [hop] at h
            cases h
            obtain ⟨hzero, hlo, hhi, heq⟩ := Operator.result_eq_ok_iff.1 hop
            exact ⟨⟨hfl, hfr, hzero, hlo, hhi⟩, heq⟩
    · rintro ⟨⟨hfl, hfr, hzero, hlo, hhi⟩, rfl⟩
      have hl := exactValue_eq_ok_iff.2 ⟨hfl, rfl⟩
      have hr := exactValue_eq_ok_iff.2 ⟨hfr, rfl⟩
      have hop := Operator.result_eq_ok_iff.2 ⟨hzero, hlo, hhi, rfl⟩
      simp only [hl, hr, hop]

/-- An evaluation ends with a value exactly if no operator goes wrong, and then it is the value over
the unbounded integers. -/
theorem evaluate_eq_ok_iff {e : Expr} {v : Int64} :
    e.evaluate = .ok v ↔ e.Fits ∧ v.toInt = e.unbounded := by
  rw [evaluate_eq_value, ← exactValue_eq_ok_iff, ← value_map_toInt]
  cases e.value with
  | error error => simp [Except.map]
  | ok w => simp [Except.map, Int64.toInt_inj]

theorem exists_sign_of_value : ∀ {e : Expr} {error : Error}, e.value = .error error →
    ∃ op span, (op, span) ∈ e.signs ∧ error.position = span.start ∧
      ((error.fault = .divisionByZero ∧ op = .div) ∨ error.fault = .overflow op.symbol)
  | number .., error, h => by cases h
  | binary op left right span, error, h => by
    rw [value_binary] at h
    cases hl : left.value with
    | error other =>
      rw [hl] at h
      cases h
      obtain ⟨o, s, hmem, hfault⟩ := exists_sign_of_value hl
      exact ⟨o, s, List.mem_append_left _ hmem, hfault⟩
    | ok a =>
      cases hr : right.value with
      | error other =>
        rw [hl, hr] at h
        cases h
        obtain ⟨o, s, hmem, hfault⟩ := exists_sign_of_value hr
        exact ⟨o, s, List.mem_append_right _ (List.mem_cons_of_mem _ hmem), hfault⟩
      | ok b =>
        rw [hl, hr] at h
        have h : ((op.apply a b).mapError fun fault => (⟨fault, span.start⟩ : Error)) =
          .error error := h
        cases hop : op.apply a b with
        | ok v =>
          rw [hop] at h
          cases h
        | error fault =>
          rw [hop] at h
          cases h
          exact ⟨op, span, List.mem_append_right _ List.mem_cons_self, rfl,
            Operator.apply_eq_error hop⟩

/-- An evaluation fails at an operator of the expression. -/
theorem exists_sign_of_evaluate {e : Expr} {error : Error} (h : e.evaluate = .error error) :
    ∃ op span, (op, span) ∈ e.signs ∧ error.position = span.start ∧
      ((error.fault = .divisionByZero ∧ op = .div) ∨ error.fault = .overflow op.symbol) :=
  exists_sign_of_value (evaluate_eq_value e ▸ h)

end Expr

/-- **An evaluation is exact arithmetic with the first failure in evaluation order.** The machine
gives the value of exact arithmetic or its error, with the same fault at the same operator. It gives
a value only if no operator of the expression divides by zero or has a result outside 64 bits, and
then the value is the one over the unbounded integers. It never ends for want of a value. -/
theorem evaluate_exact (e : Expr) :
    e.evaluate.map Int64.toInt = e.exactValue ∧
    (∀ v, e.evaluate = .ok v ↔ e.Fits ∧ v.toInt = e.unbounded) ∧
    ∀ error reason, e.evaluate = .error error → error.fault ≠ .internal reason := by
  refine ⟨?_, fun v => Expr.evaluate_eq_ok_iff, fun error reason h hinternal => ?_⟩
  · rw [Expr.evaluate_eq_value, Expr.value_map_toInt]
  · obtain ⟨op, span, -, -, hfault⟩ := Expr.exists_sign_of_evaluate h
    rw [hinternal] at hfault
    rcases hfault with ⟨hfault, -⟩ | hfault <;> cases hfault

end Calculator
