/-
# The counts agree with what is printed

The number of the leaves is the only thing that is counted; the two other counts are
computed from it. They are right because an operator has two operands: so there is one
leaf more than operators, the subtraction never comes to stop at zero, and the three
counts are those of the nodes in order (`countP_isNumber_inOrder`, `countP_isOperator_inOrder`,
`length_inOrder`). Both printers agree with them. An outline has one line for each node,
wherever it is indented to (`length_lines_outlineFrom`), and on one line each operator
has opened one group and closed it (`count_grouped`), as no numeral and no sign has a
parenthesis in it.

Key definitions: `Expr.Node.isNumber`, `Expr.Node.isOperator`.
Key theorems: `Expr.length_lines_outlineFrom`, `Expr.count_grouped`, `counts_agree`.
-/
import Calculator.Expr.Infix
import Calculator.Expr.Outline
import Calculator.Proofs.Drawing
import Calculator.Proofs.InOrder

namespace Calculator

open Text

namespace Expr

/-! ### The nodes, counted -/

/-- Whether the node is an integer. -/
def Node.isNumber : Node → Bool
  | number .. => true
  | operator .. => false

/-- Whether the node is an operator. -/
def Node.isOperator : Node → Bool
  | number .. => false
  | operator .. => true

theorem countP_isNumber_inOrder : ∀ e : Expr, e.inOrder.countP Node.isNumber = e.leaves
  | number .. => rfl
  | binary _ left right _ => by
    simp [inOrder, leaves, Node.isNumber, countP_isNumber_inOrder left,
      countP_isNumber_inOrder right]

theorem countP_isOperator_inOrder : ∀ e : Expr, e.inOrder.countP Node.isOperator = e.operators
  | number .. => rfl
  | binary _ left right _ => by
    simp [inOrder, operators, List.countP_cons, Node.isOperator, countP_isOperator_inOrder left,
      countP_isOperator_inOrder right, Nat.add_assoc]

theorem one_le_numberCount (e : Expr) : 1 ≤ e.numberCount := by
  rw [numberCount_eq, leaves_eq]
  omega

/-! ### The lines of an outline -/

theorem not_mem_numeral {c : Char} (hdigit : c.isDigit = false) (hminus : c ≠ '-') (v : Int) :
    c ∉ (decimal v).toList := by
  cases v with
  | ofNat n => exact not_mem_decimal hdigit n
  | negSucc n =>
    have hdigits : c ∉ (decimal (Int.ofNat (n + 1))).toList := not_mem_decimal hdigit (n + 1)
    rw [toList_decimal_ofNat] at hdigits
    simp [toList_decimal_negSucc, hminus, hdigits]

theorem newline_not_mem_heading (level : Nat) (e : Expr) :
    '\n' ∉ (indent level ++ e.heading).toList := by
  have hindent : '\n' ∉ (indent level).toList := by
    simp [indent]
  have hheading : '\n' ∉ e.heading.toList := by
    cases e with
    | number value span =>
      have hvalue := not_mem_numeral (c := '\n') (by decide) (by decide) value.toInt
      simp [heading, hvalue]
    | binary op left right span => cases op <;> simp [heading, Operator.symbol]
  simp [hindent, hheading]

/-- **An outline has as many lines as the expression has nodes**, whatever text follows it. -/
theorem length_lines_outlineFrom : ∀ (e : Expr) (level : Nat) (rest : List Char),
    (lines ((e.outlineFrom level).toList ++ rest)).length = e.size + (lines rest).length
  | number value span, level, rest => by
    have hrow := newline_not_mem_heading level (number value span)
    have htext : ((number value span).outlineFrom level).toList ++ rest =
        (indent level ++ heading (number value span)).toList ++ '\n' :: rest := by
      simp [outlineFrom]
    rw [htext, lines_append_newline hrow, List.length_cons, size]
    omega
  | binary op left right span, level, rest => by
    have hrow := newline_not_mem_heading level (binary op left right span)
    have htext : ((binary op left right span).outlineFrom level).toList ++ rest =
        (indent level ++ heading (binary op left right span)).toList ++ '\n' ::
          ((left.outlineFrom (level + 1)).toList ++
            ((right.outlineFrom (level + 1)).toList ++ rest)) := by
      simp [outlineFrom]
    rw [htext, lines_append_newline hrow, List.length_cons, length_lines_outlineFrom left,
      length_lines_outlineFrom right, size]
    omega

theorem length_lines_outline (e : Expr) : (lines e.outline.toList).length = e.size := by
  have hlines := e.length_lines_outlineFrom 0 []
  rw [List.append_nil] at hlines
  rw [outline_eq, hlines]
  rfl

/-! ### The parentheses of a line -/

/-- **An operator has one group around it**, and nothing else has a parenthesis in it. -/
theorem count_grouped {c : Char} (hc : c = '(' ∨ c = ')') :
    ∀ e : Expr, e.grouped.toList.count c = e.operators
  | number value _ => by
    apply List.count_eq_zero.2
    rcases hc with rfl | rfl <;> exact not_mem_numeral (by decide) (by decide) value.toInt
  | binary op left right span => by
    have hsymbol : op.symbol.toList.count c = 0 := by
      rcases hc with rfl | rfl <;> cases op <;> decide
    have htext := toList_grouped_binary op left right span []
    rw [List.append_nil] at htext
    calc (binary op left right span).grouped.toList.count c
      _ = left.grouped.toList.count c + right.grouped.toList.count c + [')', '('].count c := by
        rw [htext]
        rcases hc with rfl | rfl <;> simp [hsymbol]
        omega
      _ = left.operators + right.operators + 1 := by
        rw [count_grouped hc left, count_grouped hc right]
        rcases hc with rfl | rfl <;> rfl

end Expr

/-- **The counts agree with the nodes and with both printed forms.** The count of the numbers is the
number of leaves, of which there is at least one, so that nothing is cut off when one is subtracted;
the count of the operators, which is computed so, is the number of operators, and the count of the
nodes is that of all nodes. The outline has as many lines as there are nodes, and on one line as
many groups are opened, and closed, as there are operators. -/
theorem counts_agree (e : Expr) :
    (e.numberCount = e.inOrder.countP Expr.Node.isNumber ∧ 1 ≤ e.numberCount) ∧
    (e.operatorCount + 1 = e.numberCount ∧
      e.operatorCount = e.inOrder.countP Expr.Node.isOperator) ∧
    (e.nodeCount = e.inOrder.length ∧ e.nodeCount = (lines e.outline.toList).length) ∧
    e.operatorCount = e.infixText.toList.count '(' ∧
    e.operatorCount = e.infixText.toList.count ')' := by
  have hpositive := e.one_le_numberCount
  have hparentheses : ∀ {c : Char}, c = '(' ∨ c = ')' →
      e.operatorCount = e.infixText.toList.count c := by
    intro c hc
    rw [e.operatorCount_eq, e.infixText_eq, Expr.count_grouped hc]
  refine ⟨⟨?_, hpositive⟩, ⟨?_, ?_⟩, ⟨?_, ?_⟩, hparentheses (.inl rfl), hparentheses (.inr rfl)⟩
  · rw [e.numberCount_eq, e.countP_isNumber_inOrder]
  · rw [Expr.operatorCount]
    omega
  · rw [e.operatorCount_eq, e.countP_isOperator_inOrder]
  · rw [e.nodeCount_eq, e.length_inOrder]
  · rw [e.nodeCount_eq, e.length_lines_outline]

/-- A minus sign of a leaf is counted as no operator. -/
example : let span := Span.over 0 0 ""
    (Expr.binary .sub (.number 1 span) (.number (-2) span) span).operatorCount = 1 := by
  decide +kernel

end Calculator
