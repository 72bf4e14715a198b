/-
# Expressions as an outline

An outline has one line for every node, a node above its operands and the
operands two blanks further in. The nodes still to write are kept in a list, so
a long chain of operators needs no deep recursion.

Key definitions: `Expr.heading`, `Expr.writeNodes`, `Expr.outline`, `Expr.outlineFrom`.
Key theorems: `Expr.writeNodes_cons`, `Expr.writeNodes_eq`, `Expr.outline_eq`.
-/
import Calculator.Expr
import Calculator.Text.Decimal

namespace Calculator.Expr

open Text

/-- The text of the root's line. -/
def heading : Expr → String
  | number value _ => "Number(" ++ decimal value.toInt ++ ")"
  | binary op .. => "BinaryOp(" ++ op.symbol ++ ")"

/-- The blanks in front of a line of the given level. -/
def indent (level : Nat) : String := String.ofList (List.replicate (2 * level) ' ')

/-- Writes the nodes, each with its level, in order after `lines`. -/
def writeNodes (nodes : List (Expr × Nat)) (lines : String) : String :=
  match nodes with
  | [] => lines
  | (number value span, level) :: nodes =>
    writeNodes nodes (lines ++ indent level ++ heading (number value span) ++ "\n")
  | (binary op left right span, level) :: nodes =>
    writeNodes ((left, level + 1) :: (right, level + 1) :: nodes)
      (lines ++ indent level ++ heading (binary op left right span) ++ "\n")
termination_by nodes.foldr (fun node steps => node.1.size + steps) 0
decreasing_by all_goals simp [size] <;> omega

/-- The outline of an expression. -/
def outline (e : Expr) : String := writeNodes [(e, 0)] ""

/-- The outline of an expression at a level, operand by operand. -/
def outlineFrom (level : Nat) : Expr → String
  | number value span => indent level ++ heading (number value span) ++ "\n"
  | binary op left right span =>
    indent level ++ heading (binary op left right span) ++ "\n" ++
      left.outlineFrom (level + 1) ++ right.outlineFrom (level + 1)

/-- A node among those to write adds its own outline. -/
theorem writeNodes_cons : ∀ (e : Expr) (level : Nat) (nodes : List (Expr × Nat)) (lines : String),
    writeNodes ((e, level) :: nodes) lines = writeNodes nodes (lines ++ e.outlineFrom level)
  | number .., level, nodes, lines => by
    rw [writeNodes, outlineFrom]
    simp only [String.append_assoc]
  | binary op left right span, level, nodes, lines => by
    rw [writeNodes, writeNodes_cons left, writeNodes_cons right, outlineFrom]
    simp only [String.append_assoc]

/-- Whatever nodes are left to write, their outlines come in order. -/
theorem writeNodes_eq : ∀ (nodes : List (Expr × Nat)) (lines : String),
    writeNodes nodes lines = lines ++ String.join (nodes.map fun node => node.1.outlineFrom node.2)
  | [], lines => by rw [writeNodes, List.map_nil, String.join_nil, String.append_empty]
  | (e, level) :: nodes, lines => by
    rw [writeNodes_cons, writeNodes_eq nodes, List.map_cons, String.join_cons, String.append_assoc]

/-- The outline is the one written operand by operand. -/
theorem outline_eq (e : Expr) : e.outline = e.outlineFrom 0 := by
  rw [outline, writeNodes_eq, String.empty_append, List.map_singleton, String.join_cons,
    String.join_nil, String.append_empty]

end Calculator.Expr
