/-
# Expressions on one line

An expression is written in the usual way, with parentheses around every
operator and its operands. The pieces still to write are kept in a list, so a
long chain of operators needs no deep recursion.

Key definitions: `Expr.writePieces`, `Expr.infixText`, `Expr.grouped`, `Expr.Piece.text`.
Key theorems: `Expr.writePieces_operand`, `Expr.writePieces_eq`, `Expr.infixText_eq`.
-/
import Calculator.Expr
import Calculator.Text.Decimal

namespace Calculator.Expr

open Text

/-- A piece of the line. -/
inductive Piece
  /-- An expression. -/
  | operand (e : Expr)
  /-- An operator between its operands. -/
  | sign (op : Operator)
  /-- The end of a group. -/
  | close

/-- The steps a piece takes to write. -/
def Piece.steps : Piece → Nat
  | operand e => 4 * e.size
  | sign _ => 1
  | close => 1

/-- Writes the pieces in order after `line`. -/
def writePieces (pieces : List Piece) (line : String) : String :=
  match pieces with
  | [] => line
  | .operand (number value _) :: pieces => writePieces pieces (line ++ decimal value.toInt)
  | .operand (binary op left right _) :: pieces =>
    writePieces (.operand left :: .sign op :: .operand right :: .close :: pieces) (line ++ "(")
  | .sign op :: pieces => writePieces pieces (line ++ (" " ++ op.symbol ++ " "))
  | .close :: pieces => writePieces pieces (line ++ ")")
termination_by pieces.foldr (fun piece steps => piece.steps + steps) 0
decreasing_by all_goals simp [Piece.steps, size] <;> omega

/-- The expression on one line. -/
def infixText (e : Expr) : String := writePieces [.operand e] ""

/-- The expression on one line, operand by operand. -/
def grouped : Expr → String
  | number value _ => decimal value.toInt
  | binary op left right _ => "(" ++ left.grouped ++ " " ++ op.symbol ++ " " ++ right.grouped ++ ")"

theorem toList_grouped_binary (op : Operator) (left right : Expr) (span : Span) (rest : List Char) :
    (binary op left right span).grouped.toList ++ rest =
      '(' :: (left.grouped.toList ++ (' ' :: (op.symbol.toList ++
        (' ' :: (right.grouped.toList ++ (')' :: rest)))))) := by
  simp [grouped]

/-- An expression among the pieces adds its own line. -/
theorem writePieces_operand : ∀ (e : Expr) (pieces : List Piece) (line : String),
    writePieces (.operand e :: pieces) line = writePieces pieces (line ++ e.grouped)
  | number .., pieces, line => by rw [writePieces, grouped]
  | binary op left right span, pieces, line => by
    rw [writePieces, writePieces_operand left, writePieces, writePieces_operand right, writePieces,
      grouped]
    simp only [String.append_assoc]

/-- The text of a piece by itself. -/
def Piece.text : Piece → String
  | operand e => e.grouped
  | sign op => " " ++ op.symbol ++ " "
  | close => ")"

/-- Whatever pieces are left to write, their texts come in order. -/
theorem writePieces_eq : ∀ (pieces : List Piece) (line : String),
    writePieces pieces line = line ++ String.join (pieces.map Piece.text)
  | [], line => by rw [writePieces, List.map_nil, String.join_nil, String.append_empty]
  | piece :: pieces, line => by
    have hpiece : writePieces (piece :: pieces) line = writePieces pieces (line ++ piece.text) := by
      cases piece with
      | operand e => exact writePieces_operand e pieces line
      | sign op => rw [writePieces, Piece.text]
      | close => rw [writePieces, Piece.text]
    rw [hpiece, writePieces_eq pieces, List.map_cons, String.join_cons, String.append_assoc]

/-- The line is the one written operand by operand. -/
theorem infixText_eq (e : Expr) : e.infixText = e.grouped := by
  rw [infixText, writePieces_eq, String.empty_append, List.map_singleton, String.join_cons,
    String.join_nil, String.append_empty, Piece.text]

end Calculator.Expr
