/-
# An expression and the tokens it was taken from

Read from left to right, with every operator between its operands, the nodes of an
expression are the tokens that a rule has taken it from, without the parentheses
(`Derives.forall₂_inOrder`): none is lost, none comes twice, and their order is kept.
The parser has counted each node once (`Runs.built_eq`).

Key definitions: `Expr.Node`, `Expr.inOrder`, `Token.Makes`, `Token.isParenthesis`,
`Parser.KeepsTokens`.
Key theorems: `Derives.forall₂_inOrder`, `Runs.built_eq`,
`phrase_keeps_tokens`.
-/
import Calculator.Expr.Count
import Calculator.Proofs.Depth
import Mathlib.Data.List.Forall2

namespace Calculator

open Calculator.Parser

/-! ### The nodes in order -/

namespace Expr

/-- A node without its operands: an integer or an operator, with the span of its token. -/
inductive Node
  | number (value : Int64) (span : Span)
  | operator (op : Operator) (span : Span)
deriving DecidableEq

/-- The nodes from left to right, an operator between its operands. -/
def inOrder : Expr → List Node
  | number value span => [.number value span]
  | binary op left right span => left.inOrder ++ .operator op span :: right.inOrder

theorem length_inOrder : ∀ e : Expr, e.inOrder.length = e.size
  | number .. => rfl
  | binary _ left right _ => by
    rw [inOrder, List.length_append, List.length_cons, length_inOrder left, length_inOrder right]
    rfl

end Expr

namespace Token

/-- The token is that of the node: it has the span, and the value of the integer or the text of the
operator. -/
def Makes (token : Token) : Expr.Node → Prop
  | .number value span => token.isInteger = true ∧ token.number = some value ∧ token.span = span
  | .operator op span => token.isSign op = true ∧ token.span = span

/-- Whether the token opens or closes a group. -/
def isParenthesis (token : Token) : Bool := token.isOpen || token.isClose

theorem isParenthesis_of_isOpen {token : Token} (h : token.isOpen = true) :
    token.isParenthesis = true := by
  simp [isParenthesis, h]

theorem isParenthesis_of_isClose {token : Token} (h : token.isClose = true) :
    token.isParenthesis = true := by
  simp [isParenthesis, h]

theorem isParenthesis_of_isInteger {token : Token} (h : token.isInteger = true) :
    token.isParenthesis = false := by
  simp [isParenthesis, isOpen, isClose, isMark_eq_false_of_isInteger h]

theorem isParenthesis_of_isSign {token : Token} {op : Operator} (h : token.isSign op = true) :
    token.isParenthesis = false := by
  rw [Bool.eq_false_iff]
  intro hparenthesis
  rcases Bool.or_eq_true_iff.1 hparenthesis with ho | hc
  · simp [isSign_eq_false_of_isMark (.inl rfl) ho] at h
  · simp [isSign_eq_false_of_isMark (.inr rfl) hc] at h

theorem length_eq_countP (tokens : List Token) :
    tokens.length = (tokens.filter (!·.isParenthesis)).length + tokens.countP isOpen +
      tokens.countP isClose := by
  induction tokens with
  | nil => rfl
  | cons token tokens ih =>
    rw [List.length_cons, ih, List.countP_cons, List.countP_cons, List.filter_cons]
    by_cases ho : token.isOpen = true
    · simp [isParenthesis, ho, isClose_eq_false_of_isOpen ho]
      omega
    by_cases hc : token.isClose = true
    · simp [isParenthesis, ho, hc]
      omega
    · simp [isParenthesis, ho, hc]
      omega

end Token

/-! ### The tokens of a phrase -/

namespace Derives

variable {rule : Rule} {limit : Nat} {tokens : List Token} {e : Expr}

/-- **The tokens of a phrase without the parentheses make the nodes of its expression, in order.** -/
theorem forall₂_inOrder (h : Derives rule limit tokens e) :
    List.Forall₂ Token.Makes (tokens.filter (!·.isParenthesis)) e.inOrder := by
  induction h with
  | number hint hnum =>
    rw [List.filter_singleton, Token.isParenthesis_of_isInteger hint]
    exact .cons ⟨hint, hnum, rfl⟩ .nil
  | group ho hc _ ih =>
    simpa [Token.isParenthesis_of_isOpen ho, Token.isParenthesis_of_isClose hc] using ih
  | single _ _ ih => exact ih
  | binary _ _ hs _ _ ihl ihr =>
    rw [List.filter_append, List.filter_cons, Token.isParenthesis_of_isSign hs]
    exact List.rel_append ihl (.cons ⟨hs, rfl⟩ ihr)

end Derives

/-! ### The nodes that a run builds -/

/-- How many nodes the expression has that the goal goes on with. -/
def Goal.given : Goal → Nat
  | chain _ left => left.size
  | _ => 0

theorem leaf_built_eq {p : Parser} {e : Expr} (h : p.leaf.result = .ok e) :
    p.leaf.parser.built = p.built + e.size := by
  obtain ⟨value, -, -, rfl, hleaf⟩ := exists_of_leaf_eq_ok h
  rw [hleaf]
  rfl

/-- **A run that ends with an expression has built its nodes**, and no others. -/
theorem Runs.built_eq {g : Goal} {p : Parser} {out : Outcome} (h : Runs g p out) :
    ∀ e, out.result = .ok e → out.parser.built + g.given = p.built + e.size := by
  induction h with
  | atom _ ih => exact ih
  | noOperand => intro _ he; cases he
  | @phrase rule tighter p q left out _ _ _ ihfirst ihrest =>
    intro e he
    have hfirst : q.built + 0 = p.built + left.size := ihfirst left rfl
    have hrest : out.parser.built + left.size = q.built + e.size := ihrest e he
    show out.parser.built + 0 = p.built + e.size
    omega
  | @stop rule left p =>
    intro e he
    cases he
    rfl
  | noRight => intro _ he; cases he
  | @right rule tighter op left right p q out _ _ _ _ _ ihright ihrest =>
    intro e he
    have hright : q.built + 0 = p.built + right.size := ihright right rfl
    have hrest : out.parser.built + (left.size + right.size + 1) = q.built + 1 + e.size :=
      ihrest e he
    show out.parser.built + left.size = p.built + e.size
    omega
  | leaf => exact fun e he => leaf_built_eq he
  | tooDeep => intro _ he; cases he
  | noSum => intro _ he; cases he
  | @group p q e _ _ _ ih =>
    intro _ he
    rw [closeGroup_eq] at he ⊢
    split at he
    · next hc =>
      rw [if_pos hc]
      cases he
      exact ih e rfl
    · cases he

/-! ### Tokens, nodes and the counter -/

/-- A call of the rule in this state takes each token once: an expression has the nodes that the
consumed tokens make, and the parser counts them. -/
structure Parser.KeepsTokens (tokens : List Token) (p : Parser) (rule : Rule) : Prop where
  /-- The tokens from the index before the call up to the one after it are consumed. -/
  index_eq : (p.phrase rule).parser.cursor.index =
    p.cursor.index + (p.consumed tokens rule).length
  /-- The consumed tokens without the parentheses are the nodes of the expression, in order. -/
  inOrder : ∀ e, (p.phrase rule).result = .ok e →
    List.Forall₂ Token.Makes ((p.consumed tokens rule).filter (!·.isParenthesis)) e.inOrder
  /-- The nodes are counted, once each. -/
  built_eq : ∀ e, (p.phrase rule).result = .ok e →
    (p.phrase rule).parser.built = p.built + e.nodeCount
  /-- A consumed token makes a node, or is one of the two parentheses of a group. -/
  length_eq : ∀ e, (p.phrase rule).result = .ok e → ∃ groups,
    (p.consumed tokens rule).countP Token.isOpen = groups ∧
    (p.consumed tokens rule).countP Token.isClose = groups ∧
    (p.consumed tokens rule).length = e.nodeCount + 2 * groups
  /-- A call that fails has counted no more nodes than it has consumed tokens, and uncounted none. -/
  built_of_error : ∀ error, (p.phrase rule).result = .error error →
    p.built ≤ (p.phrase rule).parser.built ∧
    (p.phrase rule).parser.built ≤ p.built + (p.consumed tokens rule).length

theorem built_phrase_eq {rule : Rule} {p : Parser} {e : Expr} (he : (p.phrase rule).result = .ok e) :
    (p.phrase rule).parser.built = p.built + e.nodeCount := by
  rw [e.nodeCount_eq]
  exact (runs_phrase rule p).built_eq e he

/-- **Between the tokens, the expression and the counter nothing is lost, doubled or moved.** In every
state that any operations in any order lead to, or that a rule comes through on its way, a rule that
succeeds has made the expression whose nodes, read from left to right, are the consumed tokens without
the parentheses, each with its value or operator and its span. The counter has grown by as many nodes
as the expression has, and two parentheses a group make up for the rest of the tokens. A rule that
fails has counted at most one node for each token it has consumed. So after a parse the counter is the
number of the nodes of its expression. -/
theorem phrase_keeps_tokens (tokens : List Token) (file : String) (limit : Nat) :
    (∀ p : Parser, p.ReachedIn tokens file limit → ∀ rule,
      p.KeepsTokens (Token.terminated tokens file) rule) ∧
    ∀ root, (parse tokens file limit).result = .ok root →
      (parse tokens file limit).parser.built = root.nodeCount := by
  refine ⟨fun p h rule => ?_, fun root hroot => ?_⟩
  · have haccounts := h.accounts rule
    refine ⟨haccounts.index, fun e he => (h.derives he).forall₂_inOrder,
      fun e he => built_phrase_eq he, fun e he => ?_,
      fun error _ => ⟨haccounts.built_le, haccounts.built_le_add⟩⟩
    have hnodes := (h.derives he).forall₂_inOrder.length_eq
    have hgroups := (haccounts.balancesGroups.of_ok e he).1
    have hlength := Token.length_eq_countP (p.consumed (Token.terminated tokens file) rule)
    rw [e.length_inOrder, ← e.nodeCount_eq] at hnodes
    exact ⟨_, rfl, hgroups, by omega⟩
  · obtain ⟨q, hphrase, -⟩ := whole_eq_ok_iff.1 hroot
    have hok : ((start tokens file limit).phrase .sum).result = .ok root := by rw [hphrase]
    rw [parse_ends_with_sum, built_phrase_eq hok]
    exact Nat.zero_add _

/-- An integer whose text is the sign of an operator. -/
def plusSeven : Token := ⟨.integer, "+", Span.over 0 1 "shell", some 7⟩

/-- The integer in parentheses, and twice after them. -/
def plusSevens : List Token :=
  [lexemeToken "shell" 0 ['('], plusSeven, lexemeToken "shell" 1 [')'], plusSeven, plusSeven]

/-- One token is the left operand, the operator and the right operand. -/
theorem phrase_keeps_tokens_of_one_token :
    (start plusSevens "shell" 1).ReachedIn plusSevens "shell" 1 ∧
    ∃ e, (parse plusSevens "shell" 1).result = .ok e ∧
      e.inOrder = [.number 7 plusSeven.span, .operator .add plusSeven.span,
        .number 7 plusSeven.span] ∧
      List.Forall₂ Token.Makes [plusSeven, plusSeven, plusSeven] e.inOrder ∧
      (parse plusSevens "shell" 1).parser.built = e.nodeCount := by
  have hreached : (start plusSevens "shell" 1).ReachedIn plusSevens "shell" 1 :=
    reachedIn_after plusSevens "shell" 1 []
  obtain ⟨hkeeps, hparse⟩ := phrase_keeps_tokens plusSevens "shell" 1
  have hresult : (parse plusSevens "shell" 1).result = .ok (.binary .add
      (.number 7 plusSeven.span) (.number 7 plusSeven.span) plusSeven.span) := by
    decide +kernel
  obtain ⟨q, hphrase, -⟩ := whole_eq_ok_iff.1 hresult
  have hnodes := (hkeeps _ hreached .sum).inOrder _ (congrArg Outcome.result hphrase)
  have hconsumed : ((start plusSevens "shell" 1).consumed
      (Token.terminated plusSevens "shell") .sum).filter (!·.isParenthesis) =
        [plusSeven, plusSeven, plusSeven] := by
    decide +kernel
  rw [hconsumed] at hnodes
  exact ⟨hreached, _, hresult, rfl, hnodes, hparse _ hresult⟩

end Calculator
