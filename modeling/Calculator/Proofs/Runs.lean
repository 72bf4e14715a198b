/-
# A parse as a derivation of runs

The rules of the parser call each other; here every call is one node of a
derivation, so what holds of all calls is proved by one induction, case by case
as in the rules. A goal is what a call has to take: a phrase, the rest of a
phrase after an operand, or an atom. A run says with which outcome a goal ends
from a state.

Key definitions: `Goal`, `Runs`, `Goal.Ready`, `Took`.
Key theorems: `runs_phrase`, `Runs.stops`, `Took.group`.
-/
import Calculator.Proofs.Steps

namespace Calculator

/-- What a call of a rule has to take. -/
inductive Goal
  /-- A phrase of the rule. -/
  | phrase (rule : Rule)
  /-- The rest of a phrase of the rule, after the operand `left`. -/
  | chain (rule : Rule) (left : Expr)
  /-- An atom. -/
  | operand

/-- From the state the goal ends with the outcome. -/
inductive Runs : Goal → Parser → Outcome → Prop
  /-- A phrase of the tightest rule is an atom. -/
  | atom {p : Parser} {out : Outcome} :
    Runs .operand (p.visit .atom) out → Runs (.phrase .atom) p out
  /-- A phrase fails if its first operand does. -/
  | noOperand {rule tighter : Rule} {p q : Parser} {error : Error} :
    rule.operand? = some tighter → Runs (.phrase tighter) (p.visit rule) ⟨q, .error error⟩ →
    Runs (.phrase rule) p ⟨q, .error error⟩
  /-- A phrase is an operand and what follows it. -/
  | phrase {rule tighter : Rule} {p q : Parser} {left : Expr} {out : Outcome} :
    rule.operand? = some tighter → Runs (.phrase tighter) (p.visit rule) ⟨q, .ok left⟩ →
    Runs (.chain rule left) q out → Runs (.phrase rule) p out
  /-- A chain ends before a token that is no operator of its rule. -/
  | stop {rule : Rule} {left : Expr} {p : Parser} :
    (∀ op ∈ rule.operators, p.current.isSign op = false) →
    Runs (.chain rule left) p ⟨p, .ok left⟩
  /-- A chain fails if an operand after an operator does. -/
  | noRight {rule tighter : Rule} {op : Operator} {left : Expr} {p q : Parser} {error : Error} :
    rule.operand? = some tighter → op ∈ rule.operators → p.current.isSign op = true →
    Runs (.phrase tighter) p.past ⟨q, .error error⟩ →
    Runs (.chain rule left) p ⟨q, .error error⟩
  /-- A chain takes an operator with an operand into its left operand, and goes on. -/
  | right {rule tighter : Rule} {op : Operator} {left right : Expr} {p q : Parser} {out : Outcome} :
    rule.operand? = some tighter → op ∈ rule.operators → p.current.isSign op = true →
    Runs (.phrase tighter) p.past ⟨q, .ok right⟩ →
    Runs (.chain rule (.binary op left right p.current.span)) q.withNode out →
    Runs (.chain rule left) p out
  /-- What opens no group is a leaf or nothing. -/
  | leaf {p : Parser} : p.current.isOpen = false → Runs .operand p p.leaf
  /-- A group fails if as many are open as the limit allows. -/
  | tooDeep {p : Parser} :
    p.current.isOpen = true → p.limit ≤ p.depth →
    Runs .operand p ⟨p, .error ⟨.nestedTooDeep p.limit, p.position⟩⟩
  /-- A group fails if the sum in it does. -/
  | noSum {p q : Parser} {error : Error} :
    p.current.isOpen = true → p.depth < p.limit → Runs (.phrase .sum) p.inside ⟨q, .error error⟩ →
    Runs .operand p ⟨q, .error error⟩
  /-- A group is a sum and the token that closes it. -/
  | group {p q : Parser} {e : Expr} :
    p.current.isOpen = true → p.depth < p.limit → Runs (.phrase .sum) p.inside ⟨q, .ok e⟩ →
    Runs .operand p (q.closeGroup e)

/-! ### Every call of a rule is a run -/

open Calculator.Parser

mutual

/-- A phrase is taken by a run. -/
theorem runs_phrase (rule : Rule) (p : Parser) : Runs (.phrase rule) p (p.phrase rule) := by
  cases hr : rule.operand? with
  | none =>
    cases rule <;> cases hr
    rw [phrase_atom]
    exact .atom (runs_operand (p.visit .atom))
  | some tighter =>
    have hrank := Rule.rank_of_operand? hr
    have hfirst := runs_phrase tighter (p.visit rule)
    rw [phrase_chain hr]
    cases hout : (p.visit rule).phrase tighter with
    | mk q result =>
      rw [hout] at hfirst
      cases result with
      | error error => exact .noOperand hr hfirst
      | ok left =>
        have hlt : q.remaining < p.remaining := by
          have hok : ((p.visit rule).phrase tighter).result = .ok left := by rw [hout]
          simpa only [hout, remaining_visit] using phrase_advances hok
        exact .phrase hr hfirst (runs_chain hr left q)
termination_by 4 * p.remaining + rule.rank + 1

theorem runs_chain {rule tighter : Rule} (hr : rule.operand? = some tighter) (left : Expr)
    (p : Parser) : Runs (.chain rule left) p (p.chain rule.operators tighter left) := by
  rw [chain_eq]
  cases hop : p.takeOperator? rule.operators with
  | none => exact .stop (takeOperator?_eq_none_iff.1 hop)
  | some taken =>
    obtain ⟨op, span, q⟩ := taken
    have hlt := remaining_takeOperator? hop
    obtain ⟨ho, hs, rfl, rfl⟩ := takeOperator?_eq_some hop
    have hrank : tighter.rank ≤ 2 := by cases tighter <;> decide
    have hright := runs_phrase tighter p.past
    show Runs (.chain rule left) p ((p.past.phrase tighter).andThen _)
    cases hout : p.past.phrase tighter with
    | mk q result =>
      rw [hout] at hright
      cases result with
      | error error => exact .noRight hr ho hs hright
      | ok right =>
        have hlt' : q.remaining < p.past.remaining := by
          have hok : (p.past.phrase tighter).result = .ok right := by rw [hout]
          simpa only [hout] using phrase_advances hok
        have hrest : q.withNode.remaining < p.remaining := Nat.lt_trans hlt' hlt
        exact .right hr ho hs hright (runs_chain hr _ q.withNode)
termination_by 4 * p.remaining

theorem runs_operand (p : Parser) : Runs .operand p p.operand := by
  rw [operand_eq]
  by_cases ho : p.current.isOpen = true
  · rw [if_pos ho]
    by_cases hfull : p.limit ≤ p.depth
    · rw [openGroup_eq ho, if_pos hfull]
      exact .tooDeep ho hfull
    · have hlt : p.inside.remaining < p.remaining := by
        refine remaining_openGroup ?_
        rw [openGroup_eq ho, if_neg hfull]
      have hless : 4 * p.inside.remaining + Rule.sum.rank + 1 < 4 * p.remaining := by
        simp only [Rule.rank]
        omega
      rw [openGroup_eq ho, if_neg hfull]
      have hsum := runs_phrase .sum p.inside
      show Runs .operand p ((p.inside.phrase .sum).andThen _)
      cases hout : p.inside.phrase .sum with
      | mk q result =>
        rw [hout] at hsum
        cases result with
        | error error => exact .noSum ho (Nat.lt_of_not_le hfull) hsum
        | ok e => exact .group ho (Nat.lt_of_not_le hfull) hsum
  · rw [if_neg ho]
    exact .leaf (Bool.eq_false_iff.2 ho)
termination_by 4 * p.remaining

end

/-! ### Where a run may stop -/

namespace Goal

/-- The rule whose phrase the goal takes or ends. -/
def rule : Goal → Rule
  | phrase rule => rule
  | chain rule _ => rule
  | operand => .atom

/-- The token may stand where the goal starts: what follows an operand is no operator that the
operand would have gone on with. -/
def Ready (token : Token) : Goal → Prop
  | chain rule _ => ∀ tighter, rule.operand? = some tighter → tighter.Stops token
  | _ => True

end Goal

/-- A run that ends with an expression stops before a token that its rule does not go on with. -/
theorem Runs.stops {g : Goal} {p : Parser} {out : Outcome} (h : Runs g p out) :
    g.Ready p.current → ∀ e, out.result = .ok e → g.rule.Stops out.parser.current := by
  induction h with
  | atom => exact fun _ _ _ => Rule.stops_atom _
  | noOperand => intro _ e he; cases he
  | @phrase rule tighter p q left out hr _ _ ihfirst ihrest =>
    intro _
    refine ihrest fun other hother => ?_
    rw [hr] at hother
    cases hother
    exact ihfirst trivial left rfl
  | @stop rule left p hno =>
    intro hready _ _ op hop
    cases hr : rule.operand? with
    | none => cases rule <;> cases hr; cases hop
    | some tighter =>
      rcases (Rule.mem_signs_iff hr op).1 hop with hop | hop
      · exact hno op hop
      · exact hready tighter hr op hop
  | noRight => intro _ e he; cases he
  | @right rule tighter op left e p q out hr _ _ _ _ ihright ihrest =>
    intro _
    refine ihrest fun other hother => ?_
    rw [hr] at hother
    cases hother
    exact ihright trivial e rfl
  | leaf => exact fun _ _ _ => Rule.stops_atom _
  | tooDeep => intro _ e he; cases he
  | noSum => intro _ e he; cases he
  | group => exact fun _ _ _ => Rule.stops_atom _

/-! ### What has been passed -/

/-- The parser `q` is the parser `p` after the tokens `taken`, with the same groups open. -/
structure Took (p : Parser) (taken : List Token) (q : Parser) : Prop where
  ahead : p.cursor.ahead = taken ++ q.cursor.ahead
  index : q.cursor.index = p.cursor.index + taken.length
  last : q.cursor.last = p.cursor.last
  limit : q.limit = p.limit
  depth : q.depth = p.depth
  file : q.file = p.file

namespace Took

variable {p q r : Parser} {a b : List Token}

theorem refl (p : Parser) : Took p [] p := ⟨rfl, rfl, rfl, rfl, rfl, rfl⟩

theorem trans (h : Took p a q) (h' : Took q b r) : Took p (a ++ b) r where
  ahead := by rw [h.ahead, h'.ahead, List.append_assoc]
  index := by rw [h'.index, h.index, List.length_append, Nat.add_assoc]
  last := h'.last.trans h.last
  limit := h'.limit.trans h.limit
  depth := h'.depth.trans h.depth
  file := h'.file.trans h.file

theorem past (h : p.current.isEnd = false) : Took p [p.current] p.past :=
  ⟨ahead_eq_cons h, rfl, rfl, rfl, rfl, rfl⟩

theorem of_visit {rule : Rule} (h : Took (p.visit rule) a q) : Took p a q :=
  ⟨h.ahead, h.index, h.last, h.limit, h.depth, h.file⟩

theorem withNode (h : Took p a q) : Took p a q.withNode :=
  ⟨h.ahead, h.index, h.last, h.limit, h.depth, h.file⟩

/-- What is taken in a group, with the parentheses around it. -/
theorem group (ho : p.current.isOpen = true) (h : Took p.inside a q)
    (hc : q.current.isClose = true) :
    Took p (p.current :: (a ++ [q.current])) q.past.exitGroup where
  ahead := by
    have hend := Token.isEnd_eq_false_of_isPunct (Token.isPunct_of_isMark hc)
    have hfirst := ahead_eq_cons (Token.isEnd_eq_false_of_isPunct (Token.isPunct_of_isMark ho))
    have hsum : p.past.cursor.ahead = a ++ q.cursor.ahead := h.ahead
    rw [hfirst, hsum, ahead_eq_cons hend]
    simp [exitGroup]
  index := by
    have hindex : q.cursor.index = p.cursor.index + 1 + a.length := h.index
    show q.cursor.index + 1 = _
    rw [hindex]
    simp only [List.length_cons, List.length_append, List.length_nil]
    omega
  last := h.last
  limit := h.limit
  depth := by
    have hdepth : q.depth = p.depth + 1 := h.depth
    show q.depth - 1 = p.depth
    omega
  file := h.file

end Took

end Calculator
