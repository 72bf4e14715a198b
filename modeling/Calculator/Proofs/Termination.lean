/-
# The rules come to an end

A rule calls a tighter rule at the token it stands on, and any rule only after it has
moved past a token. So along the calls within calls the number of the tokens left and the
rank of the rule go down together, in this order (`Calls.decreases`), and no chain of
calls is endless. A call of a rule is followed here through its own work, which is its
first operand, its loop, or its atom (`Works`), up to the rules it calls from there
(`CallsRule`). A turn of the loop leaves the rule, or has moved past an operator and an
operand when the next one starts (`LoopTurn`). All this holds in every state a parser can be
in, whatever its tokens and its limit, with groups open or not.

Key definitions: `Goal.level`, `Works`, `CallsRule`, `LoopTurn`, `Parser.ComesToEnd`.
Key theorems: `Calls.decreases`, `acc_calls`, `Works.cases`, `CallsRule.descends`, `loopTurn`,
`rule_comes_to_end`.
-/
import Calculator.Proofs.Reach

namespace Calculator

open Calculator.Parser

/-! ### Tokens that have been passed -/

theorem Parser.index_lt_of_phrase {rule : Rule} {p q : Parser} {e : Expr}
    (h : p.phrase rule = ⟨q, .ok e⟩) : p.cursor.index < q.cursor.index := by
  have hruns := runs_phrase rule p
  rw [h] at hruns
  obtain ⟨taken, htook, hderives⟩ := hruns.sound e rfl
  have hindex : q.cursor.index = p.cursor.index + taken.length := htook.index
  have hpos : 0 < taken.length := List.length_pos_iff.2 hderives.ne_nil
  omega

theorem Parser.remaining_lt_of_phrase {rule : Rule} {p q : Parser} {e : Expr}
    (h : p.phrase rule = ⟨q, .ok e⟩) : q.remaining < p.remaining := by
  have hok : (p.phrase rule).result = .ok e := by rw [h]
  have hlt := phrase_advances hok
  rwa [h] at hlt

/-! ### No endless chain of calls -/

namespace Goal

/-- How many goals can be taken up after the goal at the same token. -/
def level : Goal → Nat
  | phrase rule => rule.rank + 1
  | chain _ _ => 0
  | operand => 0

/-- The tokens left to the goal, and its level. -/
def left (a : Goal × Parser) : Nat × Nat := (a.2.remaining, a.1.level)

end Goal

/-- **A call leaves fewer tokens, or as many to a goal of a lower level.** -/
theorem Calls.decreases {a b : Goal × Parser} (h : Calls a b) :
    Prod.Lex (· < ·) (· < ·) (Goal.left b) (Goal.left a) := by
  cases h with
  | atom p => exact .right _ Nat.one_pos
  | first p hr =>
    apply Prod.Lex.right
    have hrank := Rule.rank_of_operand? hr
    simp only [Goal.level]
    omega
  | @rest rule _ p _ _ _ hfirst =>
    apply Prod.Lex.left
    have hlt := remaining_lt_of_phrase hfirst
    rwa [remaining_visit] at hlt
  | right _ htake => exact .left _ _ (remaining_takeOperator? htake)
  | more _ htake hright =>
    apply Prod.Lex.left
    calc _ < _ := remaining_lt_of_phrase hright
      _ < _ := remaining_takeOperator? htake
  | inside _ hopen => exact .left _ _ (remaining_openGroup hopen)

/-- No chain of calls within calls is endless. -/
theorem acc_calls (a : Goal × Parser) : Acc (fun b a => Calls a b) a := by
  have hwf : WellFounded (Prod.Lex (· < ·) (· < ·) : Nat × Nat → Nat × Nat → Prop) :=
    (Prod.lex Nat.lt_wfRel Nat.lt_wfRel).wf
  apply Subrelation.accessible (fun hcall => Calls.decreases hcall)
  exact (InvImage.wf Goal.left hwf).apply a

/-! ### The work of a rule and the rules it calls -/

/-- Whether the goal is a rule, and not a part of one. -/
def Goal.isRule : Goal → Bool
  | phrase _ => true
  | _ => false

/-- While the rule works from the state, it comes to the goal by itself, without calling a rule for
it. -/
inductive Works (rule : Rule) (p : Parser) : Goal × Parser → Prop
  | start : Works rule p (.phrase rule, p)
  | goOn {a b : Goal × Parser} : Works rule p a → Calls a b → b.1.isRule = false → Works rule p b

/-- While the rule works from the state `p`, it calls the other rule in the state `q`. -/
def CallsRule (rule : Rule) (p : Parser) (other : Rule) (q : Parser) : Prop :=
  ∃ a, Works rule p a ∧ Calls a (.phrase other, q)

/-- A rule is at its start, at its atom, or in its loop, before which it has moved past a token. -/
theorem Works.cases {rule : Rule} {p : Parser} {a : Goal × Parser} (h : Works rule p a) :
    a = (.phrase rule, p) ∨ (rule = .atom ∧ a = (.operand, p.visit .atom)) ∨
      ∃ left q, a = (.chain rule left, q) ∧ p.cursor.index < q.cursor.index := by
  induction h with
  | start => exact .inl rfl
  | goOn _ hcall hown ih =>
    rcases ih with rfl | ⟨-, rfl⟩ | ⟨left, q, rfl, hlt⟩
    · cases hcall with
      | atom => exact .inr (.inl ⟨rfl, rfl⟩)
      | first => cases hown
      | rest _ hfirst =>
        have hindex := index_lt_of_phrase hfirst
        exact .inr (.inr ⟨_, _, rfl, hindex⟩)
    · cases hcall with
      | inside => cases hown
    · cases hcall with
      | right => cases hown
      | more _ htake hright =>
        obtain ⟨-, -, -, rfl⟩ := takeOperator?_eq_some htake
        refine .inr (.inr ⟨_, _, rfl, ?_⟩)
        calc p.cursor.index
          _ < q.cursor.index := hlt
          _ < q.past.cursor.index := Nat.lt_succ_self _
          _ < _ := index_lt_of_phrase hright

/-- **A rule calls a tighter rule at the same token, or any rule after it has moved past one.** -/
theorem CallsRule.descends {rule other : Rule} {p q : Parser} (h : CallsRule rule p other q) :
    (q.cursor.index = p.cursor.index ∧ other.rank < rule.rank) ∨
      p.cursor.index < q.cursor.index := by
  obtain ⟨a, hworks, hcall⟩ := h
  rcases hworks.cases with rfl | ⟨rfl, rfl⟩ | ⟨left, r, rfl, hlt⟩
  · cases hcall with
    | first _ hr =>
      left
      have hrank := Rule.rank_of_operand? hr
      exact ⟨rfl, by omega⟩
  · cases hcall with
    | inside ho hopen =>
      right
      rw [openGroup_eq ho] at hopen
      split at hopen
      · cases hopen
      · cases hopen
        exact Nat.lt_succ_self p.cursor.index
  · cases hcall with
    | right _ htake =>
      right
      obtain ⟨-, -, -, rfl⟩ := takeOperator?_eq_some htake
      exact Nat.lt_succ_of_lt hlt

/-! ### The turns of a loop -/

/-- A turn of the loop of a rule, which has `left` so far and ends with the outcome. -/
inductive LoopTurn (rule tighter : Rule) (left : Expr) (p : Parser) (out : Outcome) : Prop
  /-- No operator of the rule is there, and the rule ends. -/
  | stops : (∀ op ∈ rule.operators, p.current.isSign op = false) → out = ⟨p, .ok left⟩ →
    LoopTurn rule tighter left p out
  /-- The operand after an operator fails, and the rule with it. -/
  | fails {op : Operator} {q : Parser} {error : Error} : op ∈ rule.operators →
    p.current.isSign op = true → p.past.phrase tighter = ⟨q, .error error⟩ →
    out = ⟨q, .error error⟩ → LoopTurn rule tighter left p out
  /-- An operator and an operand, at least a token each, have been passed, and the loop goes on. -/
  | goesOn {op : Operator} {right : Expr} {q : Parser} : op ∈ rule.operators →
    p.current.isSign op = true → p.past.phrase tighter = ⟨q, .ok right⟩ →
    p.cursor.index + 2 ≤ q.withNode.cursor.index →
    out = q.withNode.chain rule.operators tighter (.binary op left right p.current.span) →
    LoopTurn rule tighter left p out

/-- **A turn of a loop leaves the rule or moves past two tokens.** -/
theorem loopTurn (rule tighter : Rule) (left : Expr) (p : Parser) :
    LoopTurn rule tighter left p (p.chain rule.operators tighter left) := by
  rw [chain_eq]
  cases htake : p.takeOperator? rule.operators with
  | none => exact .stops (takeOperator?_eq_none_iff.1 htake) rfl
  | some taken =>
    obtain ⟨op, span, next⟩ := taken
    obtain ⟨ho, hs, rfl, rfl⟩ := takeOperator?_eq_some htake
    simp only []
    cases hright : p.past.phrase tighter with
    | mk q result =>
      cases result with
      | error error => exact .fails ho hs hright rfl
      | ok right =>
        refine .goesOn ho hs hright ?_ rfl
        have hlt : p.cursor.index + 1 < q.cursor.index := index_lt_of_phrase hright
        exact hlt

/-! ### The end of a rule -/

/-- What the rule does from the state comes to an end. -/
structure Parser.ComesToEnd (p : Parser) (rule : Rule) : Prop where
  /-- The rule ends, by finitely many steps and calls, and in one way only. -/
  runs : ∀ out, Runs (.phrase rule) p out ↔ out = p.phrase rule
  /-- There is no endless chain of calls. -/
  acc : Acc (fun b a => Calls a b) (.phrase rule, p)
  /-- A rule that it calls is tighter and starts at the same token, or starts after more tokens. -/
  descends : ∀ other q, CallsRule rule p other q →
    (q.cursor.index = p.cursor.index ∧ other.rank < rule.rank) ∨ p.cursor.index < q.cursor.index
  /-- If it succeeds, it has moved past a token. -/
  advances : ∀ e, (p.phrase rule).result = .ok e →
    p.cursor.index < (p.phrase rule).parser.cursor.index
  /-- Each turn of its loop leaves it or moves past two tokens. -/
  turns : ∀ tighter left q, rule.operand? = some tighter → Works rule p (.chain rule left, q) →
    LoopTurn rule tighter left q ((Goal.chain rule left).outcome q)

/-- **Every rule comes to an end in every state**, whatever the tokens are and whatever the limit.
It ends by finitely many steps. Each rule it calls is tighter and starts at the same token, or
starts after at least one token more. If it succeeds, it has moved past at least one. A turn of its
loop leaves the rule, or moves past an operator and an operand, which are at least two tokens,
before the next turn. -/
theorem rule_comes_to_end (p : Parser) (rule : Rule) : p.ComesToEnd rule where
  runs out := by
    constructor
    · intro h
      exact h.outcome_eq.symm
    · rintro rfl
      exact runs_phrase rule p
  acc := acc_calls (.phrase rule, p)
  descends other q h := h.descends
  advances e he := by
    have hphrase : p.phrase rule = ⟨(p.phrase rule).parser, .ok e⟩ := by rw [← he]
    exact index_lt_of_phrase hphrase
  turns tighter left q hr _ := by
    rw [Goal.outcome_chain hr]
    exact loopTurn rule tighter left q

end Calculator
