/-
# Two parses side by side

Two parsers whose tokens differ in their spans alone take the same steps: no rule
looks at a span, which only goes from a token into the node that is built for it.
They may also have different limits, as long as none of the groups that the first
one comes to is open to one of them and closed to the other. So the relation
between their states is kept along all runs (`Runs.beside`), and the two end
alike: with expressions of the same shape, whose nodes have the spans of tokens
that are related, or with the same fault.

What relates two tokens is left open here, apart from their being alike. If it is
equality, the two parses differ in the limit alone; if it is to stand at the same
index of two lists, the lists differ in their spans.

Key definitions: `Token.Alike`, `Expr.Paired`, `Parser.Beside`, `Outcome.Beside`, `SameRoom`.
Key theorems: `Runs.beside`, `parse_beside`.
-/
import Calculator.Proofs.Calls
import Mathlib.Data.List.Forall2

namespace Calculator

open Calculator.Parser

/-! ### Tokens that are alike -/

namespace Token

/-- The tokens are the same but for their spans. -/
structure Alike (a b : Token) : Prop where
  kind : a.kind = b.kind
  text : a.text = b.text
  number : a.number = b.number

theorem Alike.refl (a : Token) : a.Alike a := ⟨rfl, rfl, rfl⟩

namespace Alike

variable {a b : Token}

theorem isEnd (h : a.Alike b) : b.isEnd = a.isEnd := by simp only [Token.isEnd, h.kind]

theorem isInteger (h : a.Alike b) : b.isInteger = a.isInteger := by
  simp only [Token.isInteger, h.kind]

theorem isMark (h : a.Alike b) (c : Char) : b.isMark c = a.isMark c := by
  simp only [Token.isMark, Token.isPunct, h.kind, h.text]

theorem isOpen (h : a.Alike b) : b.isOpen = a.isOpen := h.isMark '('

theorem isClose (h : a.Alike b) : b.isClose = a.isClose := h.isMark ')'

theorem isSign (h : a.Alike b) (op : Operator) : b.isSign op = a.isSign op := by
  simp only [Token.isSign, h.isEnd, h.text]

end Alike

end Token

variable {T : Token → Token → Prop}

/-! ### What is related -/

/-- The expressions have the same shape, and at each node the spans of two tokens that are
related: at an operator, of two signs of it. -/
inductive Expr.Paired (T : Token → Token → Prop) : Expr → Expr → Prop
  | number {value : Int64} {a b : Token} :
    T a b → Paired T (.number value a.span) (.number value b.span)
  | binary {op : Operator} {left right left' right' : Expr} {a b : Token} :
    T a b → a.isSign op = true → Paired T left left' → Paired T right right' →
    Paired T (.binary op left right a.span) (.binary op left' right' b.span)

/-- The results are expressions that are paired, or errors with the same fault. -/
inductive ResultPaired (T : Token → Token → Prop) : Except Error Expr → Except Error Expr → Prop
  | ok {e e' : Expr} : e.Paired T e' → ResultPaired T (.ok e) (.ok e')
  | error {fault : Fault} {position position' : Position} :
    ResultPaired T (.error ⟨fault, position⟩) (.error ⟨fault, position'⟩)

/-- The goals are the same but for the spans in what has been built. -/
inductive Goal.Paired (T : Token → Token → Prop) : Goal → Goal → Prop
  | phrase (rule : Rule) : Paired T (.phrase rule) (.phrase rule)
  | chain {left left' : Expr} (rule : Rule) :
    left.Paired T left' → Paired T (.chain rule left) (.chain rule left')
  | operand : Paired T .operand .operand

/-- The second parser, which has the limit, is where the first one is, on tokens that are related to
those of the first. -/
structure Parser.Beside (T : Token → Token → Prop) (limit : Nat) (p q : Parser) : Prop where
  index : p.cursor.index = q.cursor.index
  ahead : List.Forall₂ T p.cursor.ahead q.cursor.ahead
  last : T p.cursor.last q.cursor.last
  depth : p.depth = q.depth
  built : p.built = q.built
  limit : q.limit = limit

/-- The outcomes leave their parsers beside each other, and their results are paired. -/
structure Outcome.Beside (T : Token → Token → Prop) (limit : Nat) (a b : Outcome) : Prop where
  parser : a.parser.Beside T limit b.parser
  result : ResultPaired T a.result b.result

/-- Wherever a group starts while the goal is taken, either limit leaves room for it, or the two are
the same. -/
def SameRoom (limit : Nat) (a : Goal × Parser) : Prop :=
  ∀ p : Parser, Relation.ReflTransGen Calls a (.operand, p) → p.current.isOpen = true →
    p.limit = limit ∨ (p.depth < p.limit ∧ p.depth < limit)

theorem SameRoom.call {limit : Nat} {a b : Goal × Parser} (h : SameRoom limit a) (hcall : Calls a b) :
    SameRoom limit b :=
  fun p hcalls => h p (.head hcall hcalls)

/-! ### The steps, side by side -/

namespace Parser.Beside

variable {limit : Nat} {p q : Parser}

theorem current (h : p.Beside T limit q) : T p.current q.current := by
  have hahead := h.ahead
  unfold Parser.current Cursor.current
  cases hp : p.cursor.ahead with
  | nil =>
    rw [hp] at hahead
    rw [List.forall₂_nil_left_iff.1 hahead]
    exact h.last
  | cons token tokens =>
    rw [hp] at hahead
    obtain ⟨other, others, hfirst, -, hq⟩ := List.forall₂_cons_left_iff.1 hahead
    rw [hq]
    exact hfirst

theorem visit (h : p.Beside T limit q) (rule : Rule) : (p.visit rule).Beside T limit (q.visit rule) :=
  ⟨h.index, h.ahead, h.last, h.depth, h.built, h.limit⟩

theorem past (h : p.Beside T limit q) : p.past.Beside T limit q.past where
  index := congrArg (· + 1) h.index
  ahead := List.forall₂_drop 1 h.ahead
  last := h.last
  depth := h.depth
  built := h.built
  limit := h.limit

theorem inside (h : p.Beside T limit q) : p.inside.Beside T limit q.inside :=
  ⟨h.past.index, h.past.ahead, h.last, congrArg (· + 1) h.depth, h.built, h.limit⟩

theorem withNode (h : p.Beside T limit q) : p.withNode.Beside T limit q.withNode :=
  ⟨h.index, h.ahead, h.last, h.depth, congrArg (· + 1) h.built, h.limit⟩

theorem exitGroup (h : p.Beside T limit q) : p.exitGroup.Beside T limit q.exitGroup :=
  ⟨h.index, h.ahead, h.last, congrArg (· - 1) h.depth, h.built, h.limit⟩

theorem leaf (hT : ∀ a b, T a b → a.Alike b) (h : p.Beside T limit q) :
    p.leaf.Beside T limit q.leaf := by
  have hcurrent := h.current
  have halike := hT _ _ hcurrent
  rw [leaf_eq, leaf_eq, halike.isEnd, halike.isInteger, ← halike.text, ← halike.number]
  by_cases hend : p.current.isEnd = true
  · rw [if_pos hend, if_pos hend]
    exact ⟨h, .error⟩
  rw [if_neg hend, if_neg hend]
  by_cases hint : p.current.isInteger = true
  · rw [if_pos hint, if_pos hint]
    cases p.current.number with
    | none => exact ⟨h.past, .error⟩
    | some value => exact ⟨h.past.withNode, .ok (.number hcurrent)⟩
  · rw [if_neg hint, if_neg hint]
    exact ⟨h, .error⟩

theorem closeGroup (hT : ∀ a b, T a b → a.Alike b) (h : p.Beside T limit q) {e e' : Expr}
    (he : e.Paired T e') : (p.closeGroup e).Beside T limit (q.closeGroup e') := by
  have halike := hT _ _ h.current
  rw [closeGroup_eq, closeGroup_eq, halike.isClose, ← halike.text]
  by_cases hc : p.current.isClose = true
  · rw [if_pos hc, if_pos hc]
    exact ⟨h.past.exitGroup, .ok he⟩
  · rw [if_neg hc, if_neg hc]
    exact ⟨h, .error⟩

end Parser.Beside

/-! ### Runs, side by side -/

/-- **Runs that start beside each other end beside each other.** -/
theorem Runs.beside (hT : ∀ a b, T a b → a.Alike b) {limit : Nat} {g : Goal} {p : Parser}
    {out : Outcome} (h : Runs g p out) : ∀ {g' : Goal} {q : Parser}, g.Paired T g' →
    p.Beside T limit q → SameRoom limit (g, p) →
    ∃ out', Runs g' q out' ∧ out.Beside T limit out' := by
  induction h with
  | @atom p out _ ih =>
    rintro _ q ⟨⟩ hpq hroom
    obtain ⟨out', hruns, hout⟩ := ih .operand (hpq.visit .atom) (hroom.call (.atom p))
    exact ⟨out', .atom hruns, hout⟩
  | @noOperand rule tighter p _ _ hr _ ih =>
    rintro _ q ⟨⟩ hpq hroom
    obtain ⟨⟨r, result⟩, hruns, hout⟩ :=
      ih (.phrase tighter) (hpq.visit rule) (hroom.call (.first p hr))
    obtain ⟨hparser, hresult⟩ := hout
    cases hresult with
    | error => exact ⟨_, .noOperand hr hruns, hparser, .error⟩
  | @phrase rule tighter p _ left out hr hfirst _ ihfirst ihrest =>
    rintro _ q ⟨⟩ hpq hroom
    obtain ⟨⟨r, result⟩, hruns, hout⟩ :=
      ihfirst (.phrase tighter) (hpq.visit rule) (hroom.call (.first p hr))
    obtain ⟨hparser, hresult⟩ := hout
    cases hresult with
    | ok hleft =>
      obtain ⟨out', hrest, hout'⟩ :=
        ihrest (.chain rule hleft) hparser (hroom.call (.rest hr hfirst.outcome_eq))
      exact ⟨out', .phrase hr hruns hrest, hout'⟩
  | @stop rule left p hno =>
    rintro _ q (_ | ⟨_, hleft⟩ | _) hpq -
    refine ⟨_, .stop fun op hop => ?_, hpq, .ok hleft⟩
    rw [(hT _ _ hpq.current).isSign]
    exact hno op hop
  | @noRight rule tighter op left p _ _ hr ho hs _ ih =>
    rintro _ q ⟨⟩ hpq hroom
    have hs' : q.current.isSign op = true := by rw [(hT _ _ hpq.current).isSign]; exact hs
    obtain ⟨⟨r, result⟩, hruns, hout⟩ := ih (.phrase tighter) hpq.past
      (hroom.call (.right hr (takeOperator?_of_isSign ho hs)))
    obtain ⟨hparser, hresult⟩ := hout
    cases hresult with
    | error => exact ⟨_, .noRight hr ho hs' hruns, hparser, .error⟩
  | @right rule tighter op left right p _ out hr ho hs hright _ ihright ihrest =>
    rintro _ q (_ | ⟨_, hleft⟩ | _) hpq hroom
    have htake := takeOperator?_of_isSign ho hs
    have hs' : q.current.isSign op = true := by rw [(hT _ _ hpq.current).isSign]; exact hs
    obtain ⟨⟨r, result⟩, hruns, hout⟩ :=
      ihright (.phrase tighter) hpq.past (hroom.call (.right hr htake))
    obtain ⟨hparser, hresult⟩ := hout
    cases hresult with
    | ok hpaired =>
      obtain ⟨out', hrest, hout'⟩ := ihrest (.chain rule (.binary hpq.current hs hleft hpaired))
        hparser.withNode (hroom.call (.more hr htake hright.outcome_eq))
      exact ⟨out', .right hr ho hs' hruns hrest, hout'⟩
  | @leaf p ho =>
    rintro _ q ⟨⟩ hpq -
    refine ⟨_, .leaf ?_, hpq.leaf hT⟩
    rw [(hT _ _ hpq.current).isOpen]
    exact ho
  | @tooDeep p ho hfull =>
    rintro _ q ⟨⟩ hpq hroom
    have ho' : q.current.isOpen = true := by rw [(hT _ _ hpq.current).isOpen]; exact ho
    -- as there is no room for the group, the limits are the same
    have hlimit : p.limit = q.limit := by
      rcases hroom p .refl ho with hsame | ⟨hlt, -⟩
      · exact hsame.trans hpq.limit.symm
      · omega
    have hfull' : q.limit ≤ q.depth := by rw [← hlimit, ← hpq.depth]; exact hfull
    refine ⟨_, .tooDeep ho' hfull', hpq, ?_⟩
    rw [hlimit]
    exact .error
  | @noSum p _ _ ho hlt _ ih =>
    rintro _ q ⟨⟩ hpq hroom
    have ho' : q.current.isOpen = true := by rw [(hT _ _ hpq.current).isOpen]; exact ho
    have hlt' : q.depth < q.limit := by
      have hsame := hroom p .refl ho
      rw [hpq.limit, ← hpq.depth]
      omega
    have hopen : p.openGroup = .ok p.inside := by
      rw [openGroup_eq ho, if_neg (Nat.not_le.2 hlt)]
    obtain ⟨⟨r, result⟩, hruns, hout⟩ :=
      ih (.phrase .sum) hpq.inside (hroom.call (.inside ho hopen))
    obtain ⟨hparser, hresult⟩ := hout
    cases hresult with
    | error => exact ⟨_, .noSum ho' hlt' hruns, hparser, .error⟩
  | @group p _ e ho hlt _ ih =>
    rintro _ q ⟨⟩ hpq hroom
    have ho' : q.current.isOpen = true := by rw [(hT _ _ hpq.current).isOpen]; exact ho
    have hlt' : q.depth < q.limit := by
      have hsame := hroom p .refl ho
      rw [hpq.limit, ← hpq.depth]
      omega
    have hopen : p.openGroup = .ok p.inside := by
      rw [openGroup_eq ho, if_neg (Nat.not_le.2 hlt)]
    obtain ⟨⟨r, result⟩, hruns, hout⟩ :=
      ih (.phrase .sum) hpq.inside (hroom.call (.inside ho hopen))
    obtain ⟨hparser, hresult⟩ := hout
    cases hresult with
    | ok hpaired => exact ⟨_, .group ho' hlt' hruns, hparser.closeGroup hT hpaired⟩

/-- Whole parses that start beside each other end with the same index and the same number of nodes,
and their results are paired. -/
theorem parse_beside (hT : ∀ a b, T a b → a.Alike b) {tokens others : List Token}
    {file name : String} {limit limit' : Nat}
    (hstart : (start tokens file limit).Beside T limit' (start others name limit'))
    (hroom : SameRoom limit' (.phrase .sum, start tokens file limit)) :
    (parse tokens file limit).parser.built = (parse others name limit').parser.built ∧
    (parse tokens file limit).parser.cursor.index = (parse others name limit').parser.cursor.index ∧
    ResultPaired T (parse tokens file limit).result (parse others name limit').result := by
  obtain ⟨out, hruns, hout⟩ :=
    (runs_phrase .sum (start tokens file limit)).beside hT (.phrase .sum) hstart hroom
  have heq : (start others name limit').phrase .sum = out := hruns.outcome_eq
  rw [← heq] at hout
  unfold parse whole expression
  generalize (start tokens file limit).phrase .sum = a at hout ⊢
  generalize (start others name limit').phrase .sum = b at hout ⊢
  obtain ⟨p, result⟩ := a
  obtain ⟨q, result'⟩ := b
  obtain ⟨hparser, hresult⟩ := hout
  cases hresult with
  | error => exact ⟨hparser.built, hparser.index, .error⟩
  | ok hpaired =>
    have halike := hT _ _ hparser.current
    have hend : q.cursor.atEnd = p.cursor.atEnd := halike.isEnd
    simp only [Outcome.andThen, expectEnd, hend, ← halike.text]
    by_cases hlast : p.cursor.atEnd = true
    · simp only [hlast, if_true]
      exact ⟨hparser.built, hparser.index, .ok hpaired⟩
    · simp only [hlast]
      exact ⟨hparser.built, hparser.index, .error⟩

end Calculator
