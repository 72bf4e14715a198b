/-
# Where a parse takes its leaves

The rules and loops of the parser call each other, and every call starts in some
state. A call goes over tokens as a scan does: where a goal is taken up, the scan
with one counter has gone on over all the tokens before, and is where the goal
starts (`Calls.reaches`). In the other direction, a goal that ends with an
expression calls for an atom at each token it passes at which the scan needs an
operand (`Runs.callsAtoms`). So a token is taken as a leaf exactly where the scan
needs an operand and no group is opened, and there the scan has as many groups
open as the parser (`takesLeaf_iff`).

Key definitions: `Calls`, `TakesLeaf`, `Reaches`, `Goal.outcome`, `Goal.CallsAtoms`.
Key theorems: `Calls.reaches`, `reaches_of_calls`, `Runs.outcome_eq`, `Runs.callsAtoms`,
`takesLeaf_iff`.
-/
import Calculator.Proofs.Walk
import Mathlib.Logic.Relation

namespace Calculator

open Calculator.Parser

/-- While the parser takes the first goal from its state, it takes up the second from the other. -/
inductive Calls : Goal × Parser → Goal × Parser → Prop
  /-- A phrase of the tightest rule takes up an atom. -/
  | atom (p : Parser) : Calls (.phrase .atom, p) (.operand, p.visit .atom)
  /-- A phrase takes up its first operand. -/
  | first {rule tighter : Rule} (p : Parser) :
    rule.operand? = some tighter → Calls (.phrase rule, p) (.phrase tighter, p.visit rule)
  /-- After its first operand, a phrase takes up what follows. -/
  | rest {rule tighter : Rule} {p q : Parser} {left : Expr} :
    rule.operand? = some tighter → (p.visit rule).phrase tighter = ⟨q, .ok left⟩ →
    Calls (.phrase rule, p) (.chain rule left, q)
  /-- After an operator, a chain takes up an operand. -/
  | right {rule tighter : Rule} {p q : Parser} {left : Expr} {op : Operator} {span : Span} :
    rule.operand? = some tighter → p.takeOperator? rule.operators = some (op, span, q) →
    Calls (.chain rule left, p) (.phrase tighter, q)
  /-- After that operand, a chain goes on. -/
  | more {rule tighter : Rule} {p q r : Parser} {left right : Expr} {op : Operator} {span : Span} :
    rule.operand? = some tighter → p.takeOperator? rule.operators = some (op, span, q) →
    q.phrase tighter = ⟨r, .ok right⟩ →
    Calls (.chain rule left, p)
      (.chain rule (r.makeBinary op left right span).1, (r.makeBinary op left right span).2)
  /-- After the token that opens a group, an atom takes up a sum. -/
  | inside {p q : Parser} : p.current.isOpen = true → p.openGroup = .ok q →
    Calls (.operand, p) (.phrase .sum, q)

/-- In a parse of the tokens, the one with the index is taken as a leaf, so many groups being open:
an atom is taken up there, and it starts no group. -/
def TakesLeaf (tokens : List Token) (file : String) (limit index opened : Nat) : Prop :=
  ∃ q : Parser,
    Relation.ReflTransGen Calls (.phrase .sum, Parser.start tokens file limit) (.operand, q) ∧
    q.cursor.index = index ∧ q.depth = opened ∧ q.current.isOpen = false

/-! ### Calls and the scan -/

/-- From the first goal and state to the second the parser passes tokens over which the scan goes
on, from where the first goal starts to where the second does. -/
def Reaches (a b : Goal × Parser) : Prop :=
  ∃ taken, a.2.cursor.ahead = taken ++ b.2.cursor.ahead ∧
    b.2.cursor.index = a.2.cursor.index + taken.length ∧ b.2.limit = a.2.limit ∧
    Scan.walk a.2.limit (a.1.entry a.2.depth) taken = some (b.1.entry b.2.depth)

namespace Reaches

theorem refl (a : Goal × Parser) : Reaches a a := ⟨[], rfl, rfl, rfl, rfl⟩

theorem trans {a b c : Goal × Parser} (h : Reaches a b) (h' : Reaches b c) : Reaches a c := by
  obtain ⟨taken, hahead, hindex, hlimit, hwalk⟩ := h
  obtain ⟨more, hahead', hindex', hlimit', hwalk'⟩ := h'
  refine ⟨taken ++ more, ?_, ?_, hlimit'.trans hlimit, ?_⟩
  · rw [hahead, hahead', List.append_assoc]
  · rw [hindex', hindex, List.length_append, Nat.add_assoc]
  · rw [hlimit] at hwalk'
    rw [Scan.walk_append, hwalk]
    exact hwalk'

theorem of_visit (rule tighter : Rule) (p : Parser) :
    Reaches (.phrase rule, p) (.phrase tighter, p.visit rule) := ⟨[], rfl, rfl, rfl, rfl⟩

theorem of_phrase {rule tighter : Rule} {p q : Parser} {e : Expr}
    (h : p.phrase tighter = ⟨q, .ok e⟩) (left : Expr) :
    Reaches (.phrase tighter, p) (.chain rule left, q) := by
  have hruns := runs_phrase tighter p
  rw [h] at hruns
  obtain ⟨taken, htook, hderives⟩ := hruns.sound e rfl
  refine ⟨taken, htook.ahead, htook.index, htook.limit, ?_⟩
  have hdepth : q.depth = p.depth := htook.depth
  show Scan.walk p.limit (.needsOperand p.depth) taken = some (.hasOperand q.depth)
  rw [hdepth]
  exact Derives.walk_eq hderives (Nat.le_refl _)

theorem of_takeOperator? {rule tighter : Rule} {p q : Parser} {op : Operator} {span : Span}
    (h : p.takeOperator? rule.operators = some (op, span, q)) (left : Expr) :
    Reaches (.chain rule left, p) (.phrase tighter, q) := by
  obtain ⟨-, hs, -, rfl⟩ := takeOperator?_eq_some h
  refine ⟨[p.current], ahead_eq_cons (Token.isEnd_eq_false_of_isSign hs), rfl, rfl, ?_⟩
  exact Scan.walk_of_goOn (Scan.step_of_isSign hs) []

end Reaches

/-- **A call goes over tokens as the scan does.** -/
theorem Calls.reaches {a b : Goal × Parser} (h : Calls a b) : Reaches a b := by
  cases h with
  | atom p => exact ⟨[], rfl, rfl, rfl, rfl⟩
  | @first rule tighter p _ => exact Reaches.of_visit rule tighter p
  | @rest rule tighter p q left _ hphrase =>
    exact (Reaches.of_visit rule tighter p).trans (Reaches.of_phrase hphrase left)
  | @right _ _ _ _ left _ _ _ htake => exact Reaches.of_takeOperator? htake left
  | @more rule tighter p q r left right op span _ htake hphrase =>
    have hsign : Reaches (.chain rule left, p) (.phrase tighter, q) :=
      Reaches.of_takeOperator? htake left
    have hright : Reaches (.phrase tighter, q) (.chain rule left, r) :=
      Reaches.of_phrase hphrase left
    exact hsign.trans hright
  | @inside p q ho hopen =>
    rw [openGroup_eq ho] at hopen
    split at hopen
    · cases hopen
    · next hlt =>
      cases hopen
      have hend := Token.isEnd_eq_false_of_isPunct (Token.isPunct_of_isMark ho)
      refine ⟨[p.current], ahead_eq_cons hend, rfl, rfl, ?_⟩
      exact Scan.walk_of_goOn (Scan.step_of_isOpen ho (Nat.lt_of_not_le hlt)) []

/-- Calls within calls go over tokens as the scan does. -/
theorem reaches_of_calls {a b : Goal × Parser} (h : Relation.ReflTransGen Calls a b) :
    Reaches a b := by
  induction h with
  | refl => exact Reaches.refl a
  | tail _ hcall ih => exact ih.trans hcall.reaches

/-! ### A run is what the parser does -/

/-- What the parser makes of a goal. -/
def Goal.outcome (p : Parser) : Goal → Outcome
  | phrase rule => p.phrase rule
  | chain rule left =>
    match rule.operand? with
    | some tighter => p.chain rule.operators tighter left
    | none => ⟨p, .ok left⟩
  | operand => p.operand

theorem Goal.outcome_chain {rule tighter : Rule} (hr : rule.operand? = some tighter) (left : Expr)
    (p : Parser) : (chain rule left).outcome p = p.chain rule.operators tighter left := by
  rw [outcome, hr]

/-- A run ends as the parser does. -/
theorem Runs.outcome_eq {g : Goal} {p : Parser} {out : Outcome} (h : Runs g p out) :
    g.outcome p = out := by
  induction h with
  | atom _ ih => exact (phrase_atom _).trans ih
  | @noOperand rule tighter p q error hr _ ih =>
    have hfirst : (p.visit rule).phrase tighter = ⟨q, .error error⟩ := ih
    show p.phrase rule = _
    rw [phrase_chain hr, hfirst]
    rfl
  | @phrase rule tighter p q left out hr _ _ ihfirst ihrest =>
    have hfirst : (p.visit rule).phrase tighter = ⟨q, .ok left⟩ := ihfirst
    show p.phrase rule = _
    rw [phrase_chain hr, hfirst, ← ihrest, Goal.outcome_chain hr]
    rfl
  | @stop rule left p hno =>
    cases hr : rule.operand? with
    | none => rw [Goal.outcome, hr]
    | some tighter => rw [Goal.outcome_chain hr, chain_eq, takeOperator?_eq_none_iff.2 hno]
  | @noRight rule tighter op left p q error hr ho hs _ ih =>
    have hright : p.past.phrase tighter = ⟨q, .error error⟩ := ih
    rw [Goal.outcome_chain hr, chain_eq, takeOperator?_of_isSign ho hs]
    simp only [hright]
    rfl
  | @right rule tighter op left right p q out hr ho hs _ _ ihright ihrest =>
    have hright : p.past.phrase tighter = ⟨q, .ok right⟩ := ihright
    rw [Goal.outcome_chain hr, chain_eq, takeOperator?_of_isSign ho hs]
    simp only [hright]
    rw [← ihrest, Goal.outcome_chain hr]
    rfl
  | @leaf p ho =>
    show p.operand = _
    rw [operand_eq, ho]
    rfl
  | @tooDeep p ho hfull =>
    show p.operand = _
    rw [operand_eq, if_pos ho, openGroup_eq ho, if_pos hfull]
  | @noSum p q error ho hlt _ ih =>
    have hsum : p.inside.phrase .sum = ⟨q, .error error⟩ := ih
    show p.operand = _
    rw [operand_eq, if_pos ho, openGroup_eq ho, if_neg (Nat.not_le.2 hlt)]
    simp only [hsum]
    rfl
  | @group p q e ho hlt _ ih =>
    have hsum : p.inside.phrase .sum = ⟨q, .ok e⟩ := ih
    show p.operand = _
    rw [operand_eq, if_pos ho, openGroup_eq ho, if_neg (Nat.not_le.2 hlt)]
    simp only [hsum]
    rfl

/-! ### A leaf of a parse -/

/-- For each token before the index that opens no group and at which a scan needs an operand, the goal
calls for an atom there. -/
def Goal.CallsAtoms (p : Parser) (stop : Nat) (g : Goal) : Prop :=
  ∀ {before after : List Token} {token : Token} {deep : Nat},
    p.cursor.ahead = before ++ token :: after → p.cursor.index + before.length < stop →
    Scan.walk p.limit (g.entry p.depth) before = some (.needsOperand deep) →
    token.isOpen = false →
    ∃ q : Parser, Relation.ReflTransGen Calls (g, p) (.operand, q) ∧
      q.cursor.index = p.cursor.index + before.length ∧ q.depth = deep ∧ q.current = token

theorem Runs.callsAtoms_operand_rest {rule tighter : Rule} {p q r : Parser} {e left : Expr}
    {stop : Nat} (h : Runs (.phrase tighter) p ⟨q, .ok e⟩) (hr : Took q [] r)
    (hfirst : (Goal.phrase tighter).CallsAtoms p q.cursor.index)
    (hrest : (Goal.chain rule left).CallsAtoms r stop)
    {before after : List Token} {token : Token} {deep : Nat}
    (hahead : p.cursor.ahead = before ++ token :: after)
    (hlt : p.cursor.index + before.length < stop)
    (hwalk : Scan.walk p.limit (.needsOperand p.depth) before = some (.needsOperand deep))
    (hopen : token.isOpen = false) :
    ∃ s : Parser, (Relation.ReflTransGen Calls (.phrase tighter, p) (.operand, s) ∨
        Relation.ReflTransGen Calls (.chain rule left, r) (.operand, s)) ∧
      s.cursor.index = p.cursor.index + before.length ∧ s.depth = deep ∧ s.current = token := by
  obtain ⟨taken, htook, hderives⟩ := h.sound e rfl
  have hindex : q.cursor.index = p.cursor.index + taken.length := htook.index
  have hboth : Took p taken r := by simpa using htook.trans hr
  have hsplit := hboth.ahead.symm.trans hahead
  rcases Scan.split_phrase hsplit (Derives.walk_eq hderives (Nat.le_refl _)) hwalk with
    ⟨between, rfl, -⟩ | ⟨next, between, rfl, hmore, hover⟩
  · have hwithin : p.cursor.index + before.length < q.cursor.index := by
      simp only [hindex, List.length_append, List.length_cons]
      omega
    obtain ⟨s, hcalls, hs⟩ := hfirst hahead hwithin hwalk hopen
    exact ⟨s, .inl hcalls, hs⟩
  · have hwithin : r.cursor.index + (next :: between).length < stop := by
      rw [List.length_append] at hlt
      rw [hboth.index]
      omega
    rw [← hboth.limit, ← hboth.depth] at hover
    obtain ⟨s, hcalls, hs, hdeep⟩ := hrest hmore hwithin hover hopen
    refine ⟨s, .inr hcalls, ?_, hdeep⟩
    rw [hs, hboth.index, List.length_append, Nat.add_assoc]

theorem Runs.callsAtoms_right {rule tighter : Rule} {op : Operator} {left right : Expr}
    {p q : Parser} {stop : Nat} (hr : rule.operand? = some tighter) (ho : op ∈ rule.operators)
    (hs : p.current.isSign op = true) (hright : Runs (.phrase tighter) p.past ⟨q, .ok right⟩)
    (hfirst : (Goal.phrase tighter).CallsAtoms p.past q.cursor.index)
    (hrest : (Goal.chain rule (.binary op left right p.current.span)).CallsAtoms q.withNode stop) :
    (Goal.chain rule left).CallsAtoms p stop := by
  intro before after token deep hahead hlt hwalk hopen
  have htake := takeOperator?_of_isSign ho hs
  cases before with
  | nil => cases hwalk
  | cons sign before =>
    rw [ahead_eq_cons (Token.isEnd_eq_false_of_isSign hs)] at hahead
    obtain ⟨rfl, hpast⟩ := List.cons.inj hahead
    rw [Goal.entry, Scan.walk_of_goOn (Scan.step_of_isSign hs)] at hwalk
    have hlt : p.past.cursor.index + before.length < stop := by
      show p.cursor.index + 1 + before.length < stop
      rw [List.length_cons] at hlt
      omega
    obtain ⟨s, hcalls, hs, hdeep⟩ := hright.callsAtoms_operand_rest (Took.refl q).withNode
      hfirst hrest hpast hlt hwalk hopen
    have hindex : s.cursor.index = p.cursor.index + (p.current :: before).length := by
      rw [hs, List.length_cons, Nat.add_comm before.length 1, ← Nat.add_assoc]
      rfl
    rcases hcalls with hcalls | hcalls
    · exact ⟨s, .head (.right hr htake) hcalls, hindex, hdeep⟩
    · exact ⟨s, .head (.more hr htake hright.outcome_eq) hcalls, hindex, hdeep⟩

theorem Runs.callsAtoms_group {p q : Parser} {e : Expr} (ho : p.current.isOpen = true)
    (hlt : p.depth < p.limit) (hsum : Runs (.phrase .sum) p.inside ⟨q, .ok e⟩)
    (hinside : (Goal.phrase .sum).CallsAtoms p.inside q.cursor.index) :
    Goal.operand.CallsAtoms p (q.cursor.index + 1) := by
  intro before after token deep hahead hbound hwalk hopen
  have hgroup : p.openGroup = .ok p.inside := by
    rw [openGroup_eq ho, if_neg (Nat.not_le.2 hlt)]
  obtain ⟨taken, htook, hderives⟩ := hsum.sound e rfl
  have hindex : q.cursor.index = p.cursor.index + 1 + taken.length := htook.index
  have hwalk : Scan.walk p.limit (.needsOperand p.depth) before = some (.needsOperand deep) := hwalk
  rw [ahead_eq_cons (Token.isEnd_eq_false_of_isPunct (Token.isPunct_of_isMark ho))] at hahead
  cases before with
  | nil =>
    obtain ⟨hfirst, -⟩ := List.cons.inj hahead
    simp [← hfirst, ho] at hopen
  | cons first before =>
    obtain ⟨rfl, hpast⟩ := List.cons.inj hahead
    have hpast : p.inside.cursor.ahead = before ++ token :: after := hpast
    rw [Scan.walk_of_goOn (Scan.step_of_isOpen ho hlt)] at hwalk
    have hsplit := htook.ahead.symm.trans hpast
    rw [List.length_cons] at hbound ⊢
    rcases Scan.split_phrase hsplit (Derives.walk_eq hderives (Nat.le_refl _)) hwalk with
      ⟨between, rfl, -⟩ | ⟨next, between, rfl, -, -⟩
    · have hwithin : p.inside.cursor.index + before.length < q.cursor.index := by
        show p.cursor.index + 1 + before.length < _
        simp only [hindex, List.length_append, List.length_cons]
        omega
      obtain ⟨s, hcalls, hs, hdeep⟩ := hinside hpast hwithin hwalk hopen
      refine ⟨s, .head (.inside ho hgroup) hcalls, ?_, hdeep⟩
      rw [hs, Nat.add_comm before.length 1, ← Nat.add_assoc]
      rfl
    · -- the token would come after the one that closes the group
      rw [List.length_append, List.length_cons] at hbound
      omega

/-- A run that ends with an expression has called for the atoms it has passed. -/
theorem Runs.callsAtoms {g : Goal} {p : Parser} {out : Outcome} (h : Runs g p out) :
    ∀ e, out.result = .ok e → g.CallsAtoms p out.parser.cursor.index := by
  induction h with
  | @atom p out _ ih =>
    intro e he before after token deep hahead hlt hwalk hopen
    obtain ⟨q, hcalls, hq⟩ := ih e he hahead hlt hwalk hopen
    exact ⟨q, .head (.atom p) hcalls, hq⟩
  | noOperand => intro _ he; cases he
  | @phrase rule tighter p q left out hr hfirst hrest ihfirst ihrest =>
    intro e he before after token deep hahead hlt hwalk hopen
    obtain ⟨s, hcalls | hcalls, hs⟩ := hfirst.callsAtoms_operand_rest (Took.refl q)
      (ihfirst left rfl) (ihrest e he) hahead hlt hwalk hopen
    · exact ⟨s, .head (.first p hr) hcalls, hs⟩
    · exact ⟨s, .head (.rest hr hfirst.outcome_eq) hcalls, hs⟩
  | @stop rule left p =>
    intro e _ before after token deep _ hlt
    have hlt : p.cursor.index + before.length < p.cursor.index := hlt
    omega
  | noRight => intro _ he; cases he
  | @right rule tighter op left right p q out hr ho hs hright hrest ihright ihrest =>
    intro e he
    exact hright.callsAtoms_right hr ho hs (ihright right rfl) (ihrest e he)
  | @leaf p ho =>
    intro e he before after token deep hahead hlt hwalk hopen
    have hindex : p.leaf.parser.cursor.index = p.cursor.index + 1 := (leaf_sound he).1.index
    have hempty : before = [] := List.length_eq_zero_iff.1 (by omega)
    subst hempty
    cases hwalk
    exact ⟨p, .refl, rfl, rfl, current_of_ahead hahead⟩
  | tooDeep => intro _ he; cases he
  | noSum => intro _ he; cases he
  | @group p q e ho hlt hsum ih =>
    intro _ he
    rw [closeGroup_eq] at he ⊢
    split at he
    · next hc =>
      rw [if_pos hc]
      exact hsum.callsAtoms_group ho hlt (ih e rfl)
    · cases he

/-- **A token is taken as a leaf exactly if it opens no group and the scan needs an operand there**,
and then the scan has as many groups open as the parser. -/
theorem takesLeaf_iff {tokens : List Token} {file : String} {limit index opened : Nat}
    {root : Expr} (hends : ∀ token ∈ tokens, token.isEnd = false)
    (hroot : (parse tokens file limit).result = .ok root) :
    TakesLeaf tokens file limit index opened ↔
    ∃ before token after, tokens = before ++ token :: after ∧ before.length = index ∧
      token.isOpen = false ∧
      Scan.walk limit (.needsOperand 0) before = some (.needsOperand opened) := by
  have hall := Token.takeWhile_eq_self hends
  have hderives := parse_sound hroot
  rw [hall] at hderives
  have hstart : (start tokens file limit).cursor.ahead = tokens :=
    (Cursor.ahead_ofTokens tokens file).trans hall
  constructor
  · rintro ⟨q, hcalls, rfl, rfl, hopen⟩
    obtain ⟨taken, hahead, hindex, -, hwalk⟩ := reaches_of_calls hcalls
    have hahead : tokens = taken ++ q.cursor.ahead := hstart.symm.trans hahead
    have hindex : q.cursor.index = 0 + taken.length := hindex
    have hwalk : Scan.walk limit (.needsOperand 0) taken = some (.needsOperand q.depth) := hwalk
    cases hrest : q.cursor.ahead with
    | nil =>
      -- a scan of all the tokens has seen an operand
      rw [hrest, List.append_nil] at hahead
      have hover := hderives.walk_eq (Nat.le_refl (limit - 0))
      rw [hahead, hwalk] at hover
      simp at hover
    | cons token after =>
      have hcurrent : q.current = token := current_of_ahead hrest
      rw [hrest] at hahead
      exact ⟨taken, token, after, hahead, by omega, by rw [← hcurrent]; exact hopen, hwalk⟩
  · rintro ⟨before, token, after, hsplit, rfl, hopen, hwalk⟩
    obtain ⟨q, hphrase, hend⟩ := whole_eq_ok_iff.1 hroot
    have hruns := runs_phrase .sum (start tokens file limit)
    rw [hphrase] at hruns
    obtain ⟨taken, htook, -⟩ := hruns.sound root rfl
    have hindex : q.cursor.index = 0 + taken.length := htook.index
    have htaken : tokens = taken := by
      have hahead := hstart.symm.trans htook.ahead
      rwa [(current_isEnd_iff q).1 hend, List.append_nil] at hahead
    have hlt : 0 + before.length < q.cursor.index := by
      rw [hindex, ← htaken, hsplit]
      simp only [List.length_append, List.length_cons]
      omega
    obtain ⟨r, hcalls, hr, hdepth, hcurrent⟩ :=
      hruns.callsAtoms root rfl (hstart.trans hsplit) hlt hwalk hopen
    refine ⟨r, hcalls, hr.trans (Nat.zero_add _), hdepth, ?_⟩
    rw [hcurrent]
    exact hopen

end Calculator
