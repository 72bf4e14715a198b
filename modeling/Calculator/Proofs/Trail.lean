/-
# The log of a parse, read off its tokens

Three nested rules note their visits, and a call of one starts with calls of the
tighter ones. The order of the visits is nevertheless that of the tokens: a scan with
one counter that goes over them once can write the same log (`Scan.visits`). Where it
needs an operand, the token before tells which rules start; where it has one, no rule
does. A goal and the scan that starts where it does write the same
(`Runs.trail_eq`), whether the goal ends with an expression or with an error.

Key definitions: `Rule.starts`, `Scan.startsAfter`, `Scan.visits`, `Parser.trail`, `Outcome.trail`,
`Visit.line`.
Key theorems: `Runs.trail_eq`, `parse_visits_eq`, `parse_file_eq`, `parse_log_eq`.
-/
import Calculator.Log
import Calculator.Proofs.Stops

namespace Calculator

open Calculator.Parser

/-! ### A scan that writes the log -/

/-- The rules that start where the rule does, loosest first. -/
def Rule.starts : Rule → List Rule
  | sum => [sum, product, atom]
  | product => [product, atom]
  | atom => [atom]

theorem Rule.starts_eq {rule tighter : Rule} (h : rule.operand? = some tighter) :
    rule.starts = rule :: tighter.starts := by
  cases rule <;> cases h <;> rfl

namespace Scan

/-- The rules that start on an operand after the token, loosest first: all of them in a group that the
token opens, all but the loosest after a plus or a minus, and else only the tightest. -/
def startsAfter (token : Token) : List Rule :=
  if token.isOpen then Rule.sum.starts
  else if token.isSign .add || token.isSign .sub then Rule.product.starts
  else Rule.atom.starts

/-- The visits to a token, if these rules start where an operand is needed: there they all visit it, and
elsewhere none does. -/
def visitsTo (starts : List Rule) (token : Token) : Scan → List Visit
  | needsOperand _ => starts.map fun rule => ⟨rule, token.text⟩
  | hasOperand _ => []

/-- The visits along the tokens, if these rules start on the first where an operand is needed. The
token at which the scan ends is visited too. -/
def visits (limit : Nat) : Scan → (starts : List Rule) → List Token → List Visit
  | _, _, [] => []
  | scan, starts, token :: tokens =>
    scan.visitsTo starts token ++
      match scan.step limit token with
      | .goOn next => visits limit next (startsAfter token) tokens
      | _ => []

variable {limit : Nat} {token : Token}

theorem startsAfter_of_isOpen (h : token.isOpen = true) : startsAfter token = Rule.sum.starts :=
  if_pos h

theorem startsAfter_of_isSign {rule tighter : Rule} (hr : rule.operand? = some tighter)
    {op : Operator} (ho : op ∈ rule.operators) (hs : token.isSign op = true) :
    startsAfter token = tighter.starts := by
  have hopen : token.isOpen = false := by
    rw [Bool.eq_false_iff]
    intro hopen
    rw [Token.isSign_eq_false_of_isMark (.inl rfl) hopen] at hs
    cases hs
  have hother : ∀ other, other ≠ op → token.isSign other = false := by
    intro other hne
    rw [Bool.eq_false_iff]
    exact fun hs' => hne (Token.isSign_injective hs' hs)
  rw [startsAfter, hopen]
  cases rule with
  | sum =>
    cases hr
    have ho : op = .add ∨ op = .sub := by simpa [Rule.operators] using ho
    rcases ho with rfl | rfl
    · simp [hs]
    · simp [hs]
  | product =>
    cases hr
    have ho : op = .mul ∨ op = .div := by simpa [Rule.operators] using ho
    rcases ho with rfl | rfl
    · simp [hother]
    · simp [hother]
  | atom => cases hr

theorem visits_hasOperand (opened : Nat) (starts : List Rule) (tokens : List Token) :
    visits limit (hasOperand opened) starts tokens = visits limit (hasOperand opened) [] tokens := by
  cases tokens <;> rfl

theorem visitsTo_nil (token : Token) (scan : Scan) : scan.visitsTo [] token = [] := by
  cases scan <;> rfl

theorem visits_append {last : Token} (hlast : last.isEnd = true) (beyond : List Token) :
    ∀ (scan : Scan) (starts : List Rule) (tokens : List Token),
    visits limit scan starts (tokens ++ last :: beyond) =
      visits limit scan starts (tokens ++ [last])
  | scan, starts, [] => by
    simp only [List.nil_append, visits]
    cases hstep : scan.step limit last with
    | goOn next =>
      rw [isEnd_of_goOn hstep] at hlast
      cases hlast
    | accept => rfl
    | reject fault => rfl
  | scan, starts, token :: tokens => by
    simp only [List.cons_append, visits]
    cases scan.step limit token with
    | goOn next => simp only [visits_append hlast beyond next (startsAfter token) tokens]
    | accept => rfl
    | reject fault => rfl

end Scan

/-! ### The visits of a goal -/

/-- The visits paid so far, the first one first, and those that a scan finds from here on. -/
def Parser.trail (p : Parser) (scan : Scan) (starts : List Rule) : List Visit :=
  p.visits.reverse ++ Scan.visits p.limit scan starts (p.cursor.ahead ++ [p.cursor.last])

/-- The rules that have still to visit the token on which the goal starts. -/
def Goal.starts : Goal → List Rule
  | phrase rule => rule.starts
  | _ => []

/-- The visits paid up to the outcome, and then those that a scan finds which has come as far: none
after an error. -/
def Outcome.trail (out : Outcome) : List Visit :=
  match out.result with
  | .ok _ => out.parser.trail (.hasOperand out.parser.depth) []
  | .error _ => out.parser.visits.reverse

namespace Parser

variable {p : Parser} {scan next : Scan}

theorem exists_reach_eq_cons (p : Parser) : ∃ rest, p.cursor.ahead ++ [p.cursor.last] =
    p.current :: rest ∧ (p.current.isEnd = false →
      rest = p.past.cursor.ahead ++ [p.past.cursor.last]) := by
  by_cases hend : p.current.isEnd = true
  · have hnil := (current_isEnd_iff p).1 hend
    have hcurrent : p.current = p.cursor.last := by simp [current, Cursor.current, hnil]
    refine ⟨[], by rw [hnil, hcurrent, List.nil_append], fun hno => ?_⟩
    rw [hend] at hno
    cases hno
  · refine ⟨p.past.cursor.ahead ++ [p.cursor.last], ?_, fun _ => rfl⟩
    rw [ahead_eq_cons (Bool.eq_false_iff.2 hend), List.cons_append]

theorem trail_visit (p : Parser) (rule : Rule) (opened : Nat) (starts : List Rule) :
    p.trail (.needsOperand opened) (rule :: starts) =
      (p.visit rule).trail (.needsOperand opened) starts := by
  obtain ⟨rest, hreach, -⟩ := p.exists_reach_eq_cons
  show p.visits.reverse ++ Scan.visits p.limit _ _ (p.cursor.ahead ++ [p.cursor.last]) =
    (p.visit rule).visits.reverse ++ Scan.visits p.limit _ _ (p.cursor.ahead ++ [p.cursor.last])
  rw [hreach]
  simp [visit, Scan.visits, Scan.visitsTo]

theorem trail_of_goOn (h : scan.step p.limit p.current = .goOn next) :
    p.trail scan [] = p.past.trail next (Scan.startsAfter p.current) := by
  obtain ⟨rest, hreach, hrest⟩ := p.exists_reach_eq_cons
  rw [trail, hreach, Scan.visits, h, Scan.visitsTo_nil, hrest (Scan.isEnd_of_goOn h)]
  rfl

theorem trail_of_end (h : ∀ next, scan.step p.limit p.current ≠ .goOn next) :
    p.trail scan [] = p.visits.reverse := by
  obtain ⟨rest, hreach, -⟩ := p.exists_reach_eq_cons
  rw [trail, hreach, Scan.visits, Scan.visitsTo_nil]
  cases hstep : scan.step p.limit p.current with
  | goOn next => exact absurd hstep (h next)
  | accept => exact List.append_nil _
  | reject fault => exact List.append_nil _

theorem trail_hasOperand (p : Parser) (opened : Nat) (starts : List Rule) :
    p.trail (.hasOperand opened) starts = p.trail (.hasOperand opened) [] := by
  rw [trail, Scan.visits_hasOperand]
  rfl

theorem trail_of_isSign {rule tighter : Rule} (hr : rule.operand? = some tighter) {op : Operator}
    (ho : op ∈ rule.operators) (hs : p.current.isSign op = true) :
    p.trail (.hasOperand p.depth) [] = p.past.trail (.needsOperand p.depth) tighter.starts := by
  rw [trail_of_goOn (Scan.step_of_isSign hs), Scan.startsAfter_of_isSign hr ho hs]

theorem trail_of_isOpen (ho : p.current.isOpen = true) (hlt : p.depth < p.limit) :
    p.trail (.needsOperand p.depth) [] =
      p.inside.trail (.needsOperand (p.depth + 1)) Rule.sum.starts := by
  rw [trail_of_goOn (Scan.step_of_isOpen ho hlt), Scan.startsAfter_of_isOpen ho]
  rfl

theorem leaf_trail_eq (ho : p.current.isOpen = false) :
    p.trail (.needsOperand p.depth) [] = p.leaf.trail := by
  rw [leaf_eq]
  by_cases hend : p.current.isEnd = true
  · rw [if_pos hend]
    exact trail_of_end (by simp [Scan.step, ho, hend])
  rw [if_neg hend]
  by_cases hint : p.current.isInteger = true
  · rw [if_pos hint]
    cases hnum : p.current.number with
    | none => exact trail_of_end (by simp [Scan.step, ho, hend, hint, hnum])
    | some value =>
      rw [trail_of_goOn (Scan.step_of_isInteger hint hnum), trail_hasOperand]
      rfl
  · rw [if_neg hint]
    exact trail_of_end (by simp [Scan.step, ho, hend, hint])

theorem closeGroup_trail_eq {opened : Nat} (hdepth : p.depth = opened + 1)
    (hstops : Rule.sum.Stops p.current) (e : Expr) :
    p.trail (.hasOperand p.depth) [] = (p.closeGroup e).trail := by
  have hsign := Scan.isSign_eq_false_of_stops hstops
  rw [closeGroup_eq, hdepth]
  by_cases hc : p.current.isClose = true
  · have hgone : p.past.exitGroup.depth = opened := by
      show p.depth - 1 = opened
      omega
    rw [if_pos hc, trail_of_goOn (Scan.step_of_isClose hc), trail_hasOperand]
    show _ = p.past.exitGroup.trail (.hasOperand p.past.exitGroup.depth) []
    rw [hgone]
    rfl
  · rw [if_neg hc]
    exact trail_of_end (by simp [Scan.step, hsign, hc])

end Parser

/-- **A goal and a scan that start together pay the same visits**, in the same order. -/
theorem Runs.trail_eq {g : Goal} {p : Parser} {out : Outcome} (h : Runs g p out) :
    p.trail (g.entry p.depth) g.starts = out.trail := by
  induction h with
  | @atom p out _ ih => exact (trail_visit p .atom p.depth []).trans ih
  | @noOperand rule tighter p q error hr _ ih =>
    show p.trail (.needsOperand p.depth) rule.starts = _
    rw [Rule.starts_eq hr, trail_visit]
    exact ih
  | @phrase rule tighter p q left out hr _ _ ihfirst ihrest =>
    show p.trail (.needsOperand p.depth) rule.starts = _
    rw [Rule.starts_eq hr, trail_visit]
    exact ihfirst.trans ihrest
  | stop => rfl
  | noRight hr ho hs _ ih => exact (trail_of_isSign hr ho hs).trans ih
  | right hr ho hs _ _ ihright ihrest =>
    exact (trail_of_isSign hr ho hs).trans (ihright.trans ihrest)
  | leaf ho => exact leaf_trail_eq ho
  | tooDeep ho hfull => exact trail_of_end (by simp [Goal.entry, Scan.step, ho, hfull])
  | noSum ho hlt _ ih => exact (trail_of_isOpen ho hlt).trans ih
  | @group p q e ho hlt hsum ih =>
    obtain ⟨taken, htook, -⟩ := hsum.sound e rfl
    have hclose := closeGroup_trail_eq htook.depth (hsum.stops trivial e rfl) e
    exact (trail_of_isOpen ho hlt).trans (Eq.trans ih hclose)

/-! ### The log of a whole parse -/

/-- The visits of a parse are those of the scan of its tokens. -/
theorem parse_visits_eq (tokens : List Token) (file : String) (limit : Nat) :
    (parse tokens file limit).parser.visits.reverse =
      Scan.visits limit (.needsOperand 0) Rule.sum.starts (Token.terminated tokens file) := by
  obtain ⟨beyond, hsplit⟩ := exists_terminated_eq tokens file
  have hruns := runs_phrase .sum (start tokens file limit)
  have htrail : Scan.visits limit (.needsOperand 0) Rule.sum.starts (Token.terminated tokens file) =
      ((start tokens file limit).phrase .sum).trail := by
    rw [hsplit, Scan.visits_append (Cursor.ofTokens tokens file).isEnd_last]
    exact hruns.trail_eq
  rw [htrail, parse_ends_with_sum, Outcome.trail]
  cases hresult : ((start tokens file limit).phrase .sum).result with
  | error error => rfl
  | ok e =>
    obtain ⟨taken, htook, -⟩ := hruns.sound e hresult
    have hsign := Scan.isSign_eq_false_of_stops (hruns.stops trivial e hresult)
    generalize ((start tokens file limit).phrase .sum).parser = q at htook hsign ⊢
    have hdepth : q.depth = 0 := htook.depth
    refine (trail_of_end fun next hstep => ?_).symm
    -- with no group open, a scan goes on at operators only
    have hsteps := Scan.steps q.limit q.current (.hasOperand q.depth)
    rw [hstep, hdepth] at hsteps
    cases hsteps with
    | sign hop =>
      rw [(Scan.isSign_iff q.current).2 ⟨_, hop⟩] at hsign
      cases hsign

theorem Runs.file_eq {g : Goal} {p : Parser} {out : Outcome} (h : Runs g p out) :
    out.parser.file = p.file := by
  induction h with
  | atom _ ih => exact ih
  | noOperand _ _ ih => exact ih
  | phrase _ _ _ ihfirst ihrest => exact ihrest.trans ihfirst
  | stop => rfl
  | noRight _ _ _ _ ih => exact ih
  | right _ _ _ _ _ ihright ihrest => exact ihrest.trans ihright
  | leaf =>
    rw [leaf_eq]
    split
    · rfl
    · split
      · split <;> rfl
      · rfl
  | tooDeep => rfl
  | noSum _ _ _ ih => exact ih
  | group _ _ _ ih =>
    rw [closeGroup_eq]
    split <;> exact ih

theorem parse_file_eq (tokens : List Token) (file : String) (limit : Nat) :
    (parse tokens file limit).parser.file = file := by
  rw [parse_ends_with_sum]
  exact (runs_phrase .sum (start tokens file limit)).file_eq

/-- What the log says of a visit. -/
def Visit.line : Visit → String
  | ⟨.sum, text⟩ => "parse_add_or_sub" ++ ": current token = " ++ Text.quoted text
  | ⟨.product, text⟩ => "parse_mul_or_div" ++ ": current token = " ++ Text.quoted text
  | ⟨.atom, text⟩ => "parse_num_or_bracket" ++ ": current token = " ++ Text.quoted text

theorem Visit.line_eq : ∀ visit : Visit, (Record.visited visit).message = visit.line
  | ⟨.sum, _⟩ => rfl
  | ⟨.product, _⟩ => rfl
  | ⟨.atom, _⟩ => rfl

/-- **The log of a parse is the walk of the grammar along its tokens.** Whether a parse succeeds or
fails, it traces one record for each visit of a rule to a token where an operand is needed, token by
token, up to the one at which it ends; and then it says how it ended, once. -/
theorem parse_log_eq (tokens : List Token) (file : String) (limit : Nat) :
    (Record.ofParse (parse tokens file limit)).map
        (fun record => (record.level, record.message)) =
      (Scan.visits limit (.needsOperand 0) Rule.sum.starts (Token.terminated tokens file)).map
        (fun visit => (Level.trace, visit.line)) ++
      [(Level.debug, match (parse tokens file limit).result with
        | .ok _ => "parsed " ++ file ++ " with " ++
          Text.decimal (parse tokens file limit).parser.built ++ " nodes"
        | .error error => "failed to parse " ++ file ++ ": " ++ error.message)] := by
  have hline : (fun visit => (Level.trace, visit.line)) =
      (fun record => (Record.level record, record.message)) ∘ Record.visited :=
    funext fun visit => congrArg (Prod.mk Level.trace) visit.line_eq.symm
  rw [← parse_visits_eq, Record.ofParse, List.map_append, List.map_map, hline]
  refine congrArg _ ?_
  rw [List.map_singleton, Record.ofEnd, parse_file_eq]
  cases (parse tokens file limit).result <;> rfl

end Calculator
