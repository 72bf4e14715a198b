/-
# What the limit on open groups does

A limit has one effect: a group that would be open together with as many others
as it allows is an error. As long as a parse under a higher limit does not open
more groups than the lower one allows, the two parses go side by side, since
there is the same room for every group they come to, and they end alike
(`parse_result_eq_of_opensAtMost`). If it does, then it has come to a first token
that opens one group too many for the lower limit. Up to there a scan goes on under
the lower limit as well (`Scan.exists_first_deeper`), and at this token it rejects
the input, whatever follows.

Key definitions: `OpensAtMost`, `FirstTooDeep`.
Key theorems: `Scan.exists_first_deeper`, `parse_result_eq_of_opensAtMost`,
`parse_under_lower_limit`.
-/
import Calculator.Proofs.Lockstep
import Calculator.Proofs.Reading
import Calculator.Proofs.Stops

namespace Calculator

open Calculator.Parser

/-- While the tokens are parsed under the limit, never more than `bound` groups are open at once.
Only the token that opens a group raises their number, and a sum is taken up after it. -/
def OpensAtMost (tokens : List Token) (file : String) (limit bound : Nat) : Prop :=
  ∀ (g : Goal) (q : Parser),
    Relation.ReflTransGen Calls (.phrase .sum, start tokens file limit) (g, q) → q.depth ≤ bound

/-- The token opens a group while as many are open as the limit allows, and along the tokens before
it there were never more open. -/
structure FirstTooDeep (limit : Nat) (before : List Token) (token : Token) : Prop where
  isOpen : token.isOpen = true
  groupsOpen_eq : groupsOpen 0 before = limit
  nesting_le : nesting before ≤ limit

/-! ### Scans under a lower limit -/

theorem groupsOpen_le_deepest (opened : Nat) (before after : List Token) :
    groupsOpen opened before ≤ deepest opened (before ++ after) := by
  rw [deepest_append]
  exact Nat.le_trans (le_deepest _ after) (Nat.le_max_right _ _)

namespace Scan

variable {limit bound : Nat}

theorem opened_entry (opened : Nat) : ∀ g : Goal, (g.entry opened).opened = opened
  | .phrase _ => rfl
  | .chain .. => rfl
  | .operand => rfl

theorem opened_le_or_opens {scan next : Scan} {token : Token}
    (h : scan.step limit token = .goOn next) :
    next.opened ≤ scan.opened ∨
      ∃ n, scan = .needsOperand n ∧ next = .needsOperand (n + 1) ∧ token.isOpen = true := by
  have hsteps := steps limit token scan
  rw [h] at hsteps
  cases hsteps with
  | opens ho _ => exact .inr ⟨_, rfl, rfl, ho⟩
  | number => exact .inl (Nat.le_refl _)
  | sign => exact .inl (Nat.le_refl _)
  | closes => exact .inl (Nat.le_succ _)

theorem goOn_of_opened_le {scan next : Scan} {token : Token}
    (h : scan.step limit token = .goOn next) (hroom : next.opened ≤ bound) :
    scan.step bound token = .goOn next := by
  have hsteps := steps limit token scan
  rw [h] at hsteps
  cases hsteps with
  | opens ho _ => exact step_of_isOpen ho hroom
  | number hint hnum => exact step_of_isInteger hint hnum
  | sign hop => exact step_of_isSign hop
  | closes _ hc => exact step_of_isClose hc

theorem deepest_le_of_walk : ∀ {scan stop : Scan} {tokens : List Token},
    walk limit scan tokens = some stop → scan.opened ≤ limit → deepest scan.opened tokens ≤ limit
  | _, _, [], _, hle => hle
  | scan, stop, token :: tokens, h, hle => by
    obtain ⟨next, hstep, hwalk⟩ := walk_cons_eq_some_iff.1 h
    have hnext : next.opened ≤ limit := by
      have hsteps := steps limit token scan
      rw [hstep] at hsteps
      cases hsteps with
      | opens _ hlt => exact hlt
      | number => exact hle
      | sign => exact hle
      | closes => exact Nat.le_of_succ_le hle
    rw [deepest, ← opened_of_goOn hstep]
    exact Nat.max_le.2 ⟨hle, deepest_le_of_walk hwalk hnext⟩

theorem opened_le_of_walk {scan stop : Scan} {tokens : List Token}
    (h : walk limit scan tokens = some stop) (hle : scan.opened ≤ limit) : stop.opened ≤ limit := by
  have hdeepest := groupsOpen_le_deepest scan.opened tokens []
  rw [List.append_nil, ← opened_of_walk h] at hdeepest
  exact Nat.le_trans hdeepest (deepest_le_of_walk h hle)

/-- **A scan that gets deeper than a lower limit has come to a first token that is too deep for it**,
and goes on under the lower limit as far as that. -/
theorem exists_first_deeper : ∀ {scan stop : Scan} {tokens : List Token},
    walk limit scan tokens = some stop → scan.opened ≤ bound → bound < stop.opened →
    ∃ before token after, tokens = before ++ token :: after ∧ token.isOpen = true ∧
      walk bound scan before = some (.needsOperand bound)
  | scan, stop, [], h, hle, hlt => by
    rw [walk, Option.some.injEq] at h
    rw [h] at hle
    exact absurd hlt (Nat.not_lt.2 hle)
  | scan, stop, token :: tokens, h, hle, hlt => by
    obtain ⟨next, hstep, hwalk⟩ := walk_cons_eq_some_iff.1 h
    by_cases hnext : next.opened ≤ bound
    · obtain ⟨before, found, after, rfl, ho, hbefore⟩ := exists_first_deeper hwalk hnext hlt
      refine ⟨token :: before, found, after, rfl, ho, ?_⟩
      rw [walk_of_goOn (goOn_of_opened_le hstep hnext)]
      exact hbefore
    · -- it is this token that goes too deep, and then as many groups are open as the bound allows
      rcases opened_le_or_opens hstep with hdown | ⟨n, rfl, rfl, ho⟩
      · exact absurd (Nat.le_trans hdown hle) hnext
      · have hle : n ≤ bound := hle
        have hn : n = bound := Nat.le_antisymm hle (Nat.le_of_lt_succ (Nat.lt_of_not_le hnext))
        exact ⟨[], token, tokens, rfl, ho, by rw [hn, walk]⟩

end Scan

/-! ### Two limits -/

theorem Expr.Paired.eq {e e' : Expr} (h : e.Paired Eq e') : e = e' := by
  induction h with
  | number hab => rw [hab]
  | binary hab _ _ _ ihleft ihright => rw [hab, ihleft, ihright]

section Limits

variable {tokens : List Token} {file : String} {low high : Nat}

theorem OpensAtMost.sameRoom (hlt : low < high) (h : OpensAtMost tokens file high low) :
    SameRoom low (.phrase .sum, start tokens file high) := by
  intro p hcalls ho
  obtain ⟨-, -, -, hlimit, -⟩ := reaches_of_calls hcalls
  have hlimit : p.limit = high := hlimit
  have hdepth := h .operand p hcalls
  have hroom : p.depth < p.limit := by omega
  refine .inr ⟨hroom, Nat.lt_of_le_of_ne hdepth fun hfull => ?_⟩
  -- the group that starts here would be one too many
  have hopen : p.openGroup = .ok p.inside := by
    rw [openGroup_eq ho, if_neg (Nat.not_le.2 hroom)]
  have hinside : p.depth + 1 ≤ low := h _ p.inside (hcalls.tail (.inside ho hopen))
  omega

/-- If no group is too deep for the lower limit, both parses end with the same index, the same number
of nodes and the same result. -/
theorem parse_result_eq_of_opensAtMost (hlt : low < high) (h : OpensAtMost tokens file high low) :
    (parse tokens file low).result = (parse tokens file high).result ∧
    (parse tokens file low).parser.built = (parse tokens file high).parser.built ∧
    (parse tokens file low).parser.cursor.index = (parse tokens file high).parser.cursor.index := by
  have halike : ∀ a b : Token, a = b → a.Alike b := by
    rintro a _ rfl
    exact Token.Alike.refl a
  have hstart : (start tokens file high).Beside Eq low (start tokens file low) :=
    ⟨rfl, List.forall₂_refl _, rfl, rfl, rfl, rfl⟩
  obtain ⟨hbuilt, hindex, hresult⟩ := parse_beside halike hstart (h.sameRoom hlt)
  refine ⟨?_, hbuilt.symm, hindex.symm⟩
  generalize hhigh : (parse tokens file high).result = result,
    hlow : (parse tokens file low).result = result' at hresult ⊢
  cases hresult with
  | ok hpaired => rw [hpaired.eq]
  | error =>
    -- the token at which they report the fault is the same
    obtain ⟨i, token, other, hi, hi', hposition, hposition'⟩ :=
      exists_rejected_both hhigh hlow hindex
    rw [hi, Option.some.injEq] at hi'
    rw [hposition, hposition', hi']

/-- If some group is too deep for the lower limit, there is a first one, and up to the token that opens
it the parse under the higher limit has no more groups open. -/
theorem exists_firstTooDeep (h : ¬ OpensAtMost tokens file high low) :
    ∃ before token after, tokens = before ++ token :: after ∧ FirstTooDeep low before token ∧
      Scan.walk low (.needsOperand 0) before = some (.needsOperand low) ∧
      ∀ (g : Goal) (q : Parser),
        Relation.ReflTransGen Calls (.phrase .sum, start tokens file high) (g, q) →
        low < q.depth → before.length < q.cursor.index := by
  simp only [OpensAtMost, not_forall, Nat.not_le] at h
  obtain ⟨g, q, hcalls, hdeep⟩ := h
  obtain ⟨taken, hahead, -, -, hwalk⟩ := reaches_of_calls hcalls
  have hahead : (Cursor.ofTokens tokens file).ahead = taken ++ q.cursor.ahead := hahead
  have hwalk : Scan.walk high (.needsOperand 0) taken = some (g.entry q.depth) := hwalk
  obtain ⟨before, token, after, rfl, ho, hbefore⟩ := Scan.exists_first_deeper hwalk
    (Nat.zero_le low) (by rw [Scan.opened_entry]; exact hdeep)
  have hfirst : FirstTooDeep low before token :=
    ⟨ho, (Scan.opened_of_walk hbefore).symm, Scan.deepest_le_of_walk hbefore (Nat.zero_le low)⟩
  have hsplit : tokens = before ++ token :: (after ++ q.cursor.ahead ++
      tokens.dropWhile fun token => !token.isEnd) := by
    conv => lhs; rw [← List.takeWhile_append_dropWhile (p := fun token : Token => !token.isEnd)
      (l := tokens), ← Cursor.ahead_ofTokens tokens file, hahead]
    simp only [List.append_assoc, List.cons_append]
  refine ⟨before, token, _, hsplit, hfirst, hbefore, fun g' r hcalls' hdeep' => ?_⟩
  obtain ⟨more, hahead', hindex, -, hwalk'⟩ := reaches_of_calls hcalls'
  have hahead' : (Cursor.ofTokens tokens file).ahead = more ++ r.cursor.ahead := hahead'
  have hindex : r.cursor.index = more.length := hindex.trans (Nat.zero_add _)
  have hopened : r.depth = groupsOpen 0 more := by
    have hcount := Scan.opened_of_walk hwalk'
    rwa [Scan.opened_entry] at hcount
  rw [hindex]
  refine Nat.lt_of_not_le fun hle => ?_
  -- the tokens passed would be some of those before, along which no more groups are open
  rw [hahead, List.append_assoc] at hahead'
  obtain ⟨rest, hrest⟩ : ∃ rest, before = more ++ rest := by
    rcases List.append_eq_append_iff.1 hahead' with ⟨rest, hmore, -⟩ | ⟨rest, hbefore, -⟩
    · have hnil : rest = [] := by
        rw [hmore, List.length_append] at hle
        exact List.length_eq_zero_iff.1 (by omega)
      exact ⟨[], by rw [hmore, hnil, List.append_nil, List.append_nil]⟩
    · exact ⟨rest, hbefore⟩
  have hcount := groupsOpen_le_deepest 0 more rest
  have hnesting : deepest 0 before ≤ low := hfirst.nesting_le
  rw [hrest] at hnesting
  omega

/-- **The limit has no other effect than its own error, at exactly the right token.** If a parse
under a higher limit never has more groups open than the lower one allows, then under the lower one
the result is the same expression or the same error, and so are the number of nodes built and the
index of the cursor. Otherwise the parse under the lower limit stops on the first token that opens
one group too many, and reports there that the groups are too deep for the limit, whatever tokens
follow; all that the parse under the higher limit does with more groups open comes after this
token. -/
theorem parse_under_lower_limit (hlt : low < high) :
    (OpensAtMost tokens file high low →
      (parse tokens file low).result = (parse tokens file high).result ∧
      (parse tokens file low).parser.built = (parse tokens file high).parser.built ∧
      (parse tokens file low).parser.cursor.index =
        (parse tokens file high).parser.cursor.index) ∧
    (¬ OpensAtMost tokens file high low →
      ∃ before token after, tokens = before ++ token :: after ∧ FirstTooDeep low before token ∧
        (∀ (g : Goal) (q : Parser),
          Relation.ReflTransGen Calls (.phrase .sum, start tokens file high) (g, q) →
          low < q.depth → before.length < q.cursor.index) ∧
        ∀ (others : List Token) (name : String),
          (parse (before ++ token :: others) name low).result =
            .error ⟨.nestedTooDeep low, token.span.start⟩ ∧
          (parse (before ++ token :: others) name low).parser.cursor.index = before.length ∧
          (parse (before ++ token :: others) name low).parser.current = token) := by
  refine ⟨parse_result_eq_of_opensAtMost hlt, fun hdeep => ?_⟩
  obtain ⟨before, token, after, hsplit, hfirst, hwalk, hlater⟩ := exists_firstTooDeep hdeep
  refine ⟨before, token, after, hsplit, hfirst, hlater, fun others name => ?_⟩
  obtain ⟨more, hterminated⟩ := exists_terminated_append (before ++ token :: others) name
  rw [List.append_assoc, List.cons_append] at hterminated
  have hreject : (Scan.needsOperand low).step low token = .reject (.nestedTooDeep low) := by
    simp [Scan.step, hfirst.isOpen]
  obtain ⟨hresult, hindex⟩ := parse_of_reject hterminated hwalk hreject
  exact ⟨hresult, hindex, parse_current_of_reject hterminated hwalk hreject rfl⟩

/-- The tokens of `(1) * ((2))`. -/
def siblings : List Token :=
  [(0, '('), (1, '1'), (2, ')'), (4, '*'), (6, '('), (7, '('), (8, '2'), (9, ')'), (10, ')')].map
    fun lexeme => lexemeToken "input.txt" lexeme.1 [lexeme.2]

/-- In `(1) * ((2))` the group after the closed one may be open with a limit of 1, and the one in it
may not. -/
theorem parse_under_lower_limit_siblings :
    1 < 2 ∧ ¬ OpensAtMost siblings "input.txt" 2 1 ∧
    ∃ before token after, siblings = before ++ token :: after ∧ FirstTooDeep 1 before token ∧
      (parse siblings "input.txt" 1).result =
        .error ⟨.nestedTooDeep 1, token.span.start⟩ := by
  obtain ⟨hsame, hdeep⟩ := @parse_under_lower_limit siblings "input.txt" 1 2 Nat.one_lt_two
  have hdiffer : (parse siblings "input.txt" 1).result ≠ (parse siblings "input.txt" 2).result := by
    decide +kernel
  have hnot : ¬ OpensAtMost siblings "input.txt" 2 1 := fun h => hdiffer (hsame h).1
  obtain ⟨before, token, after, hsplit, hfirst, -, hstop⟩ := hdeep hnot
  obtain ⟨hresult, -, -⟩ := hstop after "input.txt"
  rw [← hsplit] at hresult
  exact ⟨Nat.one_lt_two, hnot, before, token, after, hsplit, hfirst, hresult⟩

end Limits

end Calculator
