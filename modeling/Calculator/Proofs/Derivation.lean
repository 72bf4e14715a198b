/-
# The parser takes exactly the phrases of the grammar

A run that ends with an expression has taken a phrase of the grammar with that
expression (`Runs.sound`), and a phrase that lies ahead is taken, unless the
token after it would have made it longer (`Derives.phrase_eq`). The grammar is
left-recursive and the parser loops, so the second statement speaks of the loop:
after any phrase of its own the loop is where it would be had it just started
with that phrase as its operand (`Parser.resume`). Both sides keep account of
the groups that may still be opened. The parser is a function, so a phrase of
the grammar has one expression: no argument about ambiguity is needed, even for
tokens that are integers and operators at once.

Key definitions: `Goal.Yields`, `Parser.resume`.
Key theorems: `Runs.sound`, `Derives.phrase_eq`, `parse_eq_ok_iff_derives`.
-/
import Calculator.Parser.Parse
import Calculator.Proofs.Runs

namespace Calculator

open Calculator.Parser

/-! ### What is taken is a phrase -/

/-- The tokens are what the goal has to take, and they make the expression. What follows an operand
has to make it so after every phrase of that operand. -/
def Goal.Yields (limit : Nat) (taken : List Token) (e : Expr) : Goal → Prop
  | phrase rule => Derives rule limit taken e
  | chain rule left => ∀ before, Derives rule limit before left →
      Derives rule limit (before ++ taken) e
  | operand => Derives .atom limit taken e

theorem leaf_sound {p : Parser} {e : Expr} (h : p.leaf.result = .ok e) :
    Took p [p.current] p.leaf.parser ∧ Derives .atom (p.limit - p.depth) [p.current] e := by
  obtain ⟨value, hint, hnum, rfl, hleaf⟩ := exists_of_leaf_eq_ok h
  rw [hleaf]
  exact ⟨(Took.past (Token.isEnd_eq_false_of_isInteger hint)).withNode, .number hint hnum⟩

/-- A run that ends with an expression has taken tokens that make it. -/
theorem Runs.sound {g : Goal} {p : Parser} {out : Outcome} (h : Runs g p out) :
    ∀ e, out.result = .ok e →
      ∃ taken, Took p taken out.parser ∧ g.Yields (p.limit - p.depth) taken e := by
  induction h with
  | atom _ ih =>
    intro e he
    obtain ⟨taken, htook, hyields⟩ := ih e he
    exact ⟨taken, htook.of_visit, hyields⟩
  | noOperand => intro _ he; cases he
  | @phrase rule tighter p q left out hr _ _ ihfirst ihrest =>
    intro e he
    obtain ⟨first, hfirst, hleft⟩ := ihfirst left rfl
    obtain ⟨rest, hrest, hyields⟩ := ihrest e he
    rw [hfirst.limit, hfirst.depth] at hyields
    exact ⟨first ++ rest, hfirst.of_visit.trans hrest, hyields first (.single hr hleft)⟩
  | @stop rule left p =>
    intro e he
    cases he
    exact ⟨[], Took.refl p, fun before hbefore => by rwa [List.append_nil]⟩
  | noRight => intro _ he; cases he
  | @right rule tighter op left right p q out hr ho hs _ _ ihright ihrest =>
    intro e he
    have hsign := Took.past (Token.isEnd_eq_false_of_isSign hs)
    obtain ⟨after, hafter, hright⟩ := ihright right rfl
    obtain ⟨rest, hrest, hyields⟩ := ihrest e he
    have hq := hsign.trans hafter.withNode
    rw [hq.limit, hq.depth] at hyields
    refine ⟨[p.current] ++ after ++ rest, hq.trans hrest, fun before hbefore => ?_⟩
    have := hyields (before ++ p.current :: after) (.binary hr ho hs hbefore hright)
    simpa using this
  | leaf =>
    intro e he
    exact ⟨_, leaf_sound he⟩
  | tooDeep => intro _ he; cases he
  | noSum => intro _ he; cases he
  | @group p q e ho hlt _ ih =>
    intro _ he
    obtain ⟨taken, htook, hsum⟩ := ih e rfl
    rw [closeGroup_eq] at he ⊢
    by_cases hc : q.current.isClose = true
    · rw [if_pos hc] at he ⊢
      cases he
      have hroom : p.limit - p.depth = p.inside.limit - p.inside.depth + 1 := by
        show p.limit - p.depth = p.limit - (p.depth + 1) + 1
        omega
      refine ⟨_, Took.group ho htook hc, ?_⟩
      rw [hroom]
      exact .group ho hc hsum
    · rw [if_neg hc] at he
      cases he

/-! ### A phrase that lies ahead is taken -/

/-- Goes on with a phrase of the rule, of which `left` has been taken. -/
def Parser.resume (p : Parser) (rule : Rule) (left : Expr) : Outcome :=
  match rule.operand? with
  | none => ⟨p, .ok left⟩
  | some tighter => p.chain rule.operators tighter left

theorem Parser.resume_eq {rule tighter : Rule} (hr : rule.operand? = some tighter) (p : Parser)
    (left : Expr) : p.resume rule left = p.chain rule.operators tighter left := by
  rw [resume, hr]

theorem Parser.resume_of_stops {rule : Rule} {p : Parser} (h : rule.Stops p.current) (left : Expr) :
    p.resume rule left = ⟨p, .ok left⟩ := by
  cases hr : rule.operand? with
  | none => rw [resume, hr]
  | some tighter =>
    have hno : p.takeOperator? rule.operators = none :=
      takeOperator?_eq_none_iff.2 fun op ho => h op ((Rule.mem_signs_iff hr op).2 (.inl ho))
    rw [resume_eq hr, chain_eq, hno]

theorem Rule.Stops.tighter {rule tighter : Rule} (hr : rule.operand? = some tighter) {token : Token}
    (h : rule.Stops token) : tighter.Stops token :=
  fun op ho => h op ((Rule.mem_signs_iff hr op).2 (.inr ho))

theorem Parser.resume_of_isSign {rule tighter : Rule} (hr : rule.operand? = some tighter)
    {op : Operator} (ho : op ∈ rule.operators) {p : Parser} (hs : p.current.isSign op = true)
    (left : Expr) : p.resume rule left = (p.past.phrase tighter).andThen fun right q =>
      q.withNode.resume rule (.binary op left right p.current.span) := by
  have hnext : (fun right q => Parser.resume (withNode q) rule
      (.binary op left right p.current.span)) = fun right q =>
        (withNode q).chain rule.operators tighter (.binary op left right p.current.span) :=
    funext fun right => funext fun q => resume_eq hr _ _
  rw [hnext, resume_eq hr, chain_eq, takeOperator?_of_isSign ho hs]
  rfl

theorem Parser.phrase_of_isInteger {p : Parser} (hint : p.current.isInteger = true) {value : Int64}
    (hnum : p.current.number = some value) :
    p.phrase .atom =
      ⟨(p.visit .atom).past.withNode, .ok (.number value p.current.span)⟩ := by
  have hopen : (p.visit .atom).current.isOpen = false := Token.isMark_eq_false_of_isInteger hint _
  have hend : (p.visit .atom).current.isEnd = false := Token.isEnd_eq_false_of_isInteger hint
  have hint : (p.visit .atom).current.isInteger = true := hint
  have hnum : (p.visit .atom).current.number = some value := hnum
  rw [phrase_atom, operand_eq, hopen, leaf_eq, hend, hint, hnum]
  rfl

theorem Parser.phrase_of_isOpen {p : Parser} (ho : p.current.isOpen = true)
    (hlt : p.depth < p.limit) :
    p.phrase .atom = ((p.visit .atom).inside.phrase .sum).andThen closeGroup := by
  have ho : (p.visit .atom).current.isOpen = true := ho
  have hroom : ¬ (p.visit .atom).limit ≤ (p.visit .atom).depth := Nat.not_le.2 hlt
  rw [phrase_atom, operand_eq, ho, if_pos rfl, openGroup_eq ho, if_neg hroom]

theorem Took.current_eq {p q : Parser} {tokens rest : List Token} (h : Took p tokens q)
    (hp : p.cursor.ahead = tokens ++ rest) :
    q.cursor.ahead = rest ∧ q.current = rest.headD p.cursor.last := by
  have hrest : q.cursor.ahead = rest := List.append_cancel_left (h.ahead.symm.trans hp)
  refine ⟨hrest, ?_⟩
  show q.cursor.ahead.headD q.cursor.last = _
  rw [hrest, h.last]

theorem Parser.ahead_past {p : Parser} {token : Token} {tokens : List Token}
    (h : p.cursor.ahead = token :: tokens) : p.past.cursor.ahead = tokens := by
  show p.cursor.ahead.drop 1 = tokens
  rw [h]
  rfl

/-- **A phrase of the grammar that lies ahead is taken**, and the parser is where it goes on with
that phrase. The token after it must not belong to a tighter phrase, which would be longer. -/
theorem Derives.phrase_eq {rule : Rule} {limit : Nat} {tokens : List Token} {e : Expr}
    (h : Derives rule limit tokens e) : ∀ {p : Parser} {rest : List Token},
    p.cursor.ahead = tokens ++ rest → limit ≤ p.limit - p.depth →
    (∀ tighter, rule.operand? = some tighter → tighter.Stops (rest.headD p.cursor.last)) →
    ∃ q, Took p tokens q ∧ p.phrase rule = q.resume rule e := by
  induction h with
  | @number limit token value hint hnum =>
    intro p rest hp _ _
    have hcur : p.current = token := current_of_ahead hp
    subst hcur
    have hpast : Took (p.visit .atom) [p.current] (p.visit .atom).past :=
      Took.past (Token.isEnd_eq_false_of_isInteger hint)
    exact ⟨_, hpast.withNode.of_visit, phrase_of_isInteger hint hnum⟩
  | @group limit first last tokens e ho hc _ ih =>
    intro p rest hp hroom _
    have hcur : p.current = first := current_of_ahead hp
    subst hcur
    have hlt : p.depth < p.limit := by omega
    have hinside : (p.visit .atom).inside.cursor.ahead = tokens ++ (last :: rest) := by
      exact (ahead_past hp).trans (List.append_assoc tokens [last] rest)
    have hroom' : limit ≤ p.limit - (p.depth + 1) := by omega
    obtain ⟨q, htook, hphrase⟩ := ih hinside hroom' fun tighter _ => Rule.stops_of_isClose _ hc
    have hqcur : q.current = last := (htook.current_eq hinside).2
    subst hqcur
    refine ⟨q.past.exitGroup, (Took.group (p := p.visit .atom) ho htook hc).of_visit, ?_⟩
    rw [phrase_of_isOpen ho hlt, hphrase, resume_of_stops (Rule.stops_of_isClose _ hc)]
    show q.closeGroup e = _
    rw [closeGroup_eq, if_pos hc]
    rfl
  | @single rule tighter limit tokens e hr _ ih =>
    intro p rest hp hroom hstops
    have hnext := hstops tighter hr
    obtain ⟨q, htook, hphrase⟩ := ih (p := p.visit rule) hp hroom fun other hother =>
      hnext.tighter hother
    have hqcur := (htook.current_eq hp).2
    refine ⟨q, htook.of_visit, ?_⟩
    rw [phrase_chain hr, hphrase, resume_of_stops (by rw [hqcur]; exact hnext), resume_eq hr]
    rfl
  | @binary rule tighter limit op token before after left right hr ho hs _ _ ihl ihr =>
    intro p rest hp hroom hstops
    have hnext := hstops tighter hr
    have hp' : p.cursor.ahead = before ++ token :: (after ++ rest) := by
      rw [hp, List.append_assoc, List.cons_append]
    obtain ⟨q, hbefore, hphrase⟩ := ihl hp' hroom fun other hother => by
      rw [hr] at hother
      cases hother
      exact Rule.stops_of_isSign hr ho hs
    obtain ⟨hq, hqcur⟩ := hbefore.current_eq hp'
    have hqcur : q.current = token := hqcur
    subst hqcur
    have hlast : q.past.cursor.last = p.cursor.last := hbefore.last
    have hroom' : limit ≤ q.limit - q.depth := by rw [hbefore.limit, hbefore.depth]; exact hroom
    obtain ⟨r, hafter, hright⟩ := ihr (ahead_past hq) hroom' fun other hother => by
      rw [hlast]
      exact hnext.tighter hother
    have hrcur := (hafter.current_eq (ahead_past hq)).2
    rw [hlast] at hrcur
    have hsign := Took.past (Token.isEnd_eq_false_of_isSign hs)
    refine ⟨r.withNode, hbefore.trans (hsign.trans hafter.withNode), ?_⟩
    rw [hphrase, resume_of_isSign hr ho hs, hright, resume_of_stops (by rw [hrcur]; exact hnext)]
    rfl

/-! ### A whole input -/

/-- The tokens before the first end of input are those a parse can reach. -/
theorem Cursor.ahead_ofTokens (tokens : List Token) (file : String) :
    (Cursor.ofTokens tokens file).ahead = tokens.takeWhile fun token => !token.isEnd := by
  show (Token.terminated tokens file).takeWhile _ = _
  unfold Token.terminated
  split
  · next hnone =>
    rw [List.getLast?_eq_none_iff.1 hnone]
    rfl
  · split
    · rfl
    · next last _ _ =>
      rw [List.takeWhile_append]
      split
      · next hall =>
        rw [(List.takeWhile_prefix _).eq_of_length hall]
        exact List.append_nil tokens
      · rfl

theorem Parser.whole_eq_ok_iff {p : Parser} {e : Expr} :
    p.whole.result = .ok e ↔ ∃ q, p.phrase .sum = ⟨q, .ok e⟩ ∧ q.current.isEnd = true := by
  unfold whole expression Outcome.andThen expectEnd
  refine ⟨?_, ?_⟩
  · intro h
    cases hout : p.phrase .sum with
    | mk q result =>
      rw [hout] at h
      cases result with
      | error error => cases h
      | ok other =>
        by_cases hend : q.cursor.atEnd = true
        · simp only [hend] at h
          cases h
          exact ⟨q, rfl, hend⟩
        · simp only [hend] at h
          cases h
  · intro h
    obtain ⟨q, hout, hend⟩ := h
    have hend : q.cursor.atEnd = true := hend
    rw [hout]
    simp only [hend]
    rfl

theorem parse_sound {tokens : List Token} {file : String} {limit : Nat} {root : Expr}
    (h : (parse tokens file limit).result = .ok root) :
    Derives .sum limit (tokens.takeWhile fun token => !token.isEnd) root := by
  obtain ⟨q, hout, hend⟩ := whole_eq_ok_iff.1 h
  have hruns := runs_phrase .sum (start tokens file limit)
  rw [hout] at hruns
  obtain ⟨taken, htook, hyields⟩ := hruns.sound root rfl
  have hall : (Cursor.ofTokens tokens file).ahead = taken ++ q.cursor.ahead := htook.ahead
  rw [(current_isEnd_iff q).1 hend, List.append_nil, Cursor.ahead_ofTokens] at hall
  rw [hall]
  exact hyields

theorem parse_complete {tokens : List Token} {limit : Nat} {root : Expr}
    (h : Derives .sum limit (tokens.takeWhile fun token => !token.isEnd) root) (file : String) :
    (parse tokens file limit).result = .ok root := by
  have hahead : (start tokens file limit).cursor.ahead =
      (tokens.takeWhile fun token => !token.isEnd) ++ [] := by
    rw [List.append_nil]
    exact Cursor.ahead_ofTokens tokens file
  have hlast := (start tokens file limit).cursor.isEnd_last
  obtain ⟨q, htook, hphrase⟩ := h.phrase_eq hahead (Nat.le_refl limit) fun tighter _ =>
    Rule.stops_of_isEnd tighter hlast
  have hend : q.current.isEnd = true := by
    rw [(htook.current_eq hahead).2]
    exact hlast
  refine whole_eq_ok_iff.2 ⟨q, ?_, hend⟩
  rw [hphrase, resume_of_stops (Rule.stops_of_isEnd _ hend)]

/-- **The parser accepts its grammar and builds its tree.** A list of tokens parses into an
expression exactly if the tokens before the first end of input are a sum with that expression in
which at most `limit` groups are open at once; and they are a sum with no other expression, under
any limit. -/
theorem parse_eq_ok_iff_derives (tokens : List Token) (file : String) (limit : Nat) (root : Expr) :
    ((parse tokens file limit).result = .ok root ↔
      Derives .sum limit (tokens.takeWhile fun token => !token.isEnd) root) ∧
    ∀ otherLimit other, Derives .sum limit (tokens.takeWhile fun token => !token.isEnd) root →
      Derives .sum otherLimit (tokens.takeWhile fun token => !token.isEnd) other →
      root = other := by
  refine ⟨⟨parse_sound, fun h => parse_complete h file⟩, fun otherLimit other h hother => ?_⟩
  have hroot := parse_complete (h.mono (Nat.le_max_left limit otherLimit)) file
  have hother := parse_complete (hother.mono (Nat.le_max_right limit otherLimit)) file
  rw [hroot, Except.ok.injEq] at hother
  exact hother

end Calculator
