/-
# What a run does to a parser

A run moves past tokens whether it ends with an expression or with an error, and
the two counters of the parser follow these tokens (`Runs.accounts`). A group is
opened at each token that opens one and closed at each that closes one; since the
run closes only groups that it has opened itself (`ClosesOwn`), no subtraction
stops at zero and the count is exact (`groupsOpen_add_countP`). An error leaves the
groups around it open. For each node that is built a token has been passed.

Key definitions: `ClosesOwn`, `Moved`, `Accounts`.
Key theorems: `groupsOpen_add_countP`, `Runs.accounts`, `Runs.moved`.
-/
import Calculator.Proofs.Walk

namespace Calculator

open Calculator.Parser

/-! ### Groups that are closed by what opened them -/

/-- However many of the tokens are taken, no more groups are closed by them than were opened. -/
def ClosesOwn (tokens : List Token) : Prop :=
  ∀ n, (tokens.take n).countP Token.isClose ≤ (tokens.take n).countP Token.isOpen

namespace ClosesOwn

variable {first last : Token} {tokens others : List Token}

theorem nil : ClosesOwn [] := fun n => by simp

theorem singleton (h : first.isClose = false) : ClosesOwn [first] := by
  intro n
  cases n with
  | zero => exact Nat.le_refl 0
  | succ n => simp [h]

theorem append (h : ClosesOwn tokens) (h' : ClosesOwn others) : ClosesOwn (tokens ++ others) := by
  intro n
  rw [List.take_append, List.countP_append, List.countP_append]
  exact Nat.add_le_add (h n) (h' _)

theorem countP_le (h : ClosesOwn tokens) :
    tokens.countP Token.isClose ≤ tokens.countP Token.isOpen := by
  have hall := h tokens.length
  rwa [List.take_length] at hall

theorem group (ho : first.isOpen = true) (h : ClosesOwn tokens) (hc : last.isClose = true) :
    ClosesOwn (first :: (tokens ++ [last])) := by
  have hfirst := Token.isClose_eq_false_of_isOpen ho
  have hopened : ClosesOwn (first :: tokens) := (singleton hfirst).append h
  intro n
  rw [← List.cons_append]
  rcases Nat.lt_or_ge (first :: tokens).length n with hwhole | hpart
  · have hlength : (first :: tokens ++ [last]).length ≤ n := by
      rw [List.length_append, List.length_singleton]
      exact hwhole
    have hle := h.countP_le
    rw [List.take_of_length_le hlength]
    simp [hfirst, ho, hc, Token.isOpen_eq_false_of_isClose hc, hle]
  · rw [List.take_append_of_le_length hpart]
    exact hopened n

end ClosesOwn

theorem Token.groupsAfter_add {token : Token} {opened : Nat}
    (h : token.isClose = true → 0 < opened) :
    token.groupsAfter opened + (if token.isClose then 1 else 0) =
      opened + if token.isOpen then 1 else 0 := by
  by_cases ho : token.isOpen = true
  · rw [groupsAfter_of_isOpen ho, isClose_eq_false_of_isOpen ho, ho]
    rfl
  by_cases hc : token.isClose = true
  · have hpos := h hc
    rw [groupsAfter_of_isClose hc, hc, Bool.eq_false_iff.2 ho]
    exact Nat.sub_add_cancel hpos
  · simp [groupsAfter, ho, hc]

/-- **The groups open after tokens are those before, with the opened and without the closed**, if there
is always one open where one is closed. -/
theorem groupsOpen_add_countP : ∀ {opened : Nat} {tokens : List Token},
    (∀ n, (tokens.take n).countP Token.isClose ≤ opened + (tokens.take n).countP Token.isOpen) →
    groupsOpen opened tokens + tokens.countP Token.isClose =
      opened + tokens.countP Token.isOpen
  | _, [], _ => rfl
  | opened, token :: tokens, h => by
    simp only [groupsOpen, List.countP_cons]
    have hfirst : token.isClose = true → 0 < opened := by
      intro hc
      have hone := h 1
      simp [hc, Token.isOpen_eq_false_of_isClose hc] at hone
      exact hone
    have hafter := Token.groupsAfter_add hfirst
    have hslack : ∀ n, (tokens.take n).countP Token.isClose ≤
        token.groupsAfter opened + (tokens.take n).countP Token.isOpen := by
      intro n
      have hn := h (n + 1)
      rw [List.take_succ_cons, List.countP_cons, List.countP_cons] at hn
      omega
    have hrest := groupsOpen_add_countP hslack
    omega

/-! ### What a run moves past -/

/-- The parser `q` is the parser `p` after the tokens `taken`, with the groups open that are open
after them. -/
structure Moved (p : Parser) (taken : List Token) (q : Parser) : Prop where
  ahead : p.cursor.ahead = taken ++ q.cursor.ahead
  index : q.cursor.index = p.cursor.index + taken.length
  last : q.cursor.last = p.cursor.last
  limit : q.limit = p.limit
  depth : q.depth = groupsOpen p.depth taken

namespace Moved

variable {p q r : Parser} {a b : List Token}

theorem refl (p : Parser) : Moved p [] p := ⟨rfl, rfl, rfl, rfl, rfl⟩

theorem trans (h : Moved p a q) (h' : Moved q b r) : Moved p (a ++ b) r where
  ahead := by rw [h.ahead, h'.ahead, List.append_assoc]
  index := by rw [h'.index, h.index, List.length_append, Nat.add_assoc]
  last := h'.last.trans h.last
  limit := h'.limit.trans h.limit
  depth := by rw [h'.depth, h.depth, groupsOpen_append]

theorem of_visit {rule : Rule} (h : Moved (p.visit rule) a q) : Moved p a q :=
  ⟨h.ahead, h.index, h.last, h.limit, h.depth⟩

theorem past (hend : p.current.isEnd = false) (hgroups : ∀ n, p.current.groupsAfter n = n) :
    Moved p [p.current] p.past :=
  ⟨ahead_eq_cons hend, rfl, rfl, rfl, (hgroups p.depth).symm⟩

theorem past_of_isSign {op : Operator} (hs : p.current.isSign op = true) :
    Moved p [p.current] p.past :=
  past (Token.isEnd_eq_false_of_isSign hs) (Token.groupsAfter_of_isSign hs)

theorem inside (ho : p.current.isOpen = true) : Moved p [p.current] p.inside where
  ahead := ahead_eq_cons (Token.isEnd_eq_false_of_isPunct (Token.isPunct_of_isMark ho))
  index := rfl
  last := rfl
  limit := rfl
  depth := (Token.groupsAfter_of_isOpen ho p.depth).symm

theorem exitGroup (hc : p.current.isClose = true) : Moved p [p.current] p.past.exitGroup where
  ahead := ahead_eq_cons (Token.isEnd_eq_false_of_isPunct (Token.isPunct_of_isMark hc))
  index := rfl
  last := rfl
  limit := rfl
  depth := (Token.groupsAfter_of_isClose hc p.depth).symm

theorem current_eq (h : Moved p a q) {token : Token} {after : List Token}
    (heq : p.cursor.ahead ++ [p.cursor.last] = a ++ token :: after) : q.current = token := by
  rw [h.ahead, List.append_assoc, ← h.last] at heq
  have hrest : q.cursor.ahead ++ [q.cursor.last] = token :: after := List.append_cancel_left heq
  show q.cursor.ahead.headD q.cursor.last = token
  cases hahead : q.cursor.ahead with
  | nil =>
    rw [hahead] at hrest
    exact (List.cons.inj hrest).1
  | cons first tokens =>
    rw [hahead] at hrest
    exact (List.cons.inj hrest).1

end Moved

/-! ### What a run does to the counters -/

/-- The parser `q` is the parser `p` after the tokens `taken`, and its counters agree with them. -/
structure Accounts (p : Parser) (taken : List Token) (q : Parser) : Prop extends Moved p taken q where
  closesOwn : ClosesOwn taken
  depth_le : p.depth ≤ p.limit → q.depth ≤ p.limit
  built_le : p.built ≤ q.built
  built_le_add : q.built ≤ p.built + taken.length

namespace Accounts

variable {p q r : Parser} {a b : List Token}

theorem refl (p : Parser) : Accounts p [] p :=
  ⟨Moved.refl p, .nil, id, Nat.le_refl _, Nat.le_refl _⟩

theorem trans (h : Accounts p a q) (h' : Accounts q b r) : Accounts p (a ++ b) r where
  toMoved := h.toMoved.trans h'.toMoved
  closesOwn := h.closesOwn.append h'.closesOwn
  depth_le hle := by
    have hlimit : q.limit = p.limit := h.limit
    have hdepth := h'.depth_le
    rw [hlimit] at hdepth
    exact hdepth (h.depth_le hle)
  built_le := Nat.le_trans h.built_le h'.built_le
  built_le_add := by
    have hfirst := h.built_le_add
    have hrest := h'.built_le_add
    rw [List.length_append]
    omega

theorem of_visit {rule : Rule} (h : Accounts (p.visit rule) a q) : Accounts p a q :=
  ⟨h.toMoved.of_visit, h.closesOwn, h.depth_le, h.built_le, h.built_le_add⟩

theorem withNode (h : Accounts p a q) (hlt : q.built < p.built + a.length) :
    Accounts p a q.withNode where
  toMoved := ⟨h.ahead, h.index, h.last, h.limit, h.depth⟩
  closesOwn := h.closesOwn
  depth_le := h.depth_le
  built_le := Nat.le_succ_of_le h.built_le
  built_le_add := hlt

theorem of_moved_past (h : Moved p [p.current] p.past) (hclose : p.current.isClose = false) :
    Accounts p [p.current] p.past :=
  ⟨h, .singleton hclose, id, Nat.le_refl _, Nat.le_succ _⟩

theorem past_of_isSign {op : Operator} (hs : p.current.isSign op = true) :
    Accounts p [p.current] p.past := by
  refine of_moved_past (Moved.past_of_isSign hs) (Bool.eq_false_iff.2 fun hc => ?_)
  rw [Token.isSign_eq_false_of_isMark (.inr rfl) hc] at hs
  cases hs

theorem past_of_isInteger (hint : p.current.isInteger = true) :
    Accounts p [p.current] p.past :=
  of_moved_past (Moved.past (Token.isEnd_eq_false_of_isInteger hint)
    (Token.groupsAfter_of_isInteger hint)) (Token.isMark_eq_false_of_isInteger hint _)

theorem inside (ho : p.current.isOpen = true) (hlt : p.depth < p.limit) :
    Accounts p [p.current] p.inside :=
  ⟨Moved.inside ho, .singleton (Token.isClose_eq_false_of_isOpen ho), fun _ => hlt,
    Nat.le_refl _, Nat.le_succ _⟩

theorem group (ho : p.current.isOpen = true) (hlt : p.depth < p.limit)
    (h : Accounts p.inside a q) (hc : q.current.isClose = true) :
    Accounts p (p.current :: (a ++ [q.current])) q.past.exitGroup where
  toMoved := ((Moved.inside ho).trans h.toMoved).trans (Moved.exitGroup hc)
  closesOwn := .group ho h.closesOwn hc
  depth_le hle := Nat.le_trans (Nat.sub_le _ _) (h.depth_le hlt)
  built_le := h.built_le
  built_le_add := by
    have hadd : q.built ≤ p.built + a.length := h.built_le_add
    show q.built ≤ _
    rw [List.length_cons, List.length_append]
    omega

end Accounts

theorem leaf_accounts (p : Parser) : ∃ taken, Accounts p taken p.leaf.parser := by
  rw [leaf_eq]
  by_cases hend : p.current.isEnd = true
  · rw [if_pos hend]
    exact ⟨[], .refl p⟩
  rw [if_neg hend]
  by_cases hint : p.current.isInteger = true
  · rw [if_pos hint]
    have hpast := Accounts.past_of_isInteger hint
    cases p.current.number with
    | none => exact ⟨_, hpast⟩
    | some value => exact ⟨_, hpast.withNode (Nat.lt_succ_self _)⟩
  · rw [if_neg hint]
    exact ⟨[], .refl p⟩

/-- **Every run keeps the accounts**, also one that fails. -/
theorem Runs.accounts {g : Goal} {p : Parser} {out : Outcome} (h : Runs g p out) :
    ∃ taken, Accounts p taken out.parser := by
  induction h with
  | atom _ ih =>
    obtain ⟨taken, haccounts⟩ := ih
    exact ⟨taken, haccounts.of_visit⟩
  | noOperand _ _ ih =>
    obtain ⟨taken, haccounts⟩ := ih
    exact ⟨taken, haccounts.of_visit⟩
  | phrase _ _ _ ihfirst ihrest =>
    obtain ⟨first, hfirst⟩ := ihfirst
    obtain ⟨rest, hrest⟩ := ihrest
    exact ⟨first ++ rest, hfirst.of_visit.trans hrest⟩
  | @stop _ _ p => exact ⟨[], .refl p⟩
  | noRight _ _ hs _ ih =>
    obtain ⟨after, hafter⟩ := ih
    exact ⟨_, (Accounts.past_of_isSign hs).trans hafter⟩
  | @right _ _ _ _ _ p q _ _ _ hs _ _ ihright ihrest =>
    obtain ⟨after, hafter⟩ := ihright
    obtain ⟨rest, hrest⟩ := ihrest
    have hafter : Accounts p.past after q := hafter
    -- the operand has no more nodes than tokens, so the sign is left for the operator's node
    have hlt : q.built < p.built + ([p.current] ++ after).length := by
      have hadd : q.built ≤ p.built + after.length := hafter.built_le_add
      rw [List.singleton_append, List.length_cons]
      omega
    exact ⟨_, (((Accounts.past_of_isSign hs).trans hafter).withNode hlt).trans hrest⟩
  | leaf => exact leaf_accounts _
  | @tooDeep p => exact ⟨[], .refl p⟩
  | noSum ho hlt _ ih =>
    obtain ⟨taken, haccounts⟩ := ih
    exact ⟨_, (Accounts.inside ho hlt).trans haccounts⟩
  | @group p q e ho hlt _ ih =>
    obtain ⟨taken, haccounts⟩ := ih
    rw [closeGroup_eq]
    by_cases hc : q.current.isClose = true
    · rw [if_pos hc]
      exact ⟨_, haccounts.group ho hlt hc⟩
    · rw [if_neg hc]
      exact ⟨_, (Accounts.inside ho hlt).trans haccounts⟩

/-- Every run moves forward and has the groups open that its tokens leave open. -/
theorem Runs.moved {g : Goal} {p : Parser} {out : Outcome} (h : Runs g p out) :
    ∃ taken, Moved p taken out.parser := by
  obtain ⟨taken, haccounts⟩ := h.accounts
  exact ⟨taken, haccounts.toMoved⟩

end Calculator
