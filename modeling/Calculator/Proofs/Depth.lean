/-
# The groups open

The depth of a parser is the number of the groups it has open. Whatever it is asked
for in whatever order, and also on the way through a rule, the depth never passes the
limit (`Parser.ReachedIn.depth_le`). A call of a rule changes it by the groups that the
consumed tokens open and close, whether it succeeds or fails; if it succeeds, the two
are as many, and at no point of the way more are closed than opened
(`depth_counts_open_groups`).

Key definitions: `Parser.consumed`, `BalancesGroups`, `Parser.CountsGroups`.
Key theorems: `Parser.ReachedIn.depth_le`, `Parser.ReachedIn.accounts`,
`depth_counts_open_groups`.
-/
import Calculator.Proofs.Limits
import Calculator.Proofs.Midstream

namespace Calculator

open Calculator.Parser

/-! ### The limit is never passed -/

namespace Parser

/-- No operation takes the depth past the limit. -/
theorem depth_perform_le {p : Parser} (hle : p.depth ≤ p.limit) (op : Operation) :
    (p.perform op).2.depth ≤ p.limit := by
  cases op with
  | cursor op => exact hle
  | phrase rule =>
    obtain ⟨taken, haccounts⟩ := (runs_phrase rule p).accounts
    exact haccounts.depth_le hle
  | enterGroup position =>
    rw [perform_enterGroup]
    split
    · exact hle
    · next hroom => exact Nat.lt_of_not_le hroom
  | exitGroup => exact Nat.le_trans (Nat.sub_le _ _) hle
  | expectEnd => exact hle
  | makeNumber value span => exact hle
  | makeBinary op left right span => exact hle

theorem depth_after_le : ∀ {p : Parser}, p.depth ≤ p.limit → ∀ operations : List Operation,
    (p.after operations).depth ≤ p.limit
  | _, hle, [] => hle
  | p, hle, op :: operations => by
    have hlimit : (p.perform op).2.limit = p.limit := (p.forward_perform op).2
    have hfirst : (p.perform op).2.depth ≤ (p.perform op).2.limit := by
      rw [hlimit]
      exact depth_perform_le hle op
    have hrest := depth_after_le hfirst operations
    rw [hlimit] at hrest
    exact hrest

end Parser

/-- Where a rule takes up something in its turn, no more groups are open than the limit allows. -/
theorem Reaches.depth_le {a b : Goal × Parser} (h : Reaches a b) (hle : a.2.depth ≤ a.2.limit) :
    b.2.depth ≤ a.2.limit := by
  obtain ⟨taken, -, -, -, hwalk⟩ := h
  have hopened := Scan.opened_le_of_walk hwalk
  rw [Scan.opened_entry, Scan.opened_entry] at hopened
  exact hopened hle

namespace Parser.ReachedIn

variable {tokens : List Token} {file : String} {limit : Nat} {p : Parser}

/-- **No state has more groups open than the limit allows.** -/
theorem depth_le (h : p.ReachedIn tokens file limit) : p.depth ≤ limit := by
  obtain ⟨operations, rule, g, hcalls⟩ := h
  have hlimit : ((start tokens file limit).after operations).limit = limit :=
    (forward_after (start tokens file limit) operations).2
  have hstart : ((start tokens file limit).after operations).depth ≤
      ((start tokens file limit).after operations).limit := by
    rw [hlimit]
    exact depth_after_le (Nat.zero_le limit) operations
  have hdepth := (reaches_of_calls hcalls).depth_le hstart
  rwa [hlimit] at hdepth

end Parser.ReachedIn

/-! ### The tokens that a call consumes -/

/-- The tokens of the list that the rule moves past. -/
def Parser.consumed (tokens : List Token) (p : Parser) (rule : Rule) : List Token :=
  tokens.extract p.cursor.index (p.phrase rule).parser.cursor.index

namespace Parser.ReachedIn

variable {tokens : List Token} {file : String} {limit : Nat} {p : Parser}

theorem consumed_eq (h : p.ReachedIn tokens file limit) {rule : Rule} {taken rest : List Token}
    (hahead : p.cursor.ahead = taken ++ rest)
    (hindex : (p.phrase rule).parser.cursor.index = p.cursor.index + taken.length) :
    p.consumed (Token.terminated tokens file) rule = taken := by
  rw [consumed, hindex]
  exact h.standsIn.extract_eq hahead

/-- A rule keeps the accounts with the tokens that it consumes. -/
theorem accounts (h : p.ReachedIn tokens file limit) (rule : Rule) :
    Accounts p (p.consumed (Token.terminated tokens file) rule) (p.phrase rule).parser := by
  obtain ⟨taken, haccounts⟩ := (runs_phrase rule p).accounts
  rw [h.consumed_eq haccounts.ahead haccounts.index]
  exact haccounts

theorem derives (h : p.ReachedIn tokens file limit) {rule : Rule} {e : Expr}
    (he : (p.phrase rule).result = .ok e) :
    Derives rule (limit - p.depth) (p.consumed (Token.terminated tokens file) rule) e := by
  obtain ⟨taken, htook, hderives⟩ := (runs_phrase rule p).sound e he
  rw [h.consumed_eq htook.ahead htook.index, ← h.limit_eq]
  exact hderives

end Parser.ReachedIn

/-! ### The groups of a call -/

/-- The outcome of a rule that is called in the state `p` agrees with the groups that the consumed
tokens open and close. -/
structure BalancesGroups (p : Parser) (consumed : List Token) (out : Outcome) : Prop where
  /-- The depth is the one before, with the opened groups and without the closed ones. -/
  depth_add : out.parser.depth + consumed.countP Token.isClose =
    p.depth + consumed.countP Token.isOpen
  /-- No group is closed that was opened before. -/
  countP_take_le : ∀ n, (consumed.take n).countP Token.isClose ≤
    (consumed.take n).countP Token.isOpen
  /-- A rule that succeeds has closed all that it has opened. -/
  of_ok : ∀ e, out.result = .ok e →
    consumed.countP Token.isClose = consumed.countP Token.isOpen ∧ out.parser.depth = p.depth

/-- The depth of the parser is the number of the groups open, and no operation makes it anything
else. -/
structure Parser.CountsGroups (tokens : List Token) (limit : Nat) (p : Parser) : Prop where
  depth_le : p.depth ≤ limit
  /-- A group is refused exactly if as many are open as the limit allows. -/
  enterGroup_eq_error_iff : ∀ position error,
    (p.perform (.enterGroup position)).1 = .done (.error error) ↔
      p.depth = limit ∧ error = ⟨.nestedTooDeep limit, position⟩
  /-- Nothing changes then. -/
  enterGroup_of_full : ∀ position, p.depth = limit → (p.perform (.enterGroup position)).2 = p
  /-- Otherwise one more is open. -/
  enterGroup_of_room : ∀ position, p.depth ≠ limit →
    (p.perform (.enterGroup position)).2 = { p with depth := p.depth + 1 }
  phrase : ∀ rule, BalancesGroups p (p.consumed tokens rule) (p.phrase rule)
  /-- A rule that is in a group before the token that closes it has that group to close. -/
  depth_inside : ∀ q e, p.current.isOpen = true → p.openGroup = .ok q →
    (q.phrase .sum).result = .ok e → (q.phrase .sum).parser.depth = p.depth + 1

theorem Accounts.balancesGroups {p : Parser} {rule : Rule} {consumed : List Token}
    (h : Accounts p consumed (p.phrase rule).parser) : BalancesGroups p consumed (p.phrase rule) := by
  have hdepth : (p.phrase rule).parser.depth + consumed.countP Token.isClose =
      p.depth + consumed.countP Token.isOpen := by
    rw [h.depth]
    exact groupsOpen_add_countP fun n => Nat.le_trans (h.closesOwn n) (Nat.le_add_left _ _)
  refine ⟨hdepth, h.closesOwn, fun e he => ?_⟩
  obtain ⟨taken, htook, -⟩ := (runs_phrase rule p).sound e he
  have hsame : (p.phrase rule).parser.depth = p.depth := htook.depth
  exact ⟨by omega, hsame⟩

/-- **The depth is the number of the groups open, and never passes the limit.** In every state that
any operations in any order lead to, errors included, or that a rule comes through on its way, no
more groups are open than the limit allows; one more is refused exactly if so many are open, and
then nothing changes. A rule that is called there leaves, whether it succeeds or fails, as many groups
open as there were, with those that the consumed tokens open and without those that they close. At no
point have the consumed tokens closed more than they have opened; if the rule succeeds, they have closed
all, and the depth is as it was. A group that is closed on the way is open then, so no subtraction
stops at zero. -/
theorem depth_counts_open_groups {tokens : List Token} {file : String} {limit : Nat} {p : Parser}
    (h : p.ReachedIn tokens file limit) : p.CountsGroups (Token.terminated tokens file) limit := by
  have hlimit := h.limit_eq
  have hle := h.depth_le
  have henter : ∀ position, p.perform (.enterGroup position) =
      if p.depth = limit then (.done (.error ⟨.nestedTooDeep limit, position⟩), p)
      else (.done (.ok ()), { p with depth := p.depth + 1 }) := by
    intro position
    rw [perform_enterGroup, hlimit]
    by_cases hfull : p.depth = limit
    · rw [if_pos hfull, if_pos (Nat.le_of_eq hfull.symm)]
    · rw [if_neg hfull, if_neg (Nat.not_le.2 (Nat.lt_of_le_of_ne hle hfull))]
  refine ⟨hle, fun position error => ?_, fun position hfull => ?_, fun position hroom => ?_,
    fun rule => (h.accounts rule).balancesGroups, fun q e ho hopen he => ?_⟩
  · rw [henter]
    by_cases hfull : p.depth = limit
    · simp [hfull, eq_comm]
    · simp [hfull]
  · rw [henter, if_pos hfull]
  · rw [henter, if_neg hroom]
  · rw [openGroup_eq ho] at hopen
    split at hopen
    · cases hopen
    · cases hopen
      obtain ⟨taken, htook, -⟩ := (runs_phrase .sum p.inside).sound e he
      exact htook.depth

/-- The tokens of `(1 + `. -/
def halfOpen : List Token :=
  [(0, '('), (1, '1'), (3, '+')].map fun lexeme => lexemeToken "shell" lexeme.1 [lexeme.2]

/-- After a group that was opened by hand, `(1 + ` fails inside a second one, which stays open, and
a third is refused. -/
theorem depth_counts_open_groups_after_error :
    let p := (start halfOpen "shell" 2).after [.enterGroup .unknown, .phrase .sum]
    p.ReachedIn halfOpen "shell" 2 ∧ p.CountsGroups (Token.terminated halfOpen "shell") 2 ∧
      p.depth = 2 ∧ (p.perform (.enterGroup .unknown)).2 = p := by
  have hreached := reachedIn_after halfOpen "shell" 2 [.enterGroup .unknown, .phrase .sum]
  have hcounts := depth_counts_open_groups hreached
  have hdepth : ((start halfOpen "shell" 2).after
      [.enterGroup .unknown, .phrase .sum]).depth = 2 := by decide +kernel
  exact ⟨hreached, hcounts, hdepth, hcounts.enterGroup_of_full .unknown hdepth⟩

end Calculator
