/-
# The way of a scan

How many groups are open somewhere in a list of tokens can be read off its
parentheses alone: one more after each that opens a group, one fewer after each
that closes one. A scan that goes on keeps exactly this count
(`Scan.opened_of_walk`), a phrase leaves it as it was, and what a phrase needs
of the limit is the largest count along it (`Derives.of_nesting_le`). A scan
that does not go on has come to one token that it rejects
(`Scan.exists_reject_of_run`). What a step can do is said once, verdict by verdict
(`Scan.Steps`).

Key definitions: `Token.groupsAfter`, `groupsOpen`, `deepest`, `nesting`, `Scan.opened`,
`Scan.Steps`.
Key theorems: `Scan.steps`, `Scan.opened_of_walk`, `Scan.split_phrase`, `Scan.exists_reject_of_run`,
`Derives.deepest_eq`, `Derives.nesting_le`, `Derives.of_nesting_le`, `Derives.parse_eq_ok_iff`.
-/
import Calculator.Proofs.OnePass
import Mathlib.Data.List.TakeWhile

namespace Calculator

/-! ### Open groups, counted by parentheses -/

/-- How many groups are open after the token, if `opened` are before it. -/
def Token.groupsAfter (opened : Nat) (token : Token) : Nat :=
  if token.isOpen then opened + 1 else if token.isClose then opened - 1 else opened

/-- How many groups are open after the tokens, if `opened` are before them. -/
def groupsOpen (opened : Nat) : List Token → Nat
  | [] => opened
  | token :: tokens => groupsOpen (token.groupsAfter opened) tokens

/-- The most groups that are open at once along the tokens, if `opened` are before them. -/
def deepest (opened : Nat) : List Token → Nat
  | [] => opened
  | token :: tokens => max opened (deepest (token.groupsAfter opened) tokens)

/-- How deep the groups of the tokens nest. -/
def nesting (tokens : List Token) : Nat := deepest 0 tokens

theorem groupsOpen_append (after : List Token) : ∀ (opened : Nat) (before : List Token),
    groupsOpen opened (before ++ after) = groupsOpen (groupsOpen opened before) after
  | _, [] => rfl
  | opened, token :: before => groupsOpen_append after (token.groupsAfter opened) before

theorem le_deepest : ∀ (opened : Nat) (tokens : List Token), opened ≤ deepest opened tokens
  | opened, [] => Nat.le_refl opened
  | _, _ :: _ => Nat.le_max_left _ _

theorem deepest_append (after : List Token) : ∀ (opened : Nat) (before : List Token),
    deepest opened (before ++ after) =
      max (deepest opened before) (deepest (groupsOpen opened before) after)
  | opened, [] => (Nat.max_eq_right (le_deepest opened after)).symm
  | opened, token :: before => by
    rw [List.cons_append, deepest, deepest, groupsOpen, deepest_append after, Nat.max_assoc]

namespace Token

variable {token : Token}

theorem isClose_eq_false_of_isOpen (h : token.isOpen = true) : token.isClose = false := by
  simp only [isOpen, isMark, Bool.and_eq_true, beq_iff_eq] at h
  simp [isClose, isMark, h.2]

theorem isOpen_eq_false_of_isClose (h : token.isClose = true) : token.isOpen = false := by
  rw [Bool.eq_false_iff]
  intro ho
  simp [isClose_eq_false_of_isOpen ho] at h

theorem groupsAfter_of_isOpen (h : token.isOpen = true) (opened : Nat) :
    token.groupsAfter opened = opened + 1 := if_pos h

theorem groupsAfter_of_isClose (h : token.isClose = true) (opened : Nat) :
    token.groupsAfter opened = opened - 1 := by
  simp [groupsAfter, h, isOpen_eq_false_of_isClose h]

theorem groupsAfter_of_isInteger (h : token.isInteger = true) (opened : Nat) :
    token.groupsAfter opened = opened := by
  simp [groupsAfter, isOpen, isClose, isMark_eq_false_of_isInteger h]

theorem groupsAfter_of_isSign {op : Operator} (h : token.isSign op = true) (opened : Nat) :
    token.groupsAfter opened = opened := by
  have hopen : token.isOpen = false := by
    rw [Bool.eq_false_iff]
    intro ho
    simp [isSign_eq_false_of_isMark (.inl rfl) ho] at h
  have hclose : token.isClose = false := by
    rw [Bool.eq_false_iff]
    intro hc
    simp [isSign_eq_false_of_isMark (.inr rfl) hc] at h
  simp [groupsAfter, hopen, hclose]

theorem takeWhile_eq_self {tokens : List Token} (h : ∀ token ∈ tokens, token.isEnd = false) :
    tokens.takeWhile (fun token => !token.isEnd) = tokens :=
  List.takeWhile_eq_self_iff.2 (by simpa using h)

end Token

/-! ### The steps of a scan -/

namespace Scan

variable {limit : Nat} {token : Token}

/-- How many groups are open where the scan stands. -/
def opened : Scan → Nat
  | needsOperand opened => opened
  | hasOperand opened => opened

/-- What a scan can do with a token, and when: one row for each of its verdicts. -/
inductive Steps (limit : Nat) (token : Token) : Scan → Verdict → Prop
  | opens {n : Nat} : token.isOpen = true → n < limit →
    Steps limit token (needsOperand n) (.goOn (needsOperand (n + 1)))
  | tooDeep {n : Nat} : token.isOpen = true → limit ≤ n →
    Steps limit token (needsOperand n) (.reject (.nestedTooDeep limit))
  | ended {n : Nat} : token.isEnd = true →
    Steps limit token (needsOperand n) (.reject .endedEarly)
  | number {n : Nat} {value : Int64} : token.isInteger = true → token.number = some value →
    Steps limit token (needsOperand n) (.goOn (hasOperand n))
  | noValue {n : Nat} : token.isInteger = true → token.number = none →
    Steps limit token (needsOperand n) (.reject (.internal "integer token without a value"))
  | noOperand {n : Nat} : token.isOpen = false → token.isEnd = false → token.isInteger = false →
    Steps limit token (needsOperand n) (.reject (.expectedNumber token.text))
  | sign {n : Nat} {op : Operator} : token.isSign op = true →
    Steps limit token (hasOperand n) (.goOn (needsOperand n))
  | accepts : isSign token = false → token.isEnd = true →
    Steps limit token (hasOperand 0) .accept
  | trailing : isSign token = false → token.isEnd = false →
    Steps limit token (hasOperand 0) (.reject (.trailing token.text))
  | closes {n : Nat} : isSign token = false → token.isClose = true →
    Steps limit token (hasOperand (n + 1)) (.goOn (hasOperand n))
  | unclosed {n : Nat} : isSign token = false → token.isClose = false →
    Steps limit token (hasOperand (n + 1)) (.reject (.expectedClose token.text))

/-- A step is one of the rows. -/
theorem steps (limit : Nat) (token : Token) (scan : Scan) :
    Steps limit token scan (scan.step limit token) := by
  cases scan with
  | needsOperand n =>
    rw [step]
    by_cases ho : token.isOpen = true
    · rw [if_pos ho]
      by_cases hfull : limit ≤ n
      · rw [if_pos hfull]
        exact .tooDeep ho hfull
      · rw [if_neg hfull]
        exact .opens ho (Nat.lt_of_not_le hfull)
    rw [if_neg ho]
    by_cases hend : token.isEnd = true
    · rw [if_pos hend]
      exact .ended hend
    rw [if_neg hend]
    by_cases hint : token.isInteger = true
    · rw [if_pos hint]
      cases hnum : token.number with
      | none => exact .noValue hint hnum
      | some value => exact .number hint hnum
    · rw [if_neg hint]
      exact .noOperand (Bool.eq_false_iff.2 ho) (Bool.eq_false_iff.2 hend) (Bool.eq_false_iff.2 hint)
  | hasOperand n =>
    by_cases hs : isSign token = true
    · obtain ⟨op, hop⟩ := (isSign_iff token).1 hs
      rw [step_of_isSign hop]
      exact .sign hop
    have hsign : isSign token = false := Bool.eq_false_iff.2 hs
    cases n with
    | zero =>
      by_cases hend : token.isEnd = true
      · have hstep : (hasOperand 0).step limit token = .accept := by simp [step, hsign, hend]
        rw [hstep]
        exact .accepts hsign hend
      · have hstep : (hasOperand 0).step limit token = .reject (.trailing token.text) := by
          simp [step, hsign, hend]
        rw [hstep]
        exact .trailing hsign (Bool.eq_false_iff.2 hend)
    | succ n =>
      by_cases hc : token.isClose = true
      · rw [step_of_isClose hc]
        exact .closes hsign hc
      · have hstep : (hasOperand (n + 1)).step limit token = .reject (.expectedClose token.text) := by
          simp [step, hsign, hc]
        rw [hstep]
        exact .unclosed hsign (Bool.eq_false_iff.2 hc)

theorem opened_of_goOn {scan next : Scan} (h : scan.step limit token = .goOn next) :
    next.opened = token.groupsAfter scan.opened := by
  have hsteps := steps limit token scan
  rw [h] at hsteps
  cases hsteps with
  | opens ho _ => exact (Token.groupsAfter_of_isOpen ho _).symm
  | number hint _ => exact (Token.groupsAfter_of_isInteger hint _).symm
  | sign hop => exact (Token.groupsAfter_of_isSign hop _).symm
  | @closes n _ hc => exact (Token.groupsAfter_of_isClose hc (n + 1)).symm

/-- **A scan that goes on over tokens counts the groups open after them.** -/
theorem opened_of_walk : ∀ {scan stop : Scan} {tokens : List Token},
    walk limit scan tokens = some stop → stop.opened = groupsOpen scan.opened tokens
  | scan, stop, [], h => by
    rw [walk, Option.some.injEq] at h
    rw [h]
    rfl
  | scan, stop, token :: tokens, h => by
    obtain ⟨next, hstep, hwalk⟩ := walk_cons_eq_some_iff.1 h
    rw [opened_of_walk hwalk, opened_of_goOn hstep]
    rfl

/-- A token at which a scan needs an operand is inside a phrase that the scan goes on over, or comes
after the token that follows the phrase. -/
theorem split_phrase {opened deep : Nat} {phrase rest before after : List Token}
    (h : phrase ++ rest = before ++ token :: after)
    (hphrase : walk limit (.needsOperand opened) phrase = some (.hasOperand opened))
    (hbefore : walk limit (.needsOperand opened) before = some (.needsOperand deep)) :
    (∃ between, phrase = before ++ token :: between ∧ after = between ++ rest) ∨
    ∃ next between, before = phrase ++ next :: between ∧ rest = next :: (between ++ token :: after) ∧
      walk limit (.hasOperand opened) (next :: between) = some (.needsOperand deep) := by
  rcases List.append_eq_append_iff.1 h with ⟨between, hsplit, hrest⟩ | ⟨between, hsplit, hafter⟩
  · rw [hsplit, walk_append, hphrase] at hbefore
    have hbefore : walk limit (.hasOperand opened) between = some (.needsOperand deep) := hbefore
    cases between with
    | nil => cases hbefore
    | cons next between => exact .inr ⟨next, between, hsplit, hrest, hbefore⟩
  · cases between with
    | nil =>
      simp [hsplit, hbefore] at hphrase
    | cons next between =>
      obtain ⟨rfl, hrest⟩ := List.cons.inj hafter
      exact .inl ⟨between, hsplit, hrest⟩

/-- A scan that finds an error has gone on as far as a token, and rejects that. -/
theorem exists_reject_of_run {last : Token} {error : Error} :
    ∀ {scan : Scan} {tokens : List Token}, run limit last scan tokens = .error error →
    ∃ before token after stop, tokens ++ [last] = before ++ token :: after ∧
      walk limit scan before = some stop ∧ stop.step limit token = .reject error.fault ∧
      error.position = token.span.start
  | scan, [], h => by
    rw [run] at h
    split at h
    · next fault hstep =>
      cases h
      exact ⟨[], last, [], scan, rfl, rfl, hstep, rfl⟩
    · cases h
  | scan, token :: tokens, h => by
    rw [run] at h
    cases hstep : scan.step limit token with
    | goOn next =>
      rw [hstep] at h
      obtain ⟨before, found, after, stop, heq, hwalk, hreject, hposition⟩ :=
        exists_reject_of_run h
      refine ⟨token :: before, found, after, stop, ?_, ?_, hreject, hposition⟩
      · rw [List.cons_append, heq, List.cons_append]
      · rw [walk_of_goOn hstep, hwalk]
    | accept =>
      rw [hstep] at h
      cases h
    | reject fault =>
      rw [hstep] at h
      cases h
      exact ⟨[], token, tokens ++ [last], scan, rfl, rfl, hstep, rfl⟩

end Scan

/-! ### The groups of a phrase -/

namespace Derives

variable {rule : Rule} {limit : Nat} {tokens : List Token} {e : Expr}

theorem isEnd_eq_false (h : Derives rule limit tokens e) : ∀ token ∈ tokens, token.isEnd = false := by
  induction h with
  | number hint _ =>
    intro token htoken
    rw [List.mem_singleton.1 htoken]
    exact Token.isEnd_eq_false_of_isInteger hint
  | group ho hc _ ih =>
    intro token htoken
    simp only [List.mem_cons, List.mem_append, List.not_mem_nil, or_false] at htoken
    rcases htoken with rfl | htoken | rfl
    · exact Token.isEnd_eq_false_of_isPunct (Token.isPunct_of_isMark ho)
    · exact ih token htoken
    · exact Token.isEnd_eq_false_of_isPunct (Token.isPunct_of_isMark hc)
  | single _ _ ih => exact ih
  | binary _ _ hs _ _ ihl ihr =>
    intro token htoken
    simp only [List.mem_append, List.mem_cons] at htoken
    rcases htoken with htoken | rfl | htoken
    · exact ihl token htoken
    · exact Token.isEnd_eq_false_of_isSign hs
    · exact ihr token htoken

theorem groupsOpen_eq (h : Derives rule limit tokens e) :
    ∀ opened, groupsOpen opened tokens = opened := by
  induction h with
  | number hint _ => exact fun opened => Token.groupsAfter_of_isInteger hint opened
  | @group limit first last tokens e ho hc _ ih =>
    intro opened
    rw [groupsOpen, Token.groupsAfter_of_isOpen ho, groupsOpen_append, ih]
    exact Token.groupsAfter_of_isClose hc (opened + 1)
  | single _ _ ih => exact ih
  | binary _ _ hs _ _ ihl ihr =>
    intro opened
    rw [groupsOpen_append, ihl, groupsOpen, Token.groupsAfter_of_isSign hs, ihr]

/-- A phrase goes as deep as it nests, from where it starts. -/
theorem deepest_eq (h : Derives rule limit tokens e) :
    ∀ opened, deepest opened tokens = opened + nesting tokens := by
  unfold nesting
  induction h with
  | number hint _ =>
    intro opened
    simp [deepest, Token.groupsAfter_of_isInteger hint]
  | @group limit first last tokens e ho hc hsum ih =>
    intro opened
    have hdeep : ∀ n, deepest n (first :: (tokens ++ [last])) = n + 1 + deepest 0 tokens := by
      intro n
      have hinside := ih (n + 1)
      simp only [deepest, Token.groupsAfter_of_isOpen ho, deepest_append, hsum.groupsOpen_eq,
        Token.groupsAfter_of_isClose hc]
      omega
    rw [hdeep opened, hdeep 0]
    omega
  | single _ _ ih => exact ih
  | @binary rule tighter limit op token before after left right hr ho hs hl _ ihl ihr =>
    intro opened
    have hdeep : ∀ n, deepest n (before ++ token :: after) =
        n + max (deepest 0 before) (deepest 0 after) := by
      intro n
      have hbefore := ihl n
      have hafter := ihr n
      simp only [deepest_append, hl.groupsOpen_eq, deepest, Token.groupsAfter_of_isSign hs]
      omega
    rw [hdeep opened, hdeep 0]
    omega

theorem nesting_group {first last : Token} (ho : first.isOpen = true) (hc : last.isClose = true)
    (h : Derives rule limit tokens e) : nesting (first :: (tokens ++ [last])) = nesting tokens + 1 := by
  have hinside := h.deepest_eq (0 + 1)
  simp only [nesting, deepest, Token.groupsAfter_of_isOpen ho, deepest_append, h.groupsOpen_eq,
    Token.groupsAfter_of_isClose hc] at hinside ⊢
  omega

theorem nesting_binary {op : Operator} {token : Token} (hs : token.isSign op = true)
    (h : Derives rule limit tokens e) (after : List Token) :
    nesting (tokens ++ token :: after) = max (nesting tokens) (nesting after) := by
  simp only [nesting, deepest_append, h.groupsOpen_eq, deepest, Token.groupsAfter_of_isSign hs]
  omega

/-- A phrase nests no deeper than its limit. -/
theorem nesting_le (h : Derives rule limit tokens e) : nesting tokens ≤ limit := by
  induction h with
  | number hint _ =>
    simp only [nesting, deepest, Token.groupsAfter_of_isInteger hint]
    omega
  | group ho hc hsum ih =>
    rw [nesting_group ho hc hsum]
    omega
  | single _ _ ih => exact ih
  | binary _ _ hs hl _ ihl ihr =>
    rw [nesting_binary hs hl]
    omega

/-- **A phrase needs no higher limit than it nests.** -/
theorem of_nesting_le (h : Derives rule limit tokens e) : ∀ {room : Nat}, nesting tokens ≤ room →
    Derives rule room tokens e := by
  induction h with
  | number hint hnum => exact fun _ => .number hint hnum
  | group ho hc hsum ih =>
    intro room hroom
    rw [nesting_group ho hc hsum] at hroom
    cases room with
    | zero => omega
    | succ room => exact .group ho hc (ih (by omega))
  | single hr _ ih => exact fun hroom => .single hr (ih hroom)
  | binary hr ho hs hl _ ihl ihr =>
    intro room hroom
    rw [nesting_binary hs hl] at hroom
    exact .binary hr ho hs (ihl (by omega)) (ihr (by omega))

/-- **A phrase is parsed into its expression exactly under the limits it does not nest deeper
than.** -/
theorem parse_eq_ok_iff (h : Derives .sum limit tokens e) (file : String) (room : Nat)
    (tree : Expr) :
    (parse tokens file room).result = .ok tree ↔ nesting tokens ≤ room ∧ tree = e := by
  have hall := Token.takeWhile_eq_self h.isEnd_eq_false
  constructor
  · intro hparse
    have hderives := parse_sound hparse
    rw [hall] at hderives
    have hroom := hderives.nesting_le
    have hother := parse_complete (by rw [hall]; exact h.of_nesting_le hroom) file
    rw [hparse, Except.ok.injEq] at hother
    exact ⟨hroom, hother⟩
  · rintro ⟨hroom, rfl⟩
    exact parse_complete (by rw [hall]; exact h.of_nesting_le hroom) file

end Derives

end Calculator
