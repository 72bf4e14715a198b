/-
# A parse fails at the earliest token

An error is the answer to one token and those before it: as soon as they are
read, it does not matter what follows, and no input that starts with them is
accepted. The tokens before it had decided nothing. They are the start of an
accepted input, which at most one number and a closing parenthesis for each open
group complete, and these fit under the same limit, as they open no group.

Key definitions: `Completion`, `DecidedAt`.
Key theorems: `Scan.exists_completion`, `parse_error_decidedAt`.
-/
import Calculator.Proofs.Reading
import Calculator.Proofs.Stops

namespace Calculator

open Calculator.Parser

/-- The tokens that complete an input with open groups: at most one number, and then a closing
parenthesis for each group. -/
structure Completion (opened : Nat) (numbers closers : List Token) : Prop where
  atMostOne : numbers.length ≤ 1
  isNumber : ∀ token ∈ numbers, token.isInteger = true ∧ token.number.isSome = true
  onePerGroup : closers.length = opened
  isClose : ∀ token ∈ closers, token.isClose = true

/-- The error of the parse is due to the tokens up to the index, and not to those before it alone. -/
structure DecidedAt (tokens : List Token) (file : String) (limit : Nat) (error : Error)
    (i : Nat) : Prop where
  /-- The error is reported at the token with the index. -/
  position_eq : ∃ token, (Token.terminated tokens file)[i]? = some token ∧
    error.position = token.span.start
  /-- The cursor stands there, or has passed this one token. -/
  index_eq : (parse tokens file limit).parser.cursor.index = i + Scan.overrun error.fault
  /-- The parser has the groups open that are open before the token. -/
  depth_eq : (parse tokens file limit).parser.depth =
    groupsOpen 0 ((Token.terminated tokens file).take i)
  /-- Every list with the same tokens up to there has this error. -/
  notLate : ∀ (others : List Token) (name : String),
    (Token.terminated others name).take (i + 1) = (Token.terminated tokens file).take (i + 1) →
    (parse others name limit).result = .error error
  /-- The tokens before the index can be completed to a list that is accepted. -/
  notEarly : ∃ numbers closers, Completion (parse tokens file limit).parser.depth numbers closers ∧
    ∀ name : String, ∃ root,
      (parse ((Token.terminated tokens file).take i ++ numbers ++ closers) name limit).result =
        .ok root

namespace Scan

variable (limit : Nat)

theorem walk_closers : ∀ {closers : List Token}, (∀ token ∈ closers, token.isClose = true) →
    walk limit (.hasOperand closers.length) closers = some (.hasOperand 0)
  | [], _ => rfl
  | closer :: closers, h => by
    obtain ⟨hcloser, hclosers⟩ := List.forall_mem_cons.1 h
    rw [List.length_cons, walk_of_goOn (step_of_isClose hcloser)]
    exact walk_closers hclosers

/-- **From wherever a scan stands there is a way to the end.** -/
theorem exists_completion (stop : Scan) : ∃ numbers closers,
    Completion stop.opened numbers closers ∧
      walk limit stop (numbers ++ closers) = some (.hasOperand 0) := by
  obtain ⟨number, hint, hvalue⟩ : ∃ token : Token, token.isInteger = true ∧ token.number = some 0 :=
    ⟨lexemeToken "" 0 ['0'], by decide +kernel, by decide +kernel⟩
  obtain ⟨closer, hcloser⟩ : ∃ token : Token, token.isClose = true :=
    ⟨lexemeToken "" 0 [')'], by decide +kernel⟩
  have hlength : (List.replicate stop.opened closer).length = stop.opened := List.length_replicate
  have hclose : ∀ token ∈ List.replicate stop.opened closer, token.isClose = true := by
    intro token htoken
    rw [List.eq_of_mem_replicate htoken]
    exact hcloser
  have hwalk : walk limit (.hasOperand stop.opened) (List.replicate stop.opened closer) =
      some (.hasOperand 0) := by
    have hclosers := walk_closers limit hclose
    rwa [hlength] at hclosers
  cases stop with
  | needsOperand n =>
    refine ⟨[number], _, ⟨Nat.le_refl 1, ?_, hlength, hclose⟩, ?_⟩
    · intro token htoken
      rw [List.mem_singleton.1 htoken, hvalue]
      exact ⟨hint, rfl⟩
    · rw [List.singleton_append, walk_of_goOn (step_of_isInteger hint hvalue)]
      exact hwalk
  | hasOperand n =>
    exact ⟨[], _, ⟨Nat.zero_le 1, fun _ hmem => absurd hmem List.not_mem_nil, hlength, hclose⟩,
      hwalk⟩

end Scan

/-- **A parse fails at the earliest token, and for nothing that comes after it.** -/
theorem parse_error_decidedAt {tokens : List Token} {file : String} {limit : Nat} {error : Error}
    (h : (parse tokens file limit).result = .error error) :
    ∃ i, DecidedAt tokens file limit error i := by
  obtain ⟨before, token, after, stop, heq, hwalk, hreject, hposition⟩ := exists_rejected h
  obtain ⟨-, hindex⟩ := parse_of_reject heq hwalk hreject
  have hdepth := parse_depth_of_reject heq hwalk hreject
  have hbefore : (Token.terminated tokens file).take before.length = before := by
    rw [heq, List.take_left]
  have hopened : stop.opened = groupsOpen 0 before := Scan.opened_of_walk hwalk
  refine ⟨before.length, ⟨token, by rw [heq]; simp, hposition⟩, hindex, by rw [hbefore, hdepth],
    fun others name hsame => ?_, ?_⟩
  · -- the other list has the same tokens before it, and then the same token
    have hothers : Token.terminated others name =
        before ++ token :: (Token.terminated others name).drop (before.length + 1) := by
      conv => lhs; rw [← List.take_append_drop (before.length + 1) (Token.terminated others name)]
      rw [hsame, heq, List.append_cons, List.take_left' (by simp), List.append_assoc]
      rfl
    obtain ⟨hresult, -⟩ := parse_of_reject hothers hwalk hreject
    rw [hresult, ← hposition]
  · obtain ⟨numbers, closers, hcompletion, hrest⟩ := Scan.exists_completion limit stop
    refine ⟨numbers, closers, by rw [hdepth, ← hopened]; exact hcompletion, fun name => ?_⟩
    refine exists_parse_of_walk ?_ name
    rw [hbefore, List.append_assoc, Scan.walk_append, hwalk]
    exact hrest

/-- The tokens of `2 * ((3 + )`. -/
def missingOperand : List Token :=
  [(0, '2'), (2, '*'), (4, '('), (5, '('), (6, '3'), (8, '+'), (10, ')')].map
    fun lexeme => lexemeToken "input.txt" lexeme.1 [lexeme.2]

/-- In `2 * ((3 + )` the closing parenthesis is too early. -/
theorem parse_error_decidedAt_missingOperand :
    (parse missingOperand "input.txt" 2).result =
      .error ⟨.expectedNumber ")", Position.at 10 "input.txt"⟩ ∧
    ∃ i, DecidedAt missingOperand "input.txt" 2
      ⟨.expectedNumber ")", Position.at 10 "input.txt"⟩ i := by
  have hresult : (parse missingOperand "input.txt" 2).result =
      .error ⟨.expectedNumber ")", Position.at 10 "input.txt"⟩ := by decide +kernel
  exact ⟨hresult, parse_error_decidedAt hresult⟩

end Calculator
