/-
# Where a parse stops

The state in which a parse ends is known from the tokens it has passed, also
when it fails (`parse_moved`). A parse that fails has come to the one token that
the scan rejects (`exists_rejected`), and one that comes to such a token fails
there (`parse_of_reject`). If a scan goes on over all the tokens and ends with an
operand and no open group, the parse succeeds (`exists_parse_of_walk`).

Key theorems: `parse_moved`, `exists_terminated_eq`, `parse_of_reject`, `exists_rejected`,
`exists_rejected_at`, `exists_rejected_both`, `exists_parse_of_walk`.
-/
import Calculator.Proofs.Accounts

namespace Calculator

open Calculator.Parser

/-! ### The state in which a parse ends -/

theorem parse_ends_with_sum (tokens : List Token) (file : String) (limit : Nat) :
    (parse tokens file limit).parser = ((start tokens file limit).phrase .sum).parser := by
  unfold parse whole expression Outcome.andThen
  cases ((start tokens file limit).phrase .sum).result with
  | error error => rfl
  | ok e =>
    simp only []
    split <;> rfl

/-- A parse has passed as many tokens as its index says, and has open what they open and do not
close. -/
theorem parse_moved (tokens : List Token) (file : String) (limit : Nat) :
    ∃ taken, Moved (start tokens file limit) taken (parse tokens file limit).parser ∧
      taken.length = (parse tokens file limit).parser.cursor.index := by
  obtain ⟨taken, hmoved⟩ := (runs_phrase .sum (start tokens file limit)).moved
  rw [← parse_ends_with_sum] at hmoved
  exact ⟨taken, hmoved, by rw [hmoved.index]; exact (Nat.zero_add _).symm⟩

/-! ### The tokens within reach -/

/-- The tokens within reach of a cursor come first in the terminated list. -/
theorem exists_terminated_eq (tokens : List Token) (file : String) :
    ∃ beyond, Token.terminated tokens file =
      (Cursor.ofTokens tokens file).ahead ++ (Cursor.ofTokens tokens file).last :: beyond := by
  have hsplit := List.takeWhile_append_dropWhile (p := fun token => !token.isEnd)
    (l := Token.terminated tokens file)
  obtain ⟨token, hmem, hend⟩ := Token.exists_isEnd_terminated tokens file
  cases hdrop : (Token.terminated tokens file).dropWhile fun token => !token.isEnd with
  | nil =>
    have hall := List.dropWhile_eq_nil_iff.1 hdrop token hmem
    simp [hend] at hall
  | cons first beyond =>
    refine ⟨beyond, ?_⟩
    have hfirst : first.isEnd = true := by
      have hnot := List.head?_dropWhile_not (fun token => !token.isEnd) (Token.terminated tokens file)
      rw [hdrop] at hnot
      simpa using hnot
    have hnone : ((Token.terminated tokens file).takeWhile fun token => !token.isEnd).find?
        Token.isEnd = none := by
      refine List.find?_eq_none.2 fun token htoken => ?_
      simpa using List.all_eq_true.1 List.all_takeWhile token htoken
    have hlast : (Cursor.ofTokens tokens file).last = first := by
      show ((Token.terminated tokens file).find? Token.isEnd).getD _ = first
      rw [← hsplit, List.find?_append, hnone, hdrop, List.find?_cons_of_pos hfirst]
      rfl
    rw [hlast, ← hdrop]
    exact hsplit.symm

theorem exists_terminated_append (tokens : List Token) (file : String) :
    ∃ more, Token.terminated tokens file = tokens ++ more := by
  unfold Token.terminated
  split
  · next hnone =>
    rw [List.getLast?_eq_none_iff.1 hnone]
    exact ⟨_, rfl⟩
  · split
    · exact ⟨[], (List.append_nil tokens).symm⟩
    · exact ⟨_, rfl⟩

namespace Scan

variable {limit : Nat}

theorem isEnd_of_goOn {token : Token} {scan next : Scan} (h : scan.step limit token = .goOn next) :
    token.isEnd = false := by
  have hsteps := steps limit token scan
  rw [h] at hsteps
  cases hsteps with
  | opens ho _ => exact Token.isEnd_eq_false_of_isPunct (Token.isPunct_of_isMark ho)
  | number hint _ => exact Token.isEnd_eq_false_of_isInteger hint
  | sign hop => exact Token.isEnd_eq_false_of_isSign hop
  | closes _ hc => exact Token.isEnd_eq_false_of_isPunct (Token.isPunct_of_isMark hc)

theorem isEnd_of_walk : ∀ {scan stop : Scan} {tokens : List Token},
    walk limit scan tokens = some stop → ∀ token ∈ tokens, token.isEnd = false
  | _, _, [], _, _, hmem => absurd hmem List.not_mem_nil
  | scan, stop, first :: tokens, h, token, hmem => by
    obtain ⟨next, hstep, hwalk⟩ := walk_cons_eq_some_iff.1 h
    rcases List.mem_cons.1 hmem with rfl | hmem
    · exact isEnd_of_goOn hstep
    · exact isEnd_of_walk hwalk token hmem

theorem run_of_reject {last token : Token} {after : List Token} {stop : Scan} {fault : Fault}
    (hreject : stop.step limit token = .reject fault) :
    ∀ {before tokens : List Token} {scan : Scan}, tokens ++ [last] = before ++ token :: after →
      walk limit scan before = some stop →
      run limit last scan tokens = .error ⟨fault, token.span.start⟩ ∧
        passed limit last scan tokens = before.length + overrun fault
  | [], tokens, scan, heq, hwalk => by
    rw [walk, Option.some.injEq] at hwalk
    subst hwalk
    cases tokens with
    | nil =>
      obtain ⟨rfl, -⟩ := List.cons.inj heq
      rw [run, passed, hreject]
      exact ⟨rfl, (Nat.zero_add _).symm⟩
    | cons first tokens =>
      obtain ⟨rfl, -⟩ := List.cons.inj heq
      rw [run, passed, hreject]
      exact ⟨rfl, (Nat.zero_add _).symm⟩
  | first :: before, [], scan, heq, hwalk => by simp at heq
  | first :: before, other :: tokens, scan, heq, hwalk => by
    obtain ⟨rfl, hrest⟩ := List.cons.inj heq
    obtain ⟨next, hstep, hnext⟩ := walk_cons_eq_some_iff.1 hwalk
    have hrest : tokens ++ [last] = before ++ token :: after := hrest
    obtain ⟨hrun, hpassed⟩ := run_of_reject hreject hrest hnext
    rw [run, passed, hstep]
    exact ⟨hrun, by rw [List.length_cons, Nat.add_right_comm]; exact congrArg (· + 1) hpassed⟩

end Scan

theorem exists_reach_eq {tokens before after : List Token} {token : Token} {file : String}
    {limit : Nat} {stop : Scan} (heq : Token.terminated tokens file = before ++ token :: after)
    (hwalk : Scan.walk limit (.needsOperand 0) before = some stop) :
    ∃ rest, (Cursor.ofTokens tokens file).ahead ++ [(Cursor.ofTokens tokens file).last] =
      before ++ token :: rest := by
  obtain ⟨beyond, hreach⟩ := exists_terminated_eq tokens file
  rw [hreach] at heq
  rcases List.append_eq_append_iff.1 heq with ⟨between, hbefore, hlast⟩ | ⟨between, hahead, hlast⟩
  · cases between with
    | nil =>
      obtain ⟨rfl, -⟩ := List.cons.inj hlast
      exact ⟨[], by rw [hbefore, List.append_nil]⟩
    | cons first between =>
      -- the scan would have gone on over the end of input
      obtain ⟨hfirst, -⟩ := List.cons.inj hlast
      have hno := Scan.isEnd_of_walk hwalk first (by simp [hbefore])
      rw [← hfirst, (Cursor.ofTokens tokens file).isEnd_last] at hno
      cases hno
  · cases between with
    | nil =>
      obtain ⟨rfl, -⟩ := List.cons.inj hlast
      exact ⟨[], by rw [hahead, List.append_nil]⟩
    | cons first between =>
      obtain ⟨rfl, -⟩ := List.cons.inj hlast
      exact ⟨between ++ [(Cursor.ofTokens tokens file).last], by
        rw [hahead, List.append_assoc, List.cons_append]⟩

/-! ### The token at which a parse fails -/

section Rejected

variable {tokens before after : List Token} {token : Token} {file : String} {limit : Nat}
  {stop : Scan}

/-- **A parse fails at the first token that the scan rejects**, and stops there. -/
theorem parse_of_reject {fault : Fault}
    (heq : Token.terminated tokens file = before ++ token :: after)
    (hwalk : Scan.walk limit (.needsOperand 0) before = some stop)
    (hreject : stop.step limit token = .reject fault) :
    (parse tokens file limit).result = .error ⟨fault, token.span.start⟩ ∧
      (parse tokens file limit).parser.cursor.index = before.length + Scan.overrun fault := by
  obtain ⟨rest, hreach⟩ := exists_reach_eq heq hwalk
  obtain ⟨hrun, hpassed⟩ := Scan.run_of_reject hreject hreach hwalk
  refine ⟨parse_eq_error_iff.2 hrun, ?_⟩
  rw [(parse_refines_scan tokens file limit).2, ← Cursor.ahead_ofTokens tokens file]
  exact hpassed

/-- The parser has moved past the tokens before the rejected one, and past that if the fault is seen
only then. -/
theorem exists_moved_of_reject {fault : Fault}
    (heq : Token.terminated tokens file = before ++ token :: after)
    (hwalk : Scan.walk limit (.needsOperand 0) before = some stop)
    (hreject : stop.step limit token = .reject fault) :
    ∃ taken rest, Moved (start tokens file limit) taken (parse tokens file limit).parser ∧
      (start tokens file limit).cursor.ahead ++ [(start tokens file limit).cursor.last] =
        before ++ token :: rest ∧
      taken.length = before.length + Scan.overrun fault := by
  obtain ⟨rest, hreach⟩ := exists_reach_eq heq hwalk
  obtain ⟨-, hindex⟩ := parse_of_reject heq hwalk hreject
  obtain ⟨taken, hmoved, hlength⟩ := parse_moved tokens file limit
  exact ⟨taken, rest, hmoved, hreach, hlength.trans hindex⟩

theorem parse_depth_of_reject {fault : Fault}
    (heq : Token.terminated tokens file = before ++ token :: after)
    (hwalk : Scan.walk limit (.needsOperand 0) before = some stop)
    (hreject : stop.step limit token = .reject fault) :
    (parse tokens file limit).parser.depth = groupsOpen 0 before := by
  obtain ⟨taken, rest, hmoved, hreach, hlength⟩ := exists_moved_of_reject heq hwalk hreject
  rw [hmoved.ahead, List.append_assoc] at hreach
  have hdepth : (parse tokens file limit).parser.depth = groupsOpen 0 taken := hmoved.depth
  rw [hdepth]
  have hsteps := Scan.steps limit token stop
  rw [hreject] at hsteps
  cases hsteps with
  | noValue hint _ =>
    -- the integer has been passed, and is no parenthesis
    have hlength : taken.length = (before ++ [token]).length := by
      rw [List.length_append]
      exact hlength
    have htaken : taken = before ++ [token] :=
      (List.append_inj (hreach.trans (List.append_cons before token rest)) hlength).1
    rw [htaken, groupsOpen_append]
    exact Token.groupsAfter_of_isInteger hint _
  | _ => rw [(List.append_inj hreach hlength).1]

theorem parse_current_of_reject {fault : Fault}
    (heq : Token.terminated tokens file = before ++ token :: after)
    (hwalk : Scan.walk limit (.needsOperand 0) before = some stop)
    (hreject : stop.step limit token = .reject fault) (hover : Scan.overrun fault = 0) :
    (parse tokens file limit).parser.current = token := by
  obtain ⟨taken, rest, hmoved, hreach, hlength⟩ := exists_moved_of_reject heq hwalk hreject
  have hbefore : taken = before := by
    rw [hover, Nat.add_zero] at hlength
    rw [hmoved.ahead, List.append_assoc] at hreach
    exact (List.append_inj hreach hlength).1
  subst hbefore
  exact hmoved.current_eq hreach

/-- **A parse that fails has come to one token that the scan rejects**, at which it reports its
error. -/
theorem exists_rejected {error : Error} (h : (parse tokens file limit).result = .error error) :
    ∃ before token after stop, Token.terminated tokens file = before ++ token :: after ∧
      Scan.walk limit (.needsOperand 0) before = some stop ∧
      stop.step limit token = .reject error.fault ∧ error.position = token.span.start := by
  obtain ⟨before, token, after, stop, hreach, hwalk, hreject, hposition⟩ :=
    Scan.exists_reject_of_run (parse_eq_error_iff.1 h)
  obtain ⟨beyond, heq⟩ := exists_terminated_eq tokens file
  refine ⟨before, token, after ++ beyond, stop, ?_, hwalk, hreject, hposition⟩
  rw [heq, List.append_cons, hreach, List.append_assoc, List.cons_append]

/-- The index of that token is known from the fault and the index at which the parse ends. -/
theorem exists_rejected_at {error : Error} (h : (parse tokens file limit).result = .error error) :
    ∃ i token, (Token.terminated tokens file)[i]? = some token ∧
      error.position = token.span.start ∧
      (parse tokens file limit).parser.cursor.index = i + Scan.overrun error.fault := by
  obtain ⟨before, token, after, stop, heq, hwalk, hreject, hposition⟩ := exists_rejected h
  obtain ⟨-, hindex⟩ := parse_of_reject heq hwalk hreject
  exact ⟨before.length, token, by rw [heq]; simp, hposition, hindex⟩

end Rejected

/-- Two parses that end at the same index with the same fault report it at tokens with the same
index. -/
theorem exists_rejected_both {tokens others : List Token} {file name : String} {limit limit' : Nat}
    {fault : Fault} {position position' : Position}
    (h : (parse tokens file limit).result = .error ⟨fault, position⟩)
    (h' : (parse others name limit').result = .error ⟨fault, position'⟩)
    (hindex : (parse tokens file limit).parser.cursor.index =
      (parse others name limit').parser.cursor.index) :
    ∃ (i : Nat) (token other : Token), (Token.terminated tokens file)[i]? = some token ∧
      (Token.terminated others name)[i]? = some other ∧
      position = token.span.start ∧ position' = other.span.start := by
  obtain ⟨i, token, hi, hposition, hstop⟩ := exists_rejected_at h
  obtain ⟨j, other, hj, hposition', hstop'⟩ := exists_rejected_at h'
  have hij : j = i := by
    rw [hindex, hstop'] at hstop
    exact Nat.add_right_cancel hstop
  rw [hij] at hj
  exact ⟨i, token, other, hi, hj, hposition, hposition'⟩

/-- **Tokens over which the scan goes on to an operand with no group open are accepted.** -/
theorem exists_parse_of_walk {tokens : List Token} {limit : Nat}
    (hwalk : Scan.walk limit (.needsOperand 0) tokens = some (.hasOperand 0)) (file : String) :
    ∃ root, (parse tokens file limit).result = .ok root := by
  have hahead : (Cursor.ofTokens tokens file).ahead = tokens := by
    rw [Cursor.ahead_ofTokens, Token.takeWhile_eq_self (Scan.isEnd_of_walk hwalk)]
  have hend := (Cursor.ofTokens tokens file).isEnd_last
  have hscan : scan tokens file limit = .ok () := by
    have hover := Scan.run_append (Cursor.ofTokens tokens file).last [] hwalk
    rw [List.append_nil] at hover
    rw [scan, hahead, hover, Scan.run]
    simp [Scan.step, Scan.isSign, Token.isSign, hend]
  have hmap := (parse_refines_scan tokens file limit).1
  rw [hscan] at hmap
  cases hresult : (parse tokens file limit).result with
  | ok root => exact ⟨root, rfl⟩
  | error error =>
    rw [hresult] at hmap
    cases hmap

end Calculator
