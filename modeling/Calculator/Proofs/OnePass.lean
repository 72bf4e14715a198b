/-
# The parser does what the scan says

The nest of rules and loops ends as the scan with one counter does, errors
included: with the same fault, at the same token, and with the same number of
tokens passed. At the start of a goal the scan is where the parser is; when the
goal has ended with an expression, the scan has seen an operand and is again
where the parser is (`Runs.scanFrom_eq`). So the equation composes along the
calls, whatever the depth at which an error arises.

Key definitions: `Scan.passed`, `Parser.scanFrom`, `Goal.entry`, `Outcome.rescan`, `Scan.walk`.
Key theorems: `Runs.scanFrom_eq`, `Scan.run_append`, `Derives.walk_eq`, `parse_eq_error_iff`,
`parse_refines_scan`.
-/
import Calculator.Parser.Scan
import Calculator.Proofs.Derivation

namespace Calculator

open Calculator.Parser

/-! ### Where a scan ends -/

namespace Scan

/-- The tokens that are passed before the fault is seen: an integer is taken before its value is
looked for, anything else is left in place. -/
def overrun : Fault → Nat
  | .internal _ => 1
  | _ => 0

/-- The number of tokens a scan has passed when it ends. -/
def passed (limit : Nat) (last : Token) : Scan → List Token → Nat
  | scan, [] =>
    match scan.step limit last with
    | .reject fault => overrun fault
    | _ => 0
  | scan, token :: tokens =>
    match scan.step limit token with
    | .goOn scan => passed limit last scan tokens + 1
    | .accept => 0
    | .reject fault => overrun fault

theorem isSign_iff (token : Token) :
    isSign token = true ↔ ∃ op : Operator, token.isSign op = true := by
  simp only [isSign, List.any_eq_true]
  refine ⟨?_, ?_⟩
  · intro h
    obtain ⟨op, -, hs⟩ := h
    exact ⟨op, hs⟩
  · intro h
    obtain ⟨op, hs⟩ := h
    exact ⟨op, by cases op <;> decide, hs⟩

theorem isSign_eq_false_of_stops {token : Token} (h : Rule.sum.Stops token) :
    isSign token = false := by
  rw [Bool.eq_false_iff]
  intro hs
  obtain ⟨op, hs⟩ := (isSign_iff token).1 hs
  rw [h op (Rule.mem_signs_sum op)] at hs
  cases hs

/-! The steps on which a scan goes on, one for each kind of token. -/

variable {limit opened : Nat} {token : Token}

theorem step_of_isOpen (ho : token.isOpen = true) (hlt : opened < limit) :
    (needsOperand opened).step limit token = .goOn (needsOperand (opened + 1)) := by
  simp [step, ho, Nat.not_le.2 hlt]

theorem step_of_isInteger (hint : token.isInteger = true) {value : Int64}
    (hnum : token.number = some value) :
    (needsOperand opened).step limit token = .goOn (hasOperand opened) := by
  have ho : token.isOpen = false := Token.isMark_eq_false_of_isInteger hint _
  simp [step, ho, Token.isEnd_eq_false_of_isInteger hint, hint, hnum]

theorem step_of_isSign {op : Operator} (hs : token.isSign op = true) :
    (hasOperand opened).step limit token = .goOn (needsOperand opened) := by
  simp [step, (isSign_iff token).2 ⟨op, hs⟩]

theorem step_of_isClose (hc : token.isClose = true) :
    (hasOperand (opened + 1)).step limit token = .goOn (hasOperand opened) := by
  have hsign := isSign_eq_false_of_stops (Rule.stops_of_isClose .sum hc)
  simp [step, hsign, hc]

end Scan

namespace Parser

/-- What a scan that is where the parser is finds, and the index at which it ends. -/
def scanFrom (p : Parser) (scan : Scan) : Except Error Unit × Nat :=
  (Scan.run p.limit p.cursor.last scan p.cursor.ahead,
    p.cursor.index + Scan.passed p.limit p.cursor.last scan p.cursor.ahead)

theorem scanFrom_of_goOn {p : Parser} {scan next : Scan} (hend : p.current.isEnd = false)
    (h : scan.step p.limit p.current = .goOn next) : p.scanFrom scan = p.past.scanFrom next := by
  unfold scanFrom
  rw [ahead_eq_cons hend, Scan.run, Scan.passed, h]
  refine Prod.ext rfl ?_
  exact Nat.add_right_comm p.cursor.index _ 1

theorem scanFrom_of_reject {p : Parser} {scan : Scan} {fault : Fault}
    (h : scan.step p.limit p.current = .reject fault) :
    p.scanFrom scan = (.error ⟨fault, p.position⟩, p.cursor.index + Scan.overrun fault) := by
  unfold scanFrom
  cases ha : p.cursor.ahead with
  | nil =>
    have hcur : p.current = p.cursor.last := by simp [current, Cursor.current, ha]
    have hpos : p.position = p.current.span.start := rfl
    rw [hcur] at h hpos
    rw [hpos, Scan.run, Scan.passed, h]
  | cons token tokens =>
    have hpos : p.position = p.current.span.start := rfl
    rw [current_of_ahead ha] at h hpos
    rw [hpos, Scan.run, Scan.passed, h]

theorem scanFrom_of_isSign {p : Parser} {op : Operator} (hs : p.current.isSign op = true)
    (opened : Nat) : p.scanFrom (.hasOperand opened) = p.past.scanFrom (.needsOperand opened) :=
  scanFrom_of_goOn (Token.isEnd_eq_false_of_isSign hs) (Scan.step_of_isSign hs)

theorem scanFrom_of_isOpen {p : Parser} {opened : Nat} (ho : p.current.isOpen = true)
    (hlt : opened < p.limit) :
    p.scanFrom (.needsOperand opened) = p.past.scanFrom (.needsOperand (opened + 1)) :=
  scanFrom_of_goOn (Token.isEnd_eq_false_of_isPunct (Token.isPunct_of_isMark ho))
    (Scan.step_of_isOpen ho hlt)

theorem scanFrom_of_isClose {p : Parser} (hc : p.current.isClose = true) (opened : Nat) :
    p.scanFrom (.hasOperand (opened + 1)) = p.past.scanFrom (.hasOperand opened) :=
  scanFrom_of_goOn (Token.isEnd_eq_false_of_isPunct (Token.isPunct_of_isMark hc))
    (Scan.step_of_isClose hc)

theorem scanFrom_of_accept {p : Parser} {scan : Scan}
    (h : scan.step p.limit p.current = .accept) : p.scanFrom scan = (.ok (), p.cursor.index) := by
  unfold scanFrom
  cases ha : p.cursor.ahead with
  | nil =>
    have hcur : p.current = p.cursor.last := by simp [current, Cursor.current, ha]
    rw [hcur] at h
    rw [Scan.run, Scan.passed, h]
    rfl
  | cons token tokens =>
    rw [current_of_ahead ha] at h
    rw [Scan.run, Scan.passed, h]
    rfl

end Parser

/-! ### A run and the scan -/

/-- Where a scan stands that is to check a goal. -/
def Goal.entry (opened : Nat) : Goal → Scan
  | chain .. => .hasOperand opened
  | _ => .needsOperand opened

/-- What a scan finds that has come as far as the outcome: its error, or an operand and then
whatever comes after. -/
def Outcome.rescan (out : Outcome) : Except Error Unit × Nat :=
  match out.result with
  | .ok _ => out.parser.scanFrom (.hasOperand out.parser.depth)
  | .error error => (.error error, out.parser.cursor.index)

theorem leaf_scanFrom_eq {p : Parser} (ho : p.current.isOpen = false) :
    p.scanFrom (.needsOperand p.depth) = p.leaf.rescan := by
  rw [leaf_eq]
  by_cases hend : p.current.isEnd = true
  · rw [if_pos hend]
    exact scanFrom_of_reject (by simp [Scan.step, ho, hend])
  rw [if_neg hend]
  have hend : p.current.isEnd = false := Bool.eq_false_iff.2 hend
  by_cases hint : p.current.isInteger = true
  · rw [if_pos hint]
    cases hnum : p.current.number with
    | none => exact scanFrom_of_reject (by simp [Scan.step, ho, hend, hint, hnum])
    | some value => exact scanFrom_of_goOn hend (Scan.step_of_isInteger hint hnum)
  · rw [if_neg hint]
    exact scanFrom_of_reject (by simp [Scan.step, ho, hend, hint])

theorem closeGroup_scanFrom_eq {p : Parser} {opened : Nat} (hdepth : p.depth = opened + 1)
    (hstops : Rule.sum.Stops p.current) (e : Expr) :
    p.scanFrom (.hasOperand p.depth) = (p.closeGroup e).rescan := by
  have hsign := Scan.isSign_eq_false_of_stops hstops
  rw [closeGroup_eq, hdepth]
  by_cases hc : p.current.isClose = true
  · rw [if_pos hc]
    have hgone : p.past.exitGroup.depth = opened := by
      show p.depth - 1 = opened
      omega
    show _ = p.past.exitGroup.scanFrom (.hasOperand p.past.exitGroup.depth)
    rw [hgone]
    exact scanFrom_of_isClose hc opened
  · rw [if_neg hc]
    exact scanFrom_of_reject (by simp [Scan.step, hsign, hc])

/-- **A scan and a run that start together end together**, with the same error at the same index,
or with an operand seen at the same token and the same groups open. -/
theorem Runs.scanFrom_eq {g : Goal} {p : Parser} {out : Outcome} (h : Runs g p out) :
    p.scanFrom (g.entry p.depth) = out.rescan := by
  induction h with
  | atom _ ih => exact ih
  | noOperand _ _ ih => exact ih
  | phrase _ _ _ ihfirst ihrest => exact ihfirst.trans ihrest
  | stop => rfl
  | noRight _ _ hs _ ih => exact (scanFrom_of_isSign hs _).trans ih
  | right _ _ hs _ _ ihright ihrest =>
    exact (scanFrom_of_isSign hs _).trans (ihright.trans ihrest)
  | leaf ho => exact leaf_scanFrom_eq ho
  | tooDeep ho hfull =>
    exact scanFrom_of_reject (by simp [Goal.entry, Scan.step, ho, hfull])
  | noSum ho hlt _ ih => exact (scanFrom_of_isOpen ho hlt).trans ih
  | @group p q e ho hlt hsum ih =>
    obtain ⟨taken, htook, -⟩ := hsum.sound e rfl
    have hclose := closeGroup_scanFrom_eq htook.depth (hsum.stops trivial e rfl) e
    exact (scanFrom_of_isOpen ho hlt).trans (Eq.trans ih hclose)

/-! ### A scan goes over a phrase -/

namespace Scan

variable {limit : Nat}

/-- Where a scan stands after the tokens, if it goes on at each of them. -/
def walk (limit : Nat) : Scan → List Token → Option Scan
  | scan, [] => some scan
  | scan, token :: tokens =>
    match scan.step limit token with
    | .goOn next => walk limit next tokens
    | _ => none

theorem walk_of_goOn {token : Token} {scan next : Scan} (h : scan.step limit token = .goOn next)
    (tokens : List Token) : walk limit scan (token :: tokens) = walk limit next tokens := by
  rw [walk, h]

theorem walk_cons_eq_some_iff {token : Token} {scan stop : Scan} {tokens : List Token} :
    walk limit scan (token :: tokens) = some stop ↔
      ∃ next, scan.step limit token = .goOn next ∧ walk limit next tokens = some stop := by
  rw [walk]
  cases scan.step limit token with
  | goOn next => simp
  | accept => simp
  | reject fault => simp

theorem walk_append (after : List Token) : ∀ (scan : Scan) (before : List Token),
    walk limit scan (before ++ after) = (walk limit scan before).bind fun next =>
      walk limit next after
  | scan, [] => rfl
  | scan, token :: before => by
    rw [List.cons_append, walk, walk]
    cases scan.step limit token with
    | goOn next => exact walk_append after next before
    | accept => rfl
    | reject fault => rfl

theorem run_of_goOn {token : Token} {scan next : Scan}
    (h : scan.step limit token = .goOn next) (last : Token) (tokens : List Token) :
    run limit last scan (token :: tokens) = run limit last next tokens := by
  rw [run, h]

/-- What a scan finds after tokens it goes on over is what it finds from there. -/
theorem run_append (last : Token) (rest : List Token) : ∀ {scan stop : Scan} {tokens : List Token},
    walk limit scan tokens = some stop →
    run limit last scan (tokens ++ rest) = run limit last stop rest
  | scan, stop, [], h => by
    rw [walk, Option.some.injEq] at h
    rw [h]
    rfl
  | scan, stop, token :: tokens, h => by
    obtain ⟨next, hstep, hwalk⟩ := walk_cons_eq_some_iff.1 h
    rw [List.cons_append, run_of_goOn hstep]
    exact run_append last rest hwalk

end Scan

/-- A scan that needs an operand and has room for its groups goes on over any phrase. -/
theorem Derives.walk_eq {rule : Rule} {room : Nat} {tokens : List Token} {e : Expr}
    (h : Derives rule room tokens e) : ∀ {limit opened : Nat}, room ≤ limit - opened →
    Scan.walk limit (.needsOperand opened) tokens = some (.hasOperand opened) := by
  induction h with
  | number hint hnum =>
    intro limit opened _
    exact Scan.walk_of_goOn (Scan.step_of_isInteger hint hnum) []
  | @group room first close tokens e ho hc _ ih =>
    intro limit opened hroom
    have hlt : opened < limit := by omega
    have hinside : room ≤ limit - (opened + 1) := by omega
    calc Scan.walk limit (.needsOperand opened) (first :: (tokens ++ [close]))
        = Scan.walk limit (.needsOperand (opened + 1)) (tokens ++ [close]) :=
          Scan.walk_of_goOn (Scan.step_of_isOpen ho hlt) _
      _ = Scan.walk limit (.hasOperand (opened + 1)) [close] := by
          rw [Scan.walk_append, ih hinside]
          rfl
      _ = some (.hasOperand opened) := Scan.walk_of_goOn (Scan.step_of_isClose hc) []
  | single _ _ ih => exact ih
  | @binary rule tighter room op token before after left right hr ho hs _ _ ihl ihr =>
    intro limit opened hroom
    calc Scan.walk limit (.needsOperand opened) (before ++ token :: after)
        = Scan.walk limit (.hasOperand opened) (token :: after) := by
          rw [Scan.walk_append, ihl hroom]
          rfl
      _ = Scan.walk limit (.needsOperand opened) after :=
          Scan.walk_of_goOn (Scan.step_of_isSign hs) _
      _ = some (.hasOperand opened) := ihr hroom

theorem Derives.run_eq {rule : Rule} {room : Nat} {tokens : List Token} {e : Expr}
    (h : Derives rule room tokens e) {limit opened : Nat} (hroom : room ≤ limit - opened)
    (last : Token) (rest : List Token) :
    Scan.run limit last (.needsOperand opened) (tokens ++ rest) =
      Scan.run limit last (.hasOperand opened) rest :=
  Scan.run_append last rest (h.walk_eq hroom)

/-! ### The whole input -/

/-- What a scan of a whole input finds is what the parse finds, and both end at the same index. -/
theorem parse_scanFrom_eq (tokens : List Token) (file : String) (limit : Nat) :
    (start tokens file limit).scanFrom (.needsOperand 0) =
      ((parse tokens file limit).result.map fun _ => (),
        (parse tokens file limit).parser.cursor.index) := by
  have hruns := runs_phrase .sum (start tokens file limit)
  have hscan := hruns.scanFrom_eq
  unfold parse whole expression Outcome.andThen
  cases hout : (start tokens file limit).phrase .sum with
  | mk q result =>
    rw [hout] at hruns hscan
    cases result with
    | error error => exact hscan
    | ok e =>
      obtain ⟨taken, htook, -⟩ := hruns.sound e rfl
      have hdepth : q.depth = 0 := htook.depth
      have hsign := Scan.isSign_eq_false_of_stops (hruns.stops trivial e rfl)
      refine hscan.trans ?_
      show q.scanFrom (.hasOperand q.depth) = _
      rw [hdepth]
      unfold expectEnd
      by_cases hend : q.cursor.atEnd = true
      · have hcur : q.current.isEnd = true := hend
        simp only [hend]
        exact scanFrom_of_accept (by simp [Scan.step, hsign, hcur])
      · have hcur : q.current.isEnd = false := Bool.eq_false_iff.2 hend
        simp only [hend]
        exact scanFrom_of_reject (by simp [Scan.step, hsign, hcur])

/-- A parse fails with the error of the scan, and only if there is one. -/
theorem parse_eq_error_iff {tokens : List Token} {file : String} {limit : Nat} {error : Error} :
    (parse tokens file limit).result = .error error ↔ scan tokens file limit = .error error := by
  have hscan : scan tokens file limit = (parse tokens file limit).result.map fun _ => () :=
    congrArg Prod.fst (parse_scanFrom_eq tokens file limit)
  rw [hscan]
  cases (parse tokens file limit).result with
  | ok root => simp [Except.map]
  | error other => simp [Except.map]

/-- **The parser refines the scan.** A list of tokens parses exactly if the scan accepts it, and
otherwise fails with the error of the scan: the same fault, at the start of the token that the scan
rejects. In both cases the parser has passed as many tokens as the scan. -/
theorem parse_refines_scan (tokens : List Token) (file : String) (limit : Nat) :
    (parse tokens file limit).result.map (fun _ => ()) = scan tokens file limit ∧
    (parse tokens file limit).parser.cursor.index =
      Scan.passed limit (Cursor.ofTokens tokens file).last (.needsOperand 0)
        (tokens.takeWhile fun token => !token.isEnd) := by
  have h := parse_scanFrom_eq tokens file limit
  rw [Prod.ext_iff] at h
  obtain ⟨hresult, hindex⟩ := h
  refine ⟨hresult.symm, hindex.symm.trans ?_⟩
  rw [← Cursor.ahead_ofTokens tokens file]
  exact Nat.zero_add _

end Calculator
