/-
# Every error points at what it is about

A source goes through three stages: it is cut into tokens, they are parsed, and
the expression is evaluated. Whichever stage fails, the error names the file and
a byte offset where a character of the source starts, or where the source ends,
and what the fault says of the input is to be read off the source there
(`Fault.PointsAt`). So far as an error is about a token, this is because the
tokens stand in the source; so far as it is about an operator, because the
operators of the expression are tokens. Each stage has its own lemma, and the
offset is the number of bytes before the place as long as that fits into 32 bits.

Key definitions: `outcome`, `Text.LexemeAt`, `Fault.PointsAt`, `Error.PointsInto`.
Key theorems: `Derives.exists_token_of_sign`, `tokenize_pointsInto`, `parse_pointsInto`,
`evaluate_pointsInto`, `Error.PointsInto.exists_place`, `error_points_at_source`.
-/
import Calculator.Proofs.Arithmetic
import Calculator.Proofs.Lines
import Calculator.Proofs.Places
import Calculator.Proofs.Walk

namespace Calculator

open Text

/-- What the three stages make of a source: its value, or the error of the first that fails. -/
def outcome (source file : String) (limit : Nat) : Except Error Int64 :=
  (tokenize source file).bind fun tokens => (parse tokens file limit).result.bind Expr.evaluate

/-! ### What a fault says of a place -/

/-- The lexeme `found` stands at the place between the two texts. -/
def Text.LexemeAt (front rest : List Char) (found : String) : Prop :=
  ∃ lexeme more, rest = lexeme ++ more ∧ Stands front lexeme more ∧ found = String.ofList lexeme

/-- The fault is about the place between the two texts, if at most `limit` groups may be open. -/
def Fault.PointsAt (limit : Nat) (front rest : List Char) : Fault → Prop
  | unrecognised text => ∃ c more, rest = c :: more ∧ text = String.ofList [c] ∧
      c.isDigit = false ∧ isBlank c = false ∧ c ∉ marks
  | badNumber digits => ∃ run more, rest = run ++ more ∧ IsRun run ∧ Apart front run ∧
      NoDigit more ∧ digits = String.ofList run
  | expectedNumber found => LexemeAt front rest found
  | expectedClose found => LexemeAt front rest found ∨ (found = "EOF" ∧ rest = [])
  | expectedOperator _ => False
  | expectedInteger _ => False
  | endedEarly => rest = []
  | trailing found => LexemeAt front rest found
  | nestedTooDeep n => n = limit ∧ rest.head? = some '('
  | divisionByZero => rest.head? = some '/'
  | overflow symbol => ∃ c more, rest = c :: more ∧ symbol = String.ofList [c] ∧
      c ∈ ['+', '-', '*', '/']
  | internal _ => False

/-- The error is about a place in the source, and names the file and the bytes before it. -/
def Error.PointsInto (source file : String) (limit : Nat) (error : Error) : Prop :=
  ∃ front rest, source.toList = front ++ rest ∧
    error.position = Position.at (byteLength front) file ∧ error.fault.PointsAt limit front rest

theorem Text.LexemeAt.head?_eq {front rest : List Char} {found : String}
    (h : LexemeAt front rest found) : rest.head? = found.toList.head? := by
  obtain ⟨lexeme, more, rfl, hstands, rfl⟩ := h
  obtain ⟨c, others, rfl, -⟩ := hstands.isLexeme.head_not_blank
  rw [String.toList_ofList]
  rfl

theorem Fault.PointsAt.isBlank_head {fault : Fault} {limit : Nat} {front more : List Char}
    {c : Char} (h : fault.PointsAt limit front (c :: more)) : isBlank c = false := by
  have hmark : ∀ d ∈ marks, (c :: more).head? = some d → isBlank c = false := by
    intro d hd hc
    cases hc
    exact isBlank_of_mem_marks c hd
  have hlexeme : ∀ found, LexemeAt front (c :: more) found → isBlank c = false := by
    intro found hfound
    obtain ⟨lexeme, others, heq, hstands, -⟩ := hfound
    obtain ⟨d, rest, rfl, hd⟩ := hstands.isLexeme.head_not_blank
    cases heq
    exact hd
  cases fault with
  | unrecognised text =>
    obtain ⟨d, rest, heq, -, -, hblank, -⟩ := h
    cases heq
    exact hblank
  | badNumber digits =>
    obtain ⟨run, rest, heq, ⟨hne, hall⟩, -⟩ := h
    obtain ⟨d, others, rfl⟩ := List.exists_cons_of_ne_nil hne
    cases heq
    exact isBlank_of_isDigit (hall c List.mem_cons_self)
  | expectedNumber found => exact hlexeme found h
  | expectedClose found =>
    rcases h with h | ⟨-, h⟩
    · exact hlexeme found h
    · cases h
  | trailing found => exact hlexeme found h
  | endedEarly => cases h
  | nestedTooDeep n => exact hmark '(' (by decide) h.2
  | divisionByZero => exact hmark '/' (by decide) h
  | overflow symbol =>
    obtain ⟨d, rest, heq, -, hd⟩ := h
    have hd : d ∈ marks := List.mem_of_mem_drop (i := 2) hd
    exact hmark d hd (by rw [heq]; rfl)
  | expectedOperator found => exact h.elim
  | expectedInteger found => exact h.elim
  | internal reason => exact h.elim

/-! ### Tokens that stand in a source -/

namespace Token

/-- A token that stands in a text starts where its text is a lexeme, and has a value if it is an
integer. -/
theorem StandsIn.exists_lexemeAt {text : List Char} {file : String} {token : Token}
    (h : token.StandsIn text file) :
    (token.isInteger = true → token.number ≠ none) ∧ ∃ front rest, text = front ++ rest ∧
      token.span.start = Position.at (byteLength front) file ∧ LexemeAt front rest token.text := by
  obtain ⟨front, lexeme, rest, htext, hstands, rfl⟩ := h
  refine ⟨?_, front, lexeme ++ rest, htext, ?_, lexeme, rest, rfl, hstands, ?_⟩
  · unfold lexemeToken
    split <;> simp [isInteger]
  · unfold lexemeToken
    split <;> rfl
  · unfold lexemeToken
    split <;> rfl

theorem head?_of_isOpen {token : Token} (h : token.isOpen = true) :
    token.text.toList.head? = some '(' := by
  simp only [isOpen, isMark, Bool.and_eq_true, beq_iff_eq] at h
  exact h.2

theorem text_of_isSign {token : Token} {op : Operator} (h : token.isSign op = true) :
    token.text = op.symbol := by
  simp only [isSign, Bool.and_eq_true, decide_eq_true_eq] at h
  exact h.2

end Token

/-- Every operator of a phrase is one of its tokens. -/
theorem Derives.exists_token_of_sign {rule : Rule} {limit : Nat} {tokens : List Token} {e : Expr}
    (h : Derives rule limit tokens e) {op : Operator} {span : Span} :
    (op, span) ∈ e.signs → ∃ token ∈ tokens, token.isSign op = true ∧ token.span = span := by
  induction h with
  | number => intro hmem; cases hmem
  | group _ _ _ ih =>
    intro hmem
    obtain ⟨token, htoken, hsign⟩ := ih hmem
    exact ⟨token, List.mem_cons_of_mem _ (List.mem_append_left _ htoken), hsign⟩
  | single _ _ ih => exact ih
  | @binary _ _ _ o sign before after _ _ _ _ hs _ _ ihl ihr =>
    intro hmem
    rcases List.mem_append.1 hmem with hmem | hmem
    · obtain ⟨token, htoken, hsign⟩ := ihl hmem
      exact ⟨token, List.mem_append_left _ htoken, hsign⟩
    · rcases List.mem_cons.1 hmem with heq | hmem
      · cases heq
        exact ⟨sign, List.mem_append_right _ List.mem_cons_self, hs, rfl⟩
      · obtain ⟨token, htoken, hsign⟩ := ihr hmem
        exact ⟨token, List.mem_append_right _ (List.mem_cons_of_mem _ htoken), hsign⟩

/-! ### The three stages -/

section Stages

variable {source file : String} {limit : Nat} {tokens : List Token} {error : Error}

/-- A source that is not cut into tokens has the character or the digits that prevent it where the
error says. -/
theorem tokenize_pointsInto (h : tokenize source file = .error error) :
    error.PointsInto source file limit := by
  obtain ⟨front, rest, -, -, hsource, -, hapart, hblocked, hposition⟩ :=
    exists_blocked_of_tokenize h
  refine ⟨front, rest, hsource, hposition, ?_⟩
  cases hfault : error.fault with
  | unrecognised text =>
    rw [hfault] at hblocked
    cases hblocked with
    | stray hdigit hblank hmark => exact ⟨_, _, rfl, rfl, hdigit, hblank, hmark⟩
  | badNumber digits =>
    rw [hfault] at hblocked
    cases hblocked with
    | bigRun hrun hno =>
      refine ⟨_, _, rfl, hrun, ?_, hno, rfl⟩
      intro c d hc hd
      exact hapart c d hc (by rw [List.head?_append, hd]; rfl)
  | _ => rw [hfault] at hblocked; cases hblocked

theorem Cursor.ofTokens_append_endAt {lexemes : List Token}
    (h : ∀ token ∈ lexemes, token.isEnd = false) (position : Position) (file : String) :
    (Cursor.ofTokens (lexemes ++ [Token.endAt position]) file).ahead = lexemes ∧
      (Cursor.ofTokens (lexemes ++ [Token.endAt position]) file).last = Token.endAt position := by
  have hterminated : Token.terminated (lexemes ++ [Token.endAt position]) file =
      lexemes ++ [Token.endAt position] := by
    unfold Token.terminated
    rw [List.getLast?_append]
    rfl
  constructor
  · rw [Cursor.ahead_ofTokens, List.takeWhile_append_of_pos]
    · exact List.append_nil lexemes
    · simpa using h
  · have hnone : lexemes.find? Token.isEnd = none := by simpa using h
    show ((Token.terminated _ file).find? Token.isEnd).getD _ = _
    rw [hterminated, List.find?_append, hnone]
    rfl

/-- The tokens of a source fail to parse at one of them, or at the end of the source. -/
theorem parse_pointsInto (htokens : tokenize source file = .ok tokens)
    (h : (parse tokens file limit).result = .error error) : error.PointsInto source file limit := by
  obtain ⟨lexemes, rfl, hstands⟩ := exists_standsIn_of_tokenize htokens
  have hends : ∀ token ∈ lexemes, token.isEnd = false := by
    intro token htoken
    obtain ⟨front, lexeme, -, -, -, rfl⟩ := hstands token htoken
    exact lexemeToken_isEnd file (byteLength front) lexeme
  obtain ⟨hahead, hlast⟩ :=
    Cursor.ofTokens_append_endAt hends (Position.at source.utf8ByteSize file) file
  have hscan := parse_eq_error_iff.1 h
  simp only [scan, hahead, hlast] at hscan
  obtain ⟨before, token, after, stop, hsplit, -, hreject, hposition⟩ :=
    Scan.exists_reject_of_run hscan
  have hmem : token ∈ lexemes ++ [Token.endAt (Position.at source.utf8ByteSize file)] := by
    rw [hsplit]
    exact List.mem_append_right _ List.mem_cons_self
  have hsteps := Scan.steps limit token stop
  rw [hreject] at hsteps
  rcases List.mem_append.1 hmem with hmem | hmem
  · have hend := hends token hmem
    obtain ⟨hinteger, front, rest, hsource, hstart, hat⟩ := (hstands token hmem).exists_lexemeAt
    refine ⟨front, rest, hsource, hposition.trans hstart, ?_⟩
    generalize error.fault = fault at hsteps
    cases hsteps with
    | tooDeep ho _ => exact ⟨rfl, hat.head?_eq.trans (Token.head?_of_isOpen ho)⟩
    | ended hend' => simp [hend] at hend'
    | noValue hint hnone => exact absurd hnone (hinteger hint)
    | noOperand => exact hat
    | trailing => exact hat
    | unclosed => exact .inl hat
  · -- the end of input stands past the last character
    have htoken := List.mem_singleton.1 hmem
    rw [htoken] at hsteps hposition
    refine ⟨source.toList, [], (List.append_nil _).symm, ?_, ?_⟩
    · rw [hposition, byteLength_toList]
      rfl
    · generalize error.fault = fault at hsteps
      cases hsteps with
      | tooDeep ho _ => cases ho
      | ended => rfl
      | noValue hint _ => cases hint
      | noOperand _ hend _ => cases hend
      | trailing _ hend => cases hend
      | unclosed => exact .inr ⟨rfl, rfl⟩

/-- The expression of a source fails to evaluate at one of its operators. -/
theorem evaluate_pointsInto (htokens : tokenize source file = .ok tokens) {e : Expr}
    (hparse : (parse tokens file limit).result = .ok e) (h : e.evaluate = .error error) :
    error.PointsInto source file limit := by
  obtain ⟨lexemes, rfl, hstands⟩ := exists_standsIn_of_tokenize htokens
  obtain ⟨op, span, hsign, hposition, hfault⟩ := Expr.exists_sign_of_evaluate h
  obtain ⟨token, htoken, hs, rfl⟩ := (parse_sound hparse).exists_token_of_sign hsign
  have hend : token.isEnd = false := Token.isEnd_eq_false_of_isSign hs
  have hmem : token ∈ lexemes := by
    rcases List.mem_append.1 ((List.takeWhile_prefix _).subset htoken) with hmem | hmem
    · exact hmem
    · rw [List.mem_singleton.1 hmem] at hend
      cases hend
  obtain ⟨-, front, rest, hsource, hstart, hat⟩ := (hstands token hmem).exists_lexemeAt
  refine ⟨front, rest, hsource, hposition.trans hstart, ?_⟩
  have hhead : rest.head? = op.symbol.toList.head? := by
    rw [hat.head?_eq, Token.text_of_isSign hs]
  rcases hfault with ⟨hfault, rfl⟩ | hfault
  · rw [hfault]
    exact hhead
  · rw [hfault]
    cases rest with
    | nil => cases op <;> cases hhead
    | cons c more =>
      refine ⟨c, more, rfl, ?_⟩
      cases op <;> cases hhead <;> decide

/-- Whichever stage fails, its error points into the source. -/
theorem outcome_pointsInto (h : outcome source file limit = .error error) :
    error.PointsInto source file limit := by
  unfold outcome at h
  cases htokens : tokenize source file with
  | error other =>
    rw [htokens] at h
    cases h
    exact tokenize_pointsInto htokens
  | ok tokens =>
    cases hparse : (parse tokens file limit).result with
    | error other =>
      simp only [htokens, hparse, Except.bind] at h
      cases h
      exact parse_pointsInto htokens hparse
    | ok e =>
      simp only [htokens, hparse, Except.bind] at h
      exact evaluate_pointsInto htokens hparse h

/-- An error that points into a source of fewer than 2 ^ 32 bytes has the offset of its place. -/
theorem Error.PointsInto.exists_place (hsize : source.utf8ByteSize < 0x100000000)
    (h : error.PointsInto source file limit) :
    error.position.file = file ∧ ∃ front rest, source.toList = front ++ rest ∧
      error.position.offset.toNat = byteLength front ∧ error.fault.PointsAt limit front rest := by
  obtain ⟨front, rest, hsource, hposition, hpoints⟩ := h
  have hle : byteLength front ≤ source.utf8ByteSize := by
    rw [← byteLength_toList, hsource, byteLength_append]
    exact Nat.le_add_right _ _
  rw [hposition]
  refine ⟨rfl, front, rest, hsource, ?_, hpoints⟩
  exact Position.at_offset_toNat_of_lt (Nat.lt_of_le_of_lt hle hsize) file

end Stages

/-- **Every error points at the source text it is about.** In a source of fewer than 2 ^ 32 bytes,
the error of the stage that fails has the given file and the byte offset of a character of the
source or of its end. There the source has the character, the digits, the lexeme, the operator or
the parenthesis that the fault speaks of, and there is a line to show. No error is internal, and
none asks for an operator or an integer. -/
theorem error_points_at_source {source file : String} {limit : Nat} {error : Error}
    (hsize : source.utf8ByteSize < 0x100000000) (h : outcome source file limit = .error error) :
    error.position.file = file ∧
    error.position.offset.toNat ≤ source.utf8ByteSize ∧
    (∃ front rest, source.toList = front ++ rest ∧
      error.position.offset.toNat = byteLength front ∧ error.fault.PointsAt limit front rest) ∧
    lineAt? source error.position.offset.toNat ≠ none := by
  obtain ⟨hfile, front, rest, hsource, hoffset, hpoints⟩ := (outcome_pointsInto h).exists_place hsize
  refine ⟨hfile, ?_, ⟨front, rest, hsource, hoffset, hpoints⟩, ?_⟩
  · rw [hoffset, ← byteLength_toList, hsource, byteLength_append]
    exact Nat.le_add_right _ _
  · rw [hoffset, lineAt?_eq hsource]
    exact Option.some_ne_none _

/-- In a source with an ideographic space and two lines, the division is the character at byte 12:
the blank takes three bytes and the newline one. -/
theorem error_points_at_division :
    outcome "\u3000(1 +\n 4) / 0" "input.txt" 3 =
      .error ⟨.divisionByZero, Position.at 12 "input.txt"⟩ ∧
    ∃ front rest, "\u3000(1 +\n 4) / 0".toList = front ++ rest ∧ byteLength front = 12 ∧
      rest.head? = some '/' := by
  have houtcome : outcome "\u3000(1 +\n 4) / 0" "input.txt" 3 =
      .error ⟨.divisionByZero, Position.at 12 "input.txt"⟩ := by decide +kernel
  have hpoints := error_points_at_source (by decide) houtcome
  obtain ⟨-, -, ⟨front, rest, hsource, hoffset, hdivision⟩, -⟩ := hpoints
  exact ⟨houtcome, front, rest, hsource, hoffset.symm, hdivision⟩

end Calculator
