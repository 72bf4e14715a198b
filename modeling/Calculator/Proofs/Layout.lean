/-
# Layout does not matter

A source is seen as pieces, which are whole runs of digits and single characters,
with blanks before, between and after them. Sources with the same pieces differ
in their blanks alone, and two runs that come after each other are kept apart by
a blank in both. They are cut into tokens that are alike, or both
fail at the same piece (`Text.Spaced.readAlike`), be it a lexeme or not. As spans
do not matter either, such sources have the same expression and the same value,
or errors with the same fault (`layout_irrelevant`).

Key definitions: `Text.IsPiece`, `Text.Spaced`, `ReadAlike`, `expression`.
Key theorems: `Text.Spaced.readAlike`, `layout_irrelevant`.
-/
import Calculator.Proofs.Blame
import Calculator.Proofs.Spans
import Calculator.Proofs.Unreadable

namespace Calculator

open Text

namespace Text

/-- The text is a run of digits, or one character that is neither a digit nor a blank. -/
def IsPiece (text : List Char) : Prop :=
  IsRun text ∨ ∃ c, text = [c] ∧ c.isDigit = false ∧ isBlank c = false

/-- The text consists of the pieces with gaps before, between and after them, and no run of digits
goes on in what follows it. -/
inductive Spaced : List (List Char) → List Char → Prop
  | tail {gap : List Char} : IsGap gap → Spaced [] gap
  | piece {gap piece rest : List Char} {pieces : List (List Char)} : IsGap gap → IsPiece piece →
    (IsRun piece → NoDigit rest) → Spaced pieces rest →
    Spaced (piece :: pieces) (gap ++ (piece ++ rest))

/-- A piece is a lexeme, or nothing can be read where it stands. -/
theorem IsPiece.isLexeme_or_blocked {piece : List Char} (h : IsPiece piece) :
    IsLexeme piece ∨ ∃ fault, ∀ rest, (IsRun piece → NoDigit rest) → Blocked (piece ++ rest) fault := by
  rcases h with hrun | ⟨c, rfl, hdigit, hblank⟩
  · by_cases hfit : natOfDigits piece < 0x8000000000000000
    · exact .inl (.inr ⟨hrun, hfit⟩)
    · exact .inr ⟨_, fun rest hno => .bigRun hrun (hno hrun) hfit⟩
  · by_cases hmark : c ∈ marks
    · exact .inl (.inl ⟨c, hmark, rfl⟩)
    · exact .inr ⟨_, fun rest _ => .stray hdigit hblank hmark⟩

end Text

/-- The results of two tokenizations are tokens that are alike, or the same fault. -/
inductive ReadAlike : Except Error (List Token) → Except Error (List Token) → Prop
  | tokens {tokens others : List Token} : List.Forall₂ Token.Alike tokens others →
    ReadAlike (.ok tokens) (.ok others)
  | error {fault : Fault} {position position' : Position} :
    ReadAlike (.error ⟨fault, position⟩) (.error ⟨fault, position'⟩)

theorem lexemeToken_alike (file name : String) (offset offset' : Nat) (lexeme : List Char) :
    (lexemeToken file offset lexeme).Alike (lexemeToken name offset' lexeme) := by
  unfold lexemeToken
  split <;> exact ⟨rfl, rfl, rfl⟩

theorem Text.Spaced.finish_alike (file name : String) {pieces : List (List Char)}
    {text : List Char} (h : Spaced pieces text) : ∀ {text' : List Char}, Spaced pieces text' →
    ∀ {found found' : List Token}, List.Forall₂ Token.Alike found found' →
    ∀ offset offset' : Nat, ReadAlike ((Reading.mk offset text found).finish file)
      ((Reading.mk offset' text' found').finish name) := by
  induction h with
  | tail hgap =>
    rintro _ ⟨hgap'⟩ found found' hfound offset offset'
    rw [Reading.finish_tail hgap, Reading.finish_tail hgap']
    exact .tokens (List.rel_append (List.rel_reverse hfound) (.cons ⟨rfl, rfl, rfl⟩ .nil))
  | @piece gap piece rest pieces hgap hpiece hno _ ih =>
    intro text' h' found found' hfound offset offset'
    cases h' with
    | @piece gap' _ rest' _ hgap' _ hno' hrest' =>
      rw [Reading.finish_gap hgap, Reading.finish_gap hgap']
      rcases hpiece.isLexeme_or_blocked with hlexeme | ⟨fault, hblocked⟩
      · rw [Reading.finish_lexeme hlexeme hno, Reading.finish_lexeme hlexeme hno']
        exact ih hrest' (.cons (lexemeToken_alike ..) hfound) _ _
      · rw [(hblocked rest hno).finish_eq, (hblocked rest' hno').finish_eq]
        exact .error

/-- **Blanks do not influence a tokenization.** Sources with the same pieces are cut into tokens
that are alike, or both are not cut for the same fault. -/
theorem Text.Spaced.readAlike {pieces : List (List Char)} {source other : String}
    (h : Spaced pieces source.toList) (h' : Spaced pieces other.toList) (file name : String) :
    ReadAlike (tokenize source file) (tokenize other name) :=
  h.finish_alike file name h' .nil 0 0

/-- The expression of a source, or the error of the stage that fails to make one. -/
def expression (source file : String) (limit : Nat) : Except Error Expr :=
  (tokenize source file).bind fun tokens => (parse tokens file limit).result

theorem outcome_eq_bind (source file : String) (limit : Nat) :
    outcome source file limit = (expression source file limit).bind Expr.evaluate := by
  unfold outcome expression
  cases tokenize source file <;> rfl

/-- Sources with the same pieces have expressions that are equal but for the spans, with the same
texts and the same value, or they fail with the same fault. -/
theorem Text.Spaced.expression_alike {pieces : List (List Char)} {source other : String}
    (h : Spaced pieces source.toList) (h' : Spaced pieces other.toList) (file name : String)
    (limit : Nat) :
    (∃ (T : Token → Token → Prop) (e e' : Expr), expression source file limit = .ok e ∧
      expression other name limit = .ok e' ∧ SameExpr T e e') ∨
    ∃ fault position position', expression source file limit = .error ⟨fault, position⟩ ∧
      expression other name limit = .error ⟨fault, position'⟩ := by
  have hread := h.readAlike h' file name
  unfold expression
  generalize tokenize source file = result, tokenize other name = result' at hread
  cases hread with
  | error => exact .inr ⟨_, _, _, rfl, rfl⟩
  | @tokens tokens others halike =>
    obtain ⟨-, -, hresult⟩ := parse_alike halike file name limit
    simp only [Except.bind]
    generalize (parse tokens file limit).result = result,
      (parse others name limit).result = result' at hresult
    cases hresult with
    | expr hsame => exact .inl ⟨_, _, _, rfl, rfl, hsame⟩
    | error => exact .inr ⟨_, _, _, rfl, rfl⟩

/-- **Spans and blanks influence neither a parse nor an evaluation.** Tokens that agree in kind, text
and number are parsed alike under the same limit: as many nodes are built, the cursors stop at the
same index, and the expressions, what is made of them and their values are the same, or the same
fault is found at the same index. Hence sources with the same pieces have the same expression but
for the spans, the same text and outline of it and the same value, or errors with the same fault. -/
theorem layout_irrelevant :
    (∀ (tokens others : List Token) (file name : String) (limit : Nat),
      List.Forall₂ Token.Alike tokens others →
      (parse tokens file limit).parser.built = (parse others name limit).parser.built ∧
      (parse tokens file limit).parser.cursor.index =
        (parse others name limit).parser.cursor.index ∧
      SameResult (SameIndex (Token.terminated tokens file) (Token.terminated others name))
        (parse tokens file limit).result (parse others name limit).result) ∧
    ∀ (pieces : List (List Char)) (source other file name : String) (limit : Nat),
      Spaced pieces source.toList → Spaced pieces other.toList →
      ((expression source file limit).map fun e => (e.bare, e.infixText, e.outline)).mapError
          Error.fault =
        ((expression other name limit).map fun e => (e.bare, e.infixText, e.outline)).mapError
          Error.fault ∧
      (outcome source file limit).mapError Error.fault =
        (outcome other name limit).mapError Error.fault := by
  refine ⟨fun tokens others file name limit h => parse_alike h file name limit,
    fun pieces source other file name limit h h' => ?_⟩
  rw [outcome_eq_bind, outcome_eq_bind]
  rcases h.expression_alike h' file name limit with
    ⟨T, e, e', hone, hother, hsame⟩ | ⟨fault, position, position', hone, hother⟩
  · rw [hone, hother]
    refine ⟨?_, ?_⟩
    · simp only [Except.map, Except.mapError, hsame.bare, hsame.infixText, hsame.outline]
    · have hvalue := hsame.evaluate
      simp only [Except.bind]
      generalize e.evaluate = value, e'.evaluate = value' at hvalue
      cases hvalue <;> rfl
  · rw [hone, hother]
    exact ⟨rfl, rfl⟩

/-- In `40/0` and in ` 40 /` with the zero on the next line, it is the division that fails. -/
theorem layout_irrelevant_division :
    Spaced [['4', '0'], ['/'], ['0']] "40/0".toList ∧
    Spaced [['4', '0'], ['/'], ['0']] " 40 /\n0".toList ∧
    outcome "40/0" "input.txt" 0 = .error ⟨.divisionByZero, Position.at 2 "input.txt"⟩ ∧
    (outcome " 40 /\n0" "shell" 0).mapError Error.fault = .error .divisionByZero := by
  have hempty : IsGap [] := fun c hc => absurd hc List.not_mem_nil
  have hblank : ∀ {c : Char}, isBlank c = true → IsGap [c] := by
    intro c hc d hd
    rwa [List.mem_singleton.1 hd]
  have hforty : IsPiece ['4', '0'] := .inl ⟨List.cons_ne_nil _ _, List.all_eq_true.1 rfl⟩
  have hzero : IsPiece ['0'] := .inl ⟨List.cons_ne_nil _ _, List.all_eq_true.1 rfl⟩
  have hslash : IsPiece ['/'] := .inr ⟨'/', rfl, by decide, by decide⟩
  have hmark : ∀ rest, IsRun ['/'] → NoDigit rest :=
    fun _ hrun => absurd hrun (not_isRun_mark (by decide))
  have hlast : Spaced [['0']] ['0'] :=
    .piece hempty hzero (fun _ c hc => by cases hc) (.tail hempty)
  have hone : Spaced [['4', '0'], ['/'], ['0']] ['4', '0', '/', '0'] :=
    .piece hempty hforty (fun _ c hc => by cases hc; decide) (.piece hempty hslash (hmark _) hlast)
  have hother : Spaced [['4', '0'], ['/'], ['0']] [' ', '4', '0', ' ', '/', '\n', '0'] :=
    .piece (hblank (by decide)) hforty (fun _ c hc => by cases hc; decide)
      (.piece (hblank (by decide)) hslash (hmark _)
        (.piece (hblank (by decide)) hzero (fun _ c hc => by cases hc) (.tail hempty)))
  have hsource : Spaced [['4', '0'], ['/'], ['0']] "40/0".toList := hone
  have hspaced : Spaced [['4', '0'], ['/'], ['0']] " 40 /\n0".toList := hother
  have hdivision : outcome "40/0" "input.txt" 0 =
      .error ⟨.divisionByZero, Position.at 2 "input.txt"⟩ := by decide +kernel
  obtain ⟨-, hsame⟩ := layout_irrelevant.2 _ _ _ "input.txt" "shell" 0 hsource hspaced
  rw [hdivision] at hsame
  exact ⟨hsource, hspaced, hdivision, hsame.symm⟩

end Calculator
