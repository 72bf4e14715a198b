/-
# The name of a source

A source can go by any name. The tokens, the expression and the error that are made of it
name it in their places and are otherwise the same (`tokenize_renamed`, `parse_renamed`):
no stage reads the name, and the parser takes tokens alike that differ in their spans
alone. So of a report only the row with the name changes (`Error.report_renamed`). That is
the second row, because what an error quotes of a source has no newline.

Key definitions: `Position.renamed`, `Token.renamed`, `Error.renamed`, `SameParse`.
Key theorems: `tokenize_renamed`, `parse_renamed`, `Error.report_renamed`.
-/
import Calculator.Proofs.Blame
import Calculator.Proofs.Drawing
import Calculator.Proofs.Spans

namespace Calculator

open Text

/-! ### Places in a source of another name -/

/-- The same offset in a source that goes by the name. -/
def Position.renamed (name : String) (p : Position) : Position := { p with file := name }

def Span.renamed (name : String) (s : Span) : Span := ⟨s.start.renamed name, s.stop.renamed name⟩

def Token.renamed (name : String) (token : Token) : Token :=
  { token with span := token.span.renamed name }

def Error.renamed (name : String) (error : Error) : Error :=
  ⟨error.fault, error.position.renamed name⟩

/-- What has been made of a source, changed by `f`, or the error, if the source goes by the name. -/
def renamedResult {α : Type} (name : String) (f : α → α) : Except Error α → Except Error α
  | .error error => .error (error.renamed name)
  | .ok a => .ok (f a)

/-- A reading of a source that goes by the name. -/
def Reading.renamed (name : String) (reading : Reading) : Reading :=
  { reading with found := reading.found.map (Token.renamed name) }

theorem Token.alike_renamed (name : String) (token : Token) : token.Alike (token.renamed name) :=
  ⟨rfl, rfl, rfl⟩

/-! ### The tokens -/

theorem Pattern.token?_renamed (pattern : Pattern) (file name : String) (offset : Nat)
    (lexeme : List Char) : pattern.token? name offset lexeme =
      renamedResult name (Option.map (Token.renamed name)) (pattern.token? file offset lexeme) := by
  cases pattern with
  | digits =>
    by_cases hfit : natOfDigits lexeme < 0x8000000000000000
    · simp only [Pattern.token?, if_pos hfit]
      rfl
    · simp only [Pattern.token?, if_neg hfit]
      rfl
  | blanks => rfl
  | mark c => rfl

namespace Reading

theorem next_renamed (file name : String) (reading : Reading) : (reading.renamed name).next name =
    renamedResult name (Reading.renamed name) (reading.next file) := by
  obtain ⟨offset, rest, found⟩ := reading
  simp only [Reading.renamed, Reading.next]
  cases Pattern.first? rest with
  | none => rfl
  | some pattern =>
    simp only [pattern.token?_renamed file name]
    cases pattern.token? file offset (pattern.split rest).1 with
    | error error => rfl
    | ok token? => cases token? <;> rfl

theorem finish_renamed (file name : String) (reading : Reading) :
    (reading.renamed name).finish name =
      renamedResult name (List.map (Token.renamed name)) (reading.finish file) := by
  have hrest : (reading.renamed name).rest = reading.rest := rfl
  fun_induction Reading.finish file reading with
  | case1 reading hempty =>
    rw [finish_eq, hrest, if_pos hempty, renamedResult, List.map_append, List.map_reverse]
    rfl
  | case2 reading hempty error hnext =>
    rw [finish_eq, hrest, if_neg hempty, next_renamed file name, hnext]
    rfl
  | case3 reading hempty after hnext _ ih =>
    rw [finish_eq, hrest, if_neg hempty, next_renamed file name, hnext]
    exact ih rfl

end Reading

/-- **A source is cut into the same tokens under any name**, or has the same error, but for the name
in their places. -/
theorem tokenize_renamed (source file name : String) : tokenize source name =
    renamedResult name (List.map (Token.renamed name)) (tokenize source file) :=
  Reading.finish_renamed file name (Reading.start source)

/-! ### The expression -/

theorem Token.terminated_renamed (tokens : List Token) (file name : String) :
    Token.terminated (tokens.map (Token.renamed name)) name =
      (Token.terminated tokens file).map (Token.renamed name) := by
  unfold Token.terminated
  rw [List.getLast?_map]
  cases tokens.getLast? with
  | none => rfl
  | some last =>
    show (if last.isEnd then _ else _) = (if last.isEnd then _ else _ : List Token).map _
    by_cases hend : last.isEnd = true
    · rw [if_pos hend, if_pos hend]
    · rw [if_neg hend, if_neg hend, List.map_append]
      rfl

/-- Parses of a source under two names, the second of which is given: the same number of nodes has
been built, and the expressions are printed alike and have the same value, or the same error. -/
structure SameParse (name : String) (a b : Outcome) : Prop where
  built : b.parser.built = a.parser.built
  error : ∀ error, a.result = .error error → b.result = .error (error.renamed name)
  expr : ∀ e, a.result = .ok e → ∃ e', b.result = .ok e' ∧ e'.outline = e.outline ∧
    e'.infixText = e.infixText ∧ e'.evaluate = renamedResult name id e.evaluate

/-- **The tokens of a source are parsed alike under any name.** -/
theorem parse_renamed (tokens : List Token) (file name : String) (limit : Nat) :
    SameParse name (parse tokens file limit)
      (parse (tokens.map (Token.renamed name)) name limit) := by
  have halike : List.Forall₂ Token.Alike tokens (tokens.map (Token.renamed name)) := by
    rw [List.forall₂_map_right_iff]
    exact List.forall₂_same.2 fun token _ => token.alike_renamed name
  obtain ⟨hbuilt, -, hresult⟩ := parse_alike halike file name limit
  -- a token at the same index is the same under the other name
  have hstart : ∀ a b, SameIndex (Token.terminated tokens file)
      (Token.terminated (tokens.map (Token.renamed name)) name) a b →
      b.span.start = a.span.start.renamed name := by
    intro a b hab
    obtain ⟨i, ha, hb⟩ := hab
    rw [Token.terminated_renamed tokens file name, List.getElem?_map, ha] at hb
    cases hb
    rfl
  constructor
  case built => exact hbuilt.symm
  case error =>
    intro error herror
    rw [herror] at hresult
    generalize (parse (tokens.map (Token.renamed name)) name limit).result = result at hresult
    cases hresult with
    | error hab => rw [hstart _ _ hab]; rfl
  case expr =>
    intro e he
    rw [he] at hresult
    generalize (parse (tokens.map (Token.renamed name)) name limit).result = result at hresult
    cases hresult with
    | @expr _ e' hsame =>
      refine ⟨e', rfl, hsame.outline.symm, hsame.infixText.symm, ?_⟩
      have hvalue := hsame.evaluate
      generalize e.evaluate = value, e'.evaluate = value' at hvalue
      cases hvalue with
      | value v => rfl
      | error hab => rw [hstart _ _ hab]; rfl

/-! ### The report -/

theorem Text.IsLexeme.newline_not_mem {lexeme : List Char} (h : IsLexeme lexeme) :
    '\n' ∉ lexeme := by
  rcases h with ⟨c, hc, rfl⟩ | ⟨⟨-, hdigits⟩, -⟩
  · rw [List.mem_singleton]
    rintro rfl
    exact absurd hc (by decide)
  · intro hmem
    exact absurd (hdigits _ hmem) (by decide)

namespace Fault

variable {fault : Fault} {limit : Nat} {front rest : List Char}

theorem newline_not_mem_name (fault : Fault) : '\n' ∉ fault.name.toList := by
  cases fault <;> simp [name]

theorem PointsAt.newline_not_mem_tip (h : fault.PointsAt limit front rest) {tip : String}
    (htip : fault.tip? = some tip) : '\n' ∉ tip.toList := by
  have haround : ∀ {before found after : String}, '\n' ∉ before.toList → '\n' ∉ found.toList →
      '\n' ∉ after.toList → '\n' ∉ (before ++ found ++ after).toList := by
    intro before found after hbefore hfound hafter
    simp only [String.toList_append, List.mem_append, not_or]
    exact ⟨⟨hbefore, hfound⟩, hafter⟩
  have hlexeme : ∀ {found : String}, LexemeAt front rest found → '\n' ∉ found.toList := by
    intro found hfound
    obtain ⟨lexeme, more, -, hstands, rfl⟩ := hfound
    rw [String.toList_ofList]
    exact hstands.isLexeme.newline_not_mem
  cases fault with
  | unrecognised text => cases htip
  | divisionByZero => cases htip
  | badNumber digits =>
    cases htip
    obtain ⟨run, more, -, hrun, -, -, rfl⟩ := h
    refine haround (by decide) ?_ (by decide)
    rw [String.toList_ofList]
    exact fun hmem => absurd (hrun.2 _ hmem) (by decide)
  | expectedNumber found =>
    cases htip
    exact haround (by decide) (hlexeme h) (by decide)
  | expectedClose found =>
    cases htip
    rcases h with h | ⟨rfl, -⟩
    · exact haround (by decide) (hlexeme h) (by decide)
    · decide
  | endedEarly =>
    cases htip
    decide
  | trailing found =>
    cases htip
    exact haround (by decide) (hlexeme h) (by decide)
  | nestedTooDeep n =>
    cases htip
    exact haround (by decide) (not_mem_decimal (by decide) n) (by decide)
  | overflow symbol =>
    cases htip
    obtain ⟨c, more, -, rfl, hc⟩ := h
    refine haround (by decide) ?_ (by decide)
    rw [String.toList_ofList, List.mem_singleton]
    rintro rfl
    exact absurd hc (by decide)
  | expectedOperator found => exact h.elim
  | expectedInteger found => exact h.elim
  | internal reason => exact h.elim

end Fault

namespace Error

/-- What comes after the first two rows of a report. -/
def shown (error : Error) (source : String) : String :=
  match lineAt? source error.position.offset.toNat with
  | none => ""
  | some line => line.excerpt

theorem report_eq (error : Error) (source : String) : error.report source =
    error.title ++ "\n" ++ ("-> " ++ error.position.file ++ "\n") ++ error.shown source := by
  rw [← headline_eq]
  unfold report shown
  cases lineAt? source error.position.offset.toNat with
  | none => exact String.append_empty.symm
  | some line => rfl

theorem PointsInto.newline_not_mem_title {source file : String} {limit : Nat} {error : Error}
    (h : error.PointsInto source file limit) : '\n' ∉ error.title.toList := by
  obtain ⟨front, rest, -, -, hpoints⟩ := h
  have hname := error.fault.newline_not_mem_name
  unfold title
  cases htip : error.fault.tip? with
  | none => simp [hname]
  | some tip => simp [hname, hpoints.newline_not_mem_tip htip]

end Error

/-- The reports are the same but for their second rows, the first of which names the shell, and the
second of which has the name; or there is none. -/
inductive SameReport (name : String) : String → String → Prop
  | none : SameReport name "" ""
  | some {title shown : String} : '\n' ∉ title.toList →
    SameReport name (title ++ "\n" ++ "-> shell\n" ++ shown)
      (title ++ "\n" ++ ("-> " ++ name ++ "\n") ++ shown)

/-- **Of the report of an error only the second row depends on the name of the source.** -/
theorem Error.report_renamed {source : String} {limit : Nat} {error : Error}
    (h : error.PointsInto source Lexer.shell limit) (name : String) :
    SameReport name (error.report source) ((error.renamed name).report source) := by
  have hfile : error.position.file = Lexer.shell := by
    obtain ⟨front, rest, -, hposition, -⟩ := h
    rw [hposition]
    rfl
  rw [report_eq, report_eq, hfile]
  exact .some h.newline_not_mem_title

end Calculator
