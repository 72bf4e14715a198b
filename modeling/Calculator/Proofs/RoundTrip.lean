/-
# Reading back what is printed

The line of an expression is cut into the tokens one expects (`Expr.Written`):
an integer at a leaf, a minus sign before it if it is negative, and at every
operator a group with the operator between its operands. So the line of an
expression without negative leaves is read back as that expression, up to
spans, if the limit allows a group for every operator on the longest way to a
leaf; the only other outcome is that the groups are too deep. There is no sign
in the grammar, so a negative leaf always ends in an error, and the least
integer in one of the tokenizer, since its digits stand for too large a number.

Key definitions: `Expr.NonNeg`, `Expr.reread`, `Expr.Written`.
Key theorems: `Reading.takesLine_grouped`, `Expr.Written.exists_derives`,
`Expr.Written.run_tooDeep`, `Expr.Written.run_negative`, `reread_spec`.
-/
import Calculator.Expr.Infix
import Calculator.Proofs.OnePass
import Calculator.Proofs.Reading

namespace Calculator

open Text

namespace Expr

/-- No leaf is negative. -/
def NonNeg : Expr → Prop
  | number value _ => 0 ≤ value.toInt
  | binary _ left right _ => left.NonNeg ∧ right.NonNeg

/-- Prints the expression and reads the line again, tokens first. -/
def reread (e : Expr) (source file : String) (limit : Nat) : Except Error Expr :=
  (tokenize e.infixText source).bind fun tokens => (parse tokens file limit).result

/-- The tokens are those of the line of the expression. -/
inductive Written : Expr → List Token → Prop
  /-- A leaf that is not negative is an integer. -/
  | number {value : Int64} {span : Span} {token : Token} :
    0 ≤ value.toInt → token.isInteger = true → token.number = some value →
    Written (.number value span) [token]
  /-- A negative leaf is a minus sign and an integer. -/
  | negative {value : Int64} {span : Span} {minus token : Token} :
    value.toInt < 0 → minus.isPunct = true → minus.isSign .sub = true →
    token.isInteger = true → Written (.number value span) [minus, token]
  /-- An operator and its operands are a group. -/
  | binary {op : Operator} {left right : Expr} {span : Span} {first sign last : Token}
    {before after : List Token} :
    first.isOpen = true → sign.isSign op = true → last.isClose = true →
    Written left before → Written right after →
    Written (.binary op left right span) (first :: ((before ++ sign :: after) ++ [last]))

end Expr

/-! ### The line is cut into its tokens -/

theorem Text.noDigit_nil : NoDigit [] := by
  intro c hc
  cases hc

theorem Text.noDigit_cons {c : Char} (h : c.isDigit = false) (rest : List Char) :
    NoDigit (c :: rest) := by
  intro d hd
  cases hd
  exact h

theorem Text.isRun_toDigits (n : Nat) : IsRun (Nat.toDigits 10 n) :=
  ⟨Nat.toDigits_ne_nil, fun _ hc => Nat.isDigit_of_mem_toDigits (by decide) (by decide) hc⟩

theorem Text.natOfDigits_toDigits (n : Nat) : natOfDigits (Nat.toDigits 10 n) = n := by
  have hread := natOfDigits_decimal n
  rwa [toList_decimal_ofNat] at hread

theorem Operator.exists_mark (op : Operator) : ∃ c ∈ marks, op.symbol = String.ofList [c] := by
  cases op with
  | add => exact ⟨'+', by decide, rfl⟩
  | sub => exact ⟨'-', by decide, rfl⟩
  | mul => exact ⟨'*', by decide, rfl⟩
  | div => exact ⟨'/', by decide, rfl⟩

theorem lexemeToken_isMark {c : Char} (hc : c ∈ marks) (file : String) (offset : Nat) :
    (lexemeToken file offset [c]).isMark c = true := by
  rw [lexemeToken_mark hc]
  simp [Token.isMark, Token.isPunct]

theorem lexemeToken_isSign {c : Char} (hc : c ∈ marks) {op : Operator}
    (h : op.symbol = String.ofList [c]) (file : String) (offset : Nat) :
    (lexemeToken file offset [c]).isSign op = true := by
  rw [lexemeToken_mark hc]
  simp [Token.isSign, Token.isEnd, h]

namespace Reading

variable {file : String}

theorem finish_space (offset : Nat) (rest : List Char) (found : List Token) :
    (Reading.mk offset (' ' :: rest) found).finish file =
      (Reading.mk (offset + byteLength [' ']) rest found).finish file := by
  have hgap : IsGap [' '] := by
    intro c hc
    rw [List.mem_singleton.1 hc]
    decide
  exact finish_gap hgap rest

/-- What a reading does with the line of an expression and what comes after it: it takes the tokens
of the line, or it fails because of a negative leaf. -/
def TakesLine (file : String) (e : Expr) (reading : Reading) (rest : List Char) : Prop :=
  (∃ tokens after, e.Written tokens ∧ reading.finish file =
    (Reading.mk after rest (tokens.reverse ++ reading.found)).finish file) ∨
  (¬ e.NonNeg ∧ ∃ error, reading.finish file = .error error)

/-- A numeral is one token, and one with a sign is two. The least integer is the one leaf that is
not read, because without its sign it does not fit into 64 bits. -/
theorem takesLine_number (value : Int64) (span : Span) {rest : List Char} (hrest : NoDigit rest)
    (offset : Nat) (found : List Token) :
    TakesLine file (.number value span)
      ⟨offset, (decimal value.toInt).toList ++ rest, found⟩ rest := by
  have hlt : value.toInt < 0x8000000000000000 := value.toInt_lt
  rcases hvalue : value.toInt with n | n
  · rw [hvalue, Int.ofNat_eq_natCast] at hlt
    have hn : n < 0x8000000000000000 := by omega
    have hrun := isRun_toDigits n
    have hsame : Int64.ofNat n = value := by
      rw [← Int64.toInt_inj, hvalue]
      exact Int64.toInt_ofNat_of_lt hn
    have hfit : natOfDigits (Nat.toDigits 10 n) < 0x8000000000000000 := by
      rwa [natOfDigits_toDigits]
    rw [toList_decimal_ofNat]
    refine .inl ⟨[lexemeToken file offset (Nat.toDigits 10 n)], _, ?_,
      finish_run hrun hfit hrest⟩
    rw [lexemeToken_run hrun, natOfDigits_toDigits, hsame]
    exact .number (by rw [hvalue]; exact Int.natCast_nonneg n) rfl rfl
  · have hneg : value.toInt < 0 := by rw [hvalue]; exact Int.negSucc_lt_zero n
    have hrun := isRun_toDigits (n + 1)
    have hminus : (Reading.mk offset ('-' :: (Nat.toDigits 10 (n + 1) ++ rest)) found).finish file =
        (Reading.mk (offset + byteLength ['-']) (Nat.toDigits 10 (n + 1) ++ rest)
          (lexemeToken file offset ['-'] :: found)).finish file := finish_mark (by decide) _
    rw [toList_decimal_negSucc]
    by_cases hfit : natOfDigits (Nat.toDigits 10 (n + 1)) < 0x8000000000000000
    · refine .inl ⟨[lexemeToken file offset ['-'],
        lexemeToken file (offset + byteLength ['-']) (Nat.toDigits 10 (n + 1))], _, ?_,
        hminus.trans (finish_run hrun hfit hrest)⟩
      rw [lexemeToken_run hrun, lexemeToken_mark (by decide)]
      exact .negative hneg rfl rfl rfl
    · exact .inr ⟨Int.not_le.2 hneg, _, hminus.trans (finish_bigRun hrun hfit hrest)⟩

/-- The line of an expression is read leaf by leaf and mark by mark. -/
theorem takesLine_grouped : ∀ (e : Expr) {rest : List Char}, NoDigit rest →
    ∀ (offset : Nat) (found : List Token),
    TakesLine file e ⟨offset, e.grouped.toList ++ rest, found⟩ rest
  | .number value span, rest, hrest, offset, found => takesLine_number value span hrest offset found
  | .binary op left right span, rest, hrest, offset, found => by
    obtain ⟨c, hc, hsymbol⟩ := op.exists_mark
    have hline : (Expr.binary op left right span).grouped.toList ++ rest =
        '(' :: (left.grouped.toList ++
          (' ' :: c :: ' ' :: (right.grouped.toList ++ (')' :: rest)))) := by
      rw [Expr.toList_grouped_binary, hsymbol, String.toList_ofList]
      rfl
    unfold TakesLine
    rw [hline, finish_mark (c := '(') (by decide)]
    rcases takesLine_grouped left (noDigit_cons (c := ' ') (by decide) _) _ _ with
      ⟨before, middle, hleft, heq⟩ | ⟨hneg, error, heq⟩
    · rw [heq, finish_space, finish_mark hc, finish_space]
      rcases takesLine_grouped right (noDigit_cons (c := ')') (by decide) rest) _ _ with
        ⟨after, stop, hright, heq⟩ | ⟨hneg, error, heq⟩
      · rw [heq, finish_mark (c := ')') (by decide)]
        have hfirst := lexemeToken_isMark (c := '(') (by decide) file offset
        have hsign := lexemeToken_isSign hc hsymbol file (middle + byteLength [' '])
        have hlast := lexemeToken_isMark (c := ')') (by decide) file stop
        refine .inl ⟨_, stop + byteLength [')'], .binary hfirst hsign hlast hleft hright, ?_⟩
        simp only [List.reverse_cons, List.reverse_append, List.reverse_nil, List.append_assoc,
          List.cons_append, List.nil_append]
      · exact .inr ⟨fun h => hneg h.2, error, heq⟩
    · exact .inr ⟨fun h => hneg h.1, error, heq⟩

end Reading

/-! ### Without negative leaves the tokens are a phrase -/

theorem Derives.binary_of_atoms {op : Operator} {token : Token} {room : Nat}
    {before after : List Token} {left right : Expr} (hs : token.isSign op = true)
    (hleft : Derives .atom room before left) (hright : Derives .atom room after right) :
    Derives .sum room (before ++ token :: after) (.binary op left right token.span) := by
  have hproduct : Derives .product room before left := .single rfl hleft
  by_cases hop : op ∈ Rule.sum.operators
  · exact .binary rfl hop hs (.single rfl hproduct) (.single rfl hright)
  · have hop : op ∈ Rule.product.operators := by
      cases op <;> first | exact absurd (by decide) hop | decide
    exact .single rfl (.binary rfl hop hs hproduct hright)

namespace Expr.Written

variable {e : Expr} {tokens : List Token}

theorem isEnd_eq_false (h : e.Written tokens) : ∀ token ∈ tokens, token.isEnd = false := by
  induction h with
  | number _ hint _ =>
    intro token htoken
    rw [List.mem_singleton.1 htoken]
    exact Token.isEnd_eq_false_of_isInteger hint
  | negative _ _ hs hint =>
    intro token htoken
    rcases List.mem_cons.1 htoken with rfl | htoken
    · exact Token.isEnd_eq_false_of_isSign hs
    · rw [List.mem_singleton.1 htoken]
      exact Token.isEnd_eq_false_of_isInteger hint
  | binary ho hs hc _ _ ihleft ihright =>
    intro token htoken
    simp only [List.mem_cons, List.mem_append, List.not_mem_nil, or_false] at htoken
    rcases htoken with rfl | (hbefore | rfl | hafter) | rfl
    · exact Token.isEnd_eq_false_of_isPunct (Token.isPunct_of_isMark ho)
    · exact ihleft token hbefore
    · exact Token.isEnd_eq_false_of_isSign hs
    · exact ihright token hafter
    · exact Token.isEnd_eq_false_of_isPunct (Token.isPunct_of_isMark hc)

/-- The tokens of the line of an expression without negative leaves are an atom with that
expression, and as many groups of it are open at once as the expression is high. -/
theorem exists_derives (h : e.Written tokens) : e.NonNeg →
    ∃ e', e'.bare = e.bare ∧ Derives .atom e.height tokens e' := by
  induction h with
  | @number value _ token _ hint hnum =>
    intro _
    exact ⟨.number value token.span, rfl, .number hint hnum⟩
  | negative hneg =>
    intro hnonneg
    exact absurd hnonneg (Int.not_le.2 hneg)
  | @binary op left right _ _ sign _ _ _ ho hs hc _ _ ihleft ihright =>
    intro h
    obtain ⟨hleft, hright⟩ := h
    obtain ⟨left', hbare, hbefore⟩ := ihleft hleft
    obtain ⟨right', hbare', hafter⟩ := ihright hright
    refine ⟨.binary op left' right' sign.span, ?_, .group ho hc (Derives.binary_of_atoms hs
      (hbefore.mono (Nat.le_max_left _ _)) (hafter.mono (Nat.le_max_right _ _)))⟩
    rw [bare, bare, hbare, hbare']

end Expr.Written

/-! ### What a scan finds on a line -/

theorem Scan.run_of_isOpen {first : Token} (ho : first.isOpen = true) {limit opened : Nat}
    (hle : opened ≤ limit) (last : Token) (rest : List Token) :
    (opened < limit ∧ Scan.run limit last (.needsOperand opened) (first :: rest) =
      Scan.run limit last (.needsOperand (opened + 1)) rest) ∨
    (opened = limit ∧ Scan.run limit last (.needsOperand opened) (first :: rest) =
      .error ⟨.nestedTooDeep limit, first.span.start⟩) := by
  rcases Nat.lt_or_eq_of_le hle with hlt | rfl
  · exact .inl ⟨hlt, Scan.run_of_goOn (Scan.step_of_isOpen ho hlt) last rest⟩
  · refine .inr ⟨rfl, ?_⟩
    rw [Scan.run]
    simp [Scan.step, ho]

namespace Expr.Written

variable {e : Expr} {tokens : List Token}

theorem run_eq (h : e.Written tokens) (hnonneg : e.NonNeg) {limit opened : Nat}
    (hroom : e.height ≤ limit - opened) (last : Token) (rest : List Token) :
    Scan.run limit last (.needsOperand opened) (tokens ++ rest) =
      Scan.run limit last (.hasOperand opened) rest := by
  obtain ⟨_, _, hderives⟩ := h.exists_derives hnonneg
  exact hderives.run_eq hroom last rest

theorem group_append (first sign last : Token) (before after rest : List Token) :
    (first :: ((before ++ sign :: after) ++ [last])) ++ rest =
      first :: (before ++ (sign :: (after ++ (last :: rest)))) := by
  simp only [List.cons_append, List.append_assoc, List.nil_append]

/-- Without negative leaves, a scan that has not enough room stops at a group that is too deep. -/
theorem run_tooDeep (h : e.Written tokens) : e.NonNeg → ∀ {limit opened : Nat}, opened ≤ limit →
    limit - opened < e.height → ∀ (last : Token) (rest : List Token), ∃ position,
      Scan.run limit last (.needsOperand opened) (tokens ++ rest) =
        .error ⟨.nestedTooDeep limit, position⟩ := by
  induction h with
  | number =>
    intro _ limit opened _ hdeep
    exact absurd hdeep (Nat.not_lt_zero _)
  | negative hneg =>
    intro hnonneg
    exact absurd hnonneg (Int.not_le.2 hneg)
  | @binary op left right _ first sign close before after ho hs hc hwleft hwright ihleft ihright =>
    intro hnonneg limit opened hle hdeep last rest
    obtain ⟨hleft, hright⟩ := hnonneg
    rw [group_append]
    rcases Scan.run_of_isOpen ho hle last (before ++ (sign :: (after ++ (close :: rest)))) with
      ⟨hlt, hgroup⟩ | ⟨-, hgroup⟩
    · rw [hgroup]
      by_cases hroom : left.height ≤ limit - (opened + 1)
      · -- the left operand has room, so it is the right one that is too high
        have hdeep : limit - (opened + 1) < right.height := by
          rw [height] at hdeep
          omega
        rw [hwleft.run_eq hleft hroom, Scan.run_of_goOn (Scan.step_of_isSign hs)]
        exact ihright hright hlt hdeep last _
      · exact ihleft hleft hlt (Nat.lt_of_not_le hroom) last _
    · exact ⟨_, hgroup⟩

/-- A scan does not go over a negative leaf. -/
theorem run_negative (h : e.Written tokens) : ¬ e.NonNeg → ∀ {limit opened : Nat},
    opened ≤ limit → ∀ (last : Token) (rest : List Token), ∃ error,
      Scan.run limit last (.needsOperand opened) (tokens ++ rest) = .error error := by
  induction h with
  | number hnonneg =>
    intro hneg
    exact absurd hnonneg hneg
  | @negative _ _ minus token _ hpunct hs _ =>
    intro _ limit opened _ last rest
    have hopen : minus.isOpen = false := by
      rw [Bool.eq_false_iff]
      intro ho
      rw [Token.isSign_eq_false_of_isMark (Or.inl rfl) ho] at hs
      cases hs
    have hend := Token.isEnd_eq_false_of_isPunct hpunct
    have hint := Token.isInteger_eq_false_of_isPunct hpunct
    refine ⟨⟨.expectedNumber minus.text, minus.span.start⟩, ?_⟩
    rw [List.cons_append, Scan.run]
    simp [Scan.step, hopen, hend, hint]
  | @binary op left right _ first sign close before after ho hs hc hwleft _ ihleft ihright =>
    intro hneg limit opened hle last rest
    rw [group_append]
    rcases Scan.run_of_isOpen ho hle last (before ++ (sign :: (after ++ (close :: rest)))) with
      ⟨hlt, hgroup⟩ | ⟨-, hgroup⟩
    · rw [hgroup]
      by_cases hleft : left.NonNeg
      · by_cases hroom : left.height ≤ limit - (opened + 1)
        · have hright : ¬ right.NonNeg := fun hright => hneg ⟨hleft, hright⟩
          rw [hwleft.run_eq hleft hroom, Scan.run_of_goOn (Scan.step_of_isSign hs)]
          exact ihright hright hlt last _
        · obtain ⟨position, hdeep⟩ :=
            hwleft.run_tooDeep hleft hlt (Nat.lt_of_not_le hroom) last _
          exact ⟨_, hdeep⟩
      · exact ihleft hleft hlt last _
    · exact ⟨_, hgroup⟩

end Expr.Written

/-! ### Reading the line again -/

theorem tokenize_infixText (e : Expr) (source : String) :
    (∃ tokens position, e.Written tokens ∧
      tokenize e.infixText source = .ok (tokens ++ [Token.endAt position])) ∨
    (¬ e.NonNeg ∧ ∃ error, tokenize e.infixText source = .error error) := by
  have hread : Reading.TakesLine source e ⟨0, e.grouped.toList ++ [], []⟩ [] :=
    Reading.takesLine_grouped e noDigit_nil 0 []
  rw [List.append_nil] at hread
  rw [e.infixText_eq, tokenize_some, Reading.start]
  rcases hread with ⟨tokens, after, hwritten, heq⟩ | hfail
  · have hempty : IsGap [] := fun c hc => absurd hc List.not_mem_nil
    refine .inl ⟨tokens, Position.at after source, hwritten, ?_⟩
    rw [heq, Reading.finish_tail hempty, List.append_nil, List.reverse_reverse]
    rfl
  · exact .inr hfail

namespace Expr.Written

variable {e : Expr} {tokens : List Token}

theorem takeWhile_eq (h : e.Written tokens) (position : Position) :
    (tokens ++ [Token.endAt position]).takeWhile (fun token => !token.isEnd) = tokens := by
  have hall : ∀ token ∈ tokens, (!token.isEnd) = true := by
    intro token htoken
    rw [h.isEnd_eq_false token htoken]
    rfl
  rw [List.takeWhile_append_of_pos hall]
  exact List.append_nil tokens

theorem parse_eq (h : e.Written tokens) (hnonneg : e.NonNeg) {limit : Nat}
    (hroom : e.height ≤ limit) (position : Position) (file : String) :
    ∃ e', e'.bare = e.bare ∧
      (parse (tokens ++ [Token.endAt position]) file limit).result = .ok e' := by
  obtain ⟨e', hbare, hderives⟩ := h.exists_derives hnonneg
  refine ⟨e', hbare, parse_complete ?_ file⟩
  rw [h.takeWhile_eq]
  exact .single rfl (.single rfl (hderives.mono hroom))

theorem parse_eq_error (h : e.Written tokens) {limit : Nat} {error : Error} {position : Position}
    {file : String}
    (hscan : Scan.run limit (Cursor.ofTokens (tokens ++ [Token.endAt position]) file).last
      (.needsOperand 0) (tokens ++ []) = .error error) :
    (parse (tokens ++ [Token.endAt position]) file limit).result = .error error := by
  have hahead : (Cursor.ofTokens (tokens ++ [Token.endAt position]) file).ahead = tokens := by
    rw [Cursor.ahead_ofTokens, h.takeWhile_eq]
  rw [List.append_nil] at hscan
  rw [parse_eq_error_iff, scan, hahead]
  exact hscan

end Expr.Written

/-- **An expression is read back from its line exactly if it can be.** The line gives the expression
back, up to spans, exactly if no leaf is negative and the limit allows as many open groups as the
expression is high. If only the limit is too low, the error is that the groups are too deep for it;
with a negative leaf there is an error in any case, and no other expression. -/
theorem reread_spec (e : Expr) (source file : String) (limit : Nat) :
    ((∃ e', e.reread source file limit = .ok e' ∧ e'.bare = e.bare) ↔
      e.NonNeg ∧ e.height ≤ limit) ∧
    (e.NonNeg → limit < e.height → ∃ position,
      e.reread source file limit = .error ⟨.nestedTooDeep limit, position⟩) ∧
    (¬ e.NonNeg → ∃ error, e.reread source file limit = .error error) := by
  have hback : e.NonNeg → e.height ≤ limit →
      ∃ e', e.reread source file limit = .ok e' ∧ e'.bare = e.bare := by
    intro hnonneg hroom
    rcases tokenize_infixText e source with ⟨tokens, position, h, htokens⟩ | ⟨hneg, -⟩
    · obtain ⟨e', hbare, hparse⟩ := h.parse_eq hnonneg hroom position file
      refine ⟨e', ?_, hbare⟩
      rw [Expr.reread, htokens]
      exact hparse
    · exact absurd hnonneg hneg
  have hdeep : e.NonNeg → limit < e.height → ∃ position,
      e.reread source file limit = .error ⟨.nestedTooDeep limit, position⟩ := by
    intro hnonneg hhigh
    rcases tokenize_infixText e source with ⟨tokens, position, h, htokens⟩ | ⟨hneg, -⟩
    · obtain ⟨stop, hscan⟩ := h.run_tooDeep hnonneg (Nat.zero_le limit) hhigh _ _
      refine ⟨stop, ?_⟩
      rw [Expr.reread, htokens]
      exact h.parse_eq_error hscan
    · exact absurd hnonneg hneg
  have hfail : ¬ e.NonNeg → ∃ error, e.reread source file limit = .error error := by
    intro hneg
    rcases tokenize_infixText e source with ⟨tokens, position, h, htokens⟩ | ⟨-, error, htokens⟩
    · obtain ⟨error, hscan⟩ := h.run_negative hneg (Nat.zero_le limit) _ _
      refine ⟨error, ?_⟩
      rw [Expr.reread, htokens]
      exact h.parse_eq_error hscan
    · refine ⟨error, ?_⟩
      rw [Expr.reread, htokens]
      rfl
  refine ⟨⟨?_, fun h => hback h.1 h.2⟩, hdeep, hfail⟩
  intro h
  obtain ⟨e', hok, -⟩ := h
  by_cases hnonneg : e.NonNeg
  · refine ⟨hnonneg, Nat.le_of_not_lt fun hhigh => ?_⟩
    obtain ⟨position, herror⟩ := hdeep hnonneg hhigh
    rw [herror] at hok
    cases hok
  · obtain ⟨error, herror⟩ := hfail hnonneg
    rw [herror] at hok
    cases hok

end Calculator
