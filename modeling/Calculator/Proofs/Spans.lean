/-
# Spans do not matter

Two lists of tokens that differ in their spans alone are parsed alike, under any
file names: the expressions are equal but for the spans, or the errors have the
same fault and are at tokens with the same index (`parse_alike`). What is written
and counted of an expression is that of the bare one, and its value is the same
too. Only the place of an evaluation error is a span: that of the same operator
in the other list (`Expr.Paired.sameValue`).

Key definitions: `SameIndex`, `SameValue`, `SameExpr`, `SameResult`.
Key theorems: `Expr.Paired.sameExpr`, `parse_alike`.
-/
import Calculator.Expr.Count
import Calculator.Expr.Infix
import Calculator.Expr.Outline
import Calculator.Proofs.Arithmetic
import Calculator.Proofs.Lockstep
import Calculator.Proofs.Stops

namespace Calculator

open Calculator.Parser

/-! ### What is the same -/

/-- The tokens have the same index in the two lists. -/
def SameIndex (tokens others : List Token) (a b : Token) : Prop :=
  ∃ i : Nat, tokens[i]? = some a ∧ others[i]? = some b

/-- The results of evaluations are the same value, or the same fault of an operator, at two signs
of it that are related. -/
inductive SameValue (T : Token → Token → Prop) : Except Error Int64 → Except Error Int64 → Prop
  | value (v : Int64) : SameValue T (.ok v) (.ok v)
  | error {fault : Fault} {op : Operator} {a b : Token} :
    T a b → a.isSign op = true → b.isSign op = true →
    (fault = .divisionByZero ∧ op = .div) ∨ fault = .overflow op.symbol →
    SameValue T (.error ⟨fault, a.span.start⟩) (.error ⟨fault, b.span.start⟩)

/-- The expressions are equal but for their spans, and nothing that is made of them differs but for
the place of an evaluation error. -/
structure SameExpr (T : Token → Token → Prop) (e e' : Expr) : Prop where
  bare : e.bare = e'.bare
  infixText : e.infixText = e'.infixText
  outline : e.outline = e'.outline
  numberCount : e.numberCount = e'.numberCount
  operatorCount : e.operatorCount = e'.operatorCount
  nodeCount : e.nodeCount = e'.nodeCount
  evaluate : SameValue T e.evaluate e'.evaluate

/-- The results of parses are expressions that are the same, or the same fault at two tokens that
are related. -/
inductive SameResult (T : Token → Token → Prop) : Except Error Expr → Except Error Expr → Prop
  | expr {e e' : Expr} : SameExpr T e e' → SameResult T (.ok e) (.ok e')
  | error {fault : Fault} {a b : Token} : T a b →
    SameResult T (.error ⟨fault, a.span.start⟩) (.error ⟨fault, b.span.start⟩)

/-! ### What is made of an expression -/

namespace Expr

theorem grouped_bare : ∀ e : Expr, e.bare.grouped = e.grouped
  | number .. => rfl
  | binary _ left right _ => by simp only [bare, grouped, grouped_bare left, grouped_bare right]

theorem outlineFrom_bare : ∀ (level : Nat) (e : Expr), e.bare.outlineFrom level = e.outlineFrom level
  | _, number .. => rfl
  | level, binary _ left right _ => by
    simp only [bare, outlineFrom, heading, outlineFrom_bare (level + 1) left,
      outlineFrom_bare (level + 1) right]

theorem leaves_bare : ∀ e : Expr, e.bare.leaves = e.leaves
  | number .. => rfl
  | binary _ left right _ => by simp only [bare, leaves, leaves_bare left, leaves_bare right]

theorem infixText_bare (e : Expr) : e.bare.infixText = e.infixText := by
  rw [infixText_eq, infixText_eq, grouped_bare]

theorem outline_bare (e : Expr) : e.bare.outline = e.outline := by
  rw [outline_eq, outline_eq, outlineFrom_bare]

theorem numberCount_bare (e : Expr) : e.bare.numberCount = e.numberCount := by
  rw [numberCount_eq, numberCount_eq, leaves_bare]

namespace Paired

variable {T : Token → Token → Prop} {e e' : Expr}

theorem bare_eq (h : e.Paired T e') : e.bare = e'.bare := by
  induction h with
  | number => rfl
  | binary _ _ _ _ ihleft ihright => rw [bare, bare, ihleft, ihright]

/-- Paired expressions have the same value, or fail at the same operator. -/
theorem sameValue (hT : ∀ a b, T a b → a.Alike b) (h : e.Paired T e') :
    SameValue T e.value e'.value := by
  induction h with
  | number => exact .value _
  | @binary op left right left' right' a b hab hs _ _ ihleft ihright =>
    rw [value, value]
    generalize left.value = first, left'.value = first' at ihleft
    cases ihleft with
    | error hfirst ho ho' hfault => exact .error hfirst ho ho' hfault
    | value x =>
      simp only []
      generalize right.value = second, right'.value = second' at ihright
      cases ihright with
      | error hsecond ho ho' hfault => exact .error hsecond ho ho' hfault
      | value y =>
        simp only []
        cases happly : op.apply x y with
        | ok v => exact .value v
        | error fault =>
          have hs' : b.isSign op = true := by rw [(hT a b hab).isSign]; exact hs
          exact .error hab hs hs' (Operator.apply_eq_error happly)

theorem sameExpr (hT : ∀ a b, T a b → a.Alike b) (h : e.Paired T e') : SameExpr T e e' := by
  have hcount : e.numberCount = e'.numberCount := by
    rw [← numberCount_bare e, h.bare_eq, numberCount_bare]
  have hoperators : e.operatorCount = e'.operatorCount := by
    rw [operatorCount, operatorCount, hcount]
  exact {
    bare := h.bare_eq
    infixText := by rw [← infixText_bare e, h.bare_eq, infixText_bare]
    outline := by rw [← outline_bare e, h.bare_eq, outline_bare]
    numberCount := hcount
    operatorCount := hoperators
    nodeCount := by rw [nodeCount, nodeCount, hcount, hoperators]
    evaluate := by rw [evaluate_eq_value, evaluate_eq_value]; exact h.sameValue hT }

end Paired

end Expr

/-! ### Lists that are alike -/

section Lists

variable {tokens others : List Token}

theorem terminated_alike (h : List.Forall₂ Token.Alike tokens others) (file name : String) :
    List.Forall₂ Token.Alike (Token.terminated tokens file) (Token.terminated others name) := by
  have hends : ∀ position position' : Position,
      (Token.endAt position).Alike (Token.endAt position') := fun _ _ => ⟨rfl, rfl, rfl⟩
  have hreverse := List.forall₂_reverse_iff.2 h
  unfold Token.terminated
  rw [List.getLast?_eq_head?_reverse, List.getLast?_eq_head?_reverse]
  generalize tokens.reverse = backwards, others.reverse = backwards' at hreverse
  cases hreverse with
  | nil => exact .cons (hends _ _) .nil
  | @cons last last' _ _ hlast =>
    simp only [List.head?_cons, hlast.isEnd]
    by_cases hend : last.isEnd = true
    · rw [if_pos hend, if_pos hend]
      exact h
    · rw [if_neg hend, if_neg hend]
      exact List.rel_append h (.cons (hends _ _) .nil)

theorem SameIndex.alike (h : List.Forall₂ Token.Alike tokens others) {a b : Token}
    (hab : SameIndex tokens others a b) : a.Alike b := by
  obtain ⟨i, ha, hb⟩ := hab
  obtain ⟨hi, ha⟩ := List.getElem?_eq_some_iff.1 ha
  obtain ⟨hi', hb⟩ := List.getElem?_eq_some_iff.1 hb
  rw [← ha, ← hb]
  exact (List.forall₂_iff_get.1 h).2 i hi hi'

theorem forall₂_sameIndex (h : tokens.length = others.length) :
    List.Forall₂ (SameIndex tokens others) tokens others :=
  List.forall₂_iff_get.2
    ⟨h, fun i hi hi' => ⟨i, List.getElem?_eq_getElem hi, List.getElem?_eq_getElem hi'⟩⟩

theorem forall₂_of_ends {T : Token → Token → Prop} (hT : ∀ a b, T a b → a.Alike b)
    {last last' : Token} {beyond beyond' : List Token} (hlast : last.isEnd = true)
    (hlast' : last'.isEnd = true) : ∀ {ahead ahead' : List Token},
    List.Forall₂ T (ahead ++ last :: beyond) (ahead' ++ last' :: beyond') →
    (∀ token ∈ ahead, token.isEnd = false) → (∀ token ∈ ahead', token.isEnd = false) →
    List.Forall₂ T ahead ahead' ∧ T last last'
  | [], [], h, _, _ => ⟨.nil, (List.forall₂_cons.1 h).1⟩
  | [], token :: _, h, _, hahead' => by
    have hend := (hT _ _ (List.forall₂_cons.1 h).1).isEnd
    rw [hlast, hahead' token List.mem_cons_self] at hend
    cases hend
  | token :: _, [], h, hahead, _ => by
    have hend := (hT _ _ (List.forall₂_cons.1 h).1).isEnd
    rw [hlast', hahead token List.mem_cons_self] at hend
    cases hend
  | token :: ahead, token' :: ahead', h, hahead, hahead' => by
    obtain ⟨hfirst, hrest⟩ := List.forall₂_cons.1 h
    obtain ⟨hrest, hends⟩ := forall₂_of_ends hT hlast hlast' hrest
      (fun other hmem => hahead other (List.mem_cons_of_mem _ hmem))
      (fun other hmem => hahead' other (List.mem_cons_of_mem _ hmem))
    exact ⟨.cons hfirst hrest, hends⟩

end Lists

/-! ### Parses of lists that are alike -/

/-- **Spans do not influence a parse.** Tokens that differ in their spans alone are parsed alike
under the same limit. -/
theorem parse_alike {tokens others : List Token} (h : List.Forall₂ Token.Alike tokens others)
    (file name : String) (limit : Nat) :
    (parse tokens file limit).parser.built = (parse others name limit).parser.built ∧
    (parse tokens file limit).parser.cursor.index = (parse others name limit).parser.cursor.index ∧
    SameResult (SameIndex (Token.terminated tokens file) (Token.terminated others name))
      (parse tokens file limit).result (parse others name limit).result := by
  have halike := terminated_alike h file name
  have hT : ∀ a b, SameIndex (Token.terminated tokens file) (Token.terminated others name) a b →
      a.Alike b := fun _ _ => SameIndex.alike halike
  have hstart : (start tokens file limit).Beside
      (SameIndex (Token.terminated tokens file) (Token.terminated others name)) limit
      (start others name limit) := by
    have hindex := forall₂_sameIndex halike.length_eq
    obtain ⟨beyond, hsplit⟩ := exists_terminated_eq tokens file
    obtain ⟨beyond', hsplit'⟩ := exists_terminated_eq others name
    generalize SameIndex (Token.terminated tokens file) (Token.terminated others name) = T at *
    rw [hsplit, hsplit'] at hindex
    obtain ⟨hahead, hlast⟩ := forall₂_of_ends hT (Cursor.ofTokens tokens file).isEnd_last
      (Cursor.ofTokens others name).isEnd_last hindex (Cursor.ofTokens tokens file).isEnd_of_mem
      (Cursor.ofTokens others name).isEnd_of_mem
    exact ⟨rfl, hahead, hlast, rfl, rfl, rfl⟩
  have hroom : SameRoom limit (.phrase .sum, start tokens file limit) := by
    intro p hcalls _
    obtain ⟨-, -, -, hlimit, -⟩ := reaches_of_calls hcalls
    exact .inl hlimit
  obtain ⟨hbuilt, hindex, hresult⟩ := parse_beside hT hstart hroom
  refine ⟨hbuilt, hindex, ?_⟩
  generalize hone : (parse tokens file limit).result = result,
    hother : (parse others name limit).result = result' at hresult
  cases hresult with
  | ok hpaired => exact .expr (hpaired.sameExpr hT)
  | error =>
    obtain ⟨i, a, b, ha, hb, hposition, hposition'⟩ := exists_rejected_both hone hother hindex
    rw [hposition, hposition']
    exact .error ⟨i, ha, hb⟩

end Calculator
