/-
# What is printed of an expression

The machines that print write whatever is pending in order, so what they print
of an expression is put together from what is printed of its operands
(`printed_by_recursion`). Both texts are uniquely readable. An outline says at
the start of each line whether a leaf or an operator follows, so it ends in one
place whatever comes after it. On one line only an operator opens a group, and a
numeral goes on as long as digits follow; a minus sign belongs to a leaf where
an operand starts, and is an operator where one has ended. So an expression can
be told from either text, up to its spans (`printed_eq_iff_bare_eq`), also where
it cannot be parsed back.

Key theorems: `printed_by_recursion`, `Text.decimal_append_inj`, `Expr.grouped_append_inj`,
`Expr.outlineFrom_append_inj`, `printed_eq_iff_bare_eq`.
-/
import Calculator.Proofs.RoundTrip
import Calculator.Proofs.Spans

namespace Calculator

open Text

/-- **Printing goes operand by operand.** On one line, a leaf is its decimal numeral, and an
operator is a group around its two operands with the sign between blanks. The outline, which starts
at level 0, has two blanks for each level in front of a line, and the operands are one level below
their operator. -/
theorem printed_by_recursion :
    (∀ value span, (Expr.number value span).infixText = decimal value.toInt) ∧
    (∀ op left right span, (Expr.binary op left right span).infixText =
      "(" ++ left.infixText ++ " " ++ op.symbol ++ " " ++ right.infixText ++ ")") ∧
    (∀ e : Expr, e.outline = e.outlineFrom 0) ∧
    (∀ level value span, (Expr.number value span).outlineFrom level =
      String.ofList (List.replicate (2 * level) ' ') ++ "Number(" ++ decimal value.toInt ++ ")\n") ∧
    ∀ level op left right span, (Expr.binary op left right span).outlineFrom level =
      String.ofList (List.replicate (2 * level) ' ') ++ "BinaryOp(" ++ op.symbol ++ ")\n" ++
        left.outlineFrom (level + 1) ++ right.outlineFrom (level + 1) := by
  refine ⟨fun value span => ?_, fun op left right span => ?_, fun e => e.outline_eq,
    fun level value span => ?_, fun level op left right span => ?_⟩
  · rw [Expr.infixText_eq, Expr.grouped]
  · rw [Expr.infixText_eq, Expr.infixText_eq, Expr.infixText_eq, Expr.grouped]
  · rw [Expr.outlineFrom, Expr.indent, Expr.heading]
    simp only [String.append_assoc]
    rfl
  · rw [Expr.outlineFrom, Expr.indent, Expr.heading]
    simp only [String.append_assoc]
    rfl

/-! ### Numerals -/

namespace Text

/-- A run of digits ends where no digit follows. -/
theorem toDigits_append_inj {m n : Nat} {rest rest' : List Char} (hrest : NoDigit rest)
    (hrest' : NoDigit rest') (h : Nat.toDigits 10 m ++ rest = Nat.toDigits 10 n ++ rest') :
    m = n ∧ rest = rest' := by
  obtain ⟨htake, hdrop⟩ := span_append (isRun_toDigits m).2 hrest
  obtain ⟨htake', hdrop'⟩ := span_append (isRun_toDigits n).2 hrest'
  rw [h] at htake hdrop
  have hdigits : Nat.toDigits 10 m = Nat.toDigits 10 n := htake.symm.trans htake'
  refine ⟨?_, hdrop.symm.trans hdrop'⟩
  rw [← natOfDigits_toDigits m, hdigits, natOfDigits_toDigits]

theorem toDigits_eq_cons (n : Nat) : ∃ c more, Nat.toDigits 10 n = c :: more ∧ c.isDigit = true := by
  obtain ⟨hne, hdigits⟩ := isRun_toDigits n
  obtain ⟨c, more, heq⟩ := List.exists_cons_of_ne_nil hne
  exact ⟨c, more, heq, hdigits c (heq ▸ List.mem_cons_self)⟩

theorem toDigits_append_ne {n : Nat} {c : Char} (hc : c.isDigit = false) (rest rest' : List Char) :
    Nat.toDigits 10 n ++ rest ≠ c :: rest' := by
  obtain ⟨d, more, heq, hd⟩ := toDigits_eq_cons n
  rw [heq]
  intro h
  cases h
  rw [hc] at hd
  cases hd

/-- A numeral is read to its last digit, and the sign is read with it. -/
theorem decimal_append_inj {v w : Int} {rest rest' : List Char} (hrest : NoDigit rest)
    (hrest' : NoDigit rest') (h : (decimal v).toList ++ rest = (decimal w).toList ++ rest') :
    v = w ∧ rest = rest' := by
  cases v with
  | ofNat m =>
    cases w with
    | ofNat n =>
      rw [toList_decimal_ofNat, toList_decimal_ofNat] at h
      obtain ⟨rfl, rfl⟩ := toDigits_append_inj hrest hrest' h
      exact ⟨rfl, rfl⟩
    | negSucc n =>
      rw [toList_decimal_ofNat, toList_decimal_negSucc, List.cons_append] at h
      exact absurd h (toDigits_append_ne (by decide) rest _)
  | negSucc m =>
    cases w with
    | ofNat n =>
      rw [toList_decimal_ofNat, toList_decimal_negSucc, List.cons_append] at h
      exact absurd h.symm (toDigits_append_ne (by decide) rest' _)
    | negSucc n =>
      rw [toList_decimal_negSucc, toList_decimal_negSucc, List.cons_append, List.cons_append] at h
      obtain ⟨hsucc, rfl⟩ := toDigits_append_inj hrest hrest' (List.cons.inj h).2
      cases hsucc
      exact ⟨rfl, rfl⟩

theorem decimal_append_ne (v : Int) (rest rest' : List Char) :
    (decimal v).toList ++ rest ≠ '(' :: rest' := by
  cases v with
  | ofNat n =>
    rw [toList_decimal_ofNat]
    exact toDigits_append_ne (by decide) rest rest'
  | negSucc n =>
    rw [toList_decimal_negSucc]
    intro h
    exact absurd (List.cons.inj h).1 (by decide)

end Text

theorem Operator.symbol_append_inj {op op' : Operator} {rest rest' : List Char}
    (h : op.symbol.toList ++ rest = op'.symbol.toList ++ rest') : op = op' ∧ rest = rest' := by
  have hlength : ∀ o : Operator, o.symbol.toList.length = 1 := fun o => by cases o <;> rfl
  obtain ⟨hsymbol, hrest⟩ := List.append_inj h ((hlength op).trans (hlength op').symm)
  exact ⟨symbol_injective (String.toList_inj.1 hsymbol), hrest⟩

/-! ### Unique readability -/

namespace Expr

/-- **The line of an expression is uniquely readable.** If no digit follows, it ends in one place. -/
theorem grouped_append_inj {t u : Expr} {rest rest' : List Char} (hrest : NoDigit rest)
    (hrest' : NoDigit rest') (h : t.grouped.toList ++ rest = u.grouped.toList ++ rest') :
    t.bare = u.bare ∧ rest = rest' := by
  induction t generalizing u rest rest' with
  | number v _ =>
    cases u with
    | number w _ =>
      obtain ⟨hvalue, rfl⟩ := decimal_append_inj hrest hrest' h
      obtain rfl := Int64.toInt_inj.1 hvalue
      exact ⟨rfl, rfl⟩
    | binary op left right span =>
      rw [toList_grouped_binary] at h
      exact absurd h (decimal_append_ne v.toInt rest _)
  | binary op left right span ihleft ihright =>
    cases u with
    | number w _ =>
      rw [toList_grouped_binary] at h
      exact absurd h.symm (decimal_append_ne w.toInt rest' _)
    | binary op' left' right' span' =>
      have hblank : ∀ text, NoDigit (' ' :: text) := noDigit_cons (by decide)
      have hclose : ∀ text, NoDigit (')' :: text) := noDigit_cons (by decide)
      rw [toList_grouped_binary, toList_grouped_binary] at h
      obtain ⟨hleft, hsign⟩ := ihleft (hblank _) (hblank _) (List.cons.inj h).2
      obtain ⟨hop, hblanks⟩ := Operator.symbol_append_inj (List.cons.inj hsign).2
      obtain ⟨hright, hend⟩ := ihright (hclose _) (hclose _) (List.cons.inj hblanks).2
      exact ⟨by rw [bare, bare, hop, hleft, hright], (List.cons.inj hend).2⟩

theorem toList_outlineFrom_number (level : Nat) (value : Int64) (span : Span) (rest : List Char) :
    ((number value span).outlineFrom level).toList ++ rest =
      (indent level).toList ++ ("Number(".toList ++
        ((decimal value.toInt).toList ++ (')' :: '\n' :: rest))) := by
  simp [outlineFrom, heading]

theorem toList_outlineFrom_binary (level : Nat) (op : Operator) (left right : Expr) (span : Span)
    (rest : List Char) :
    ((binary op left right span).outlineFrom level).toList ++ rest =
      (indent level).toList ++ ("BinaryOp(".toList ++ (op.symbol.toList ++ (')' :: '\n' ::
        ((left.outlineFrom (level + 1)).toList ++
          ((right.outlineFrom (level + 1)).toList ++ rest))))) := by
  simp [outlineFrom, heading]

theorem number_append_ne (rest rest' : List Char) :
    "Number(".toList ++ rest ≠ "BinaryOp(".toList ++ rest' := by
  simp

/-- **An outline is uniquely readable.** It ends in one place, whatever follows. -/
theorem outlineFrom_append_inj {t u : Expr} {level : Nat} {rest rest' : List Char}
    (h : (t.outlineFrom level).toList ++ rest = (u.outlineFrom level).toList ++ rest') :
    t.bare = u.bare ∧ rest = rest' := by
  induction t generalizing u level rest rest' with
  | number v _ =>
    rw [toList_outlineFrom_number] at h
    cases u with
    | number w _ =>
      have hclose : ∀ text, NoDigit (')' :: text) := noDigit_cons (by decide)
      rw [toList_outlineFrom_number] at h
      obtain ⟨hvalue, hend⟩ := decimal_append_inj (hclose _) (hclose _)
        (List.append_cancel_left (List.append_cancel_left h))
      obtain rfl := Int64.toInt_inj.1 hvalue
      exact ⟨rfl, (List.cons.inj (List.cons.inj hend).2).2⟩
    | binary op left right span =>
      rw [toList_outlineFrom_binary] at h
      exact absurd (List.append_cancel_left h) (number_append_ne _ _)
  | binary op left right span ihleft ihright =>
    rw [toList_outlineFrom_binary] at h
    cases u with
    | number w _ =>
      rw [toList_outlineFrom_number] at h
      exact absurd (List.append_cancel_left h).symm (number_append_ne _ _)
    | binary op' left' right' span' =>
      rw [toList_outlineFrom_binary] at h
      obtain ⟨hop, hline⟩ := Operator.symbol_append_inj
        (List.append_cancel_left (List.append_cancel_left h))
      obtain ⟨hleft, hafter⟩ := ihleft (List.cons.inj (List.cons.inj hline).2).2
      obtain ⟨hright, hrest⟩ := ihright hafter
      exact ⟨by rw [bare, bare, hop, hleft, hright], hrest⟩

end Expr

/-- **No two expressions are printed alike.** On one line or as an outline, two expressions have the
same text exactly if they are equal up to their spans. -/
theorem printed_eq_iff_bare_eq (t u : Expr) :
    (t.infixText = u.infixText ↔ t.bare = u.bare) ∧ (t.outline = u.outline ↔ t.bare = u.bare) := by
  refine ⟨⟨fun h => ?_, fun h => ?_⟩, ⟨fun h => ?_, fun h => ?_⟩⟩
  · rw [t.infixText_eq, u.infixText_eq] at h
    exact (Expr.grouped_append_inj noDigit_nil noDigit_nil
      (congrArg (fun line => line.toList ++ []) h)).1
  · rw [← t.infixText_bare, h, u.infixText_bare]
  · rw [t.outline_eq, u.outline_eq] at h
    exact (Expr.outlineFrom_append_inj (congrArg (fun text => text.toList ++ []) h)).1
  · rw [← t.outline_bare, h, u.outline_bare]

/-- A minus sign after a minus sign belongs to the leaf. -/
example : let span := Span.over 0 0 ""
    (Expr.binary .sub (.number 1 span) (.number (-2) span) span).infixText = "(1 - -2)" := by
  decide +kernel

end Calculator
