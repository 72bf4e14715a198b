/-
# The grammar

What a phrase is, said without a parser. A chain of operators of one rule
groups from the left, so the grammar is left-recursive: a sum is a sum, a `+`
or `-` and a product, or just a product; a product is a product, a `*` or `/`
and an atom, or just an atom; an atom is an integer or a sum in parentheses. A
phrase comes with its expression and with a bound on the groups open at once.

The productions are written out. That the sums and the products are chains of the
tables of the rules is a lemma for each way to make one (`Derives.single`,
`Derives.binary`), and an induction over phrases need not tell them apart
(`Derives.chain_induction`).

Key definitions: `Token.isSign`, `Derives`.
Key theorems: `Derives.chain_induction`, `Derives.ne_nil`, `Derives.mono`.
-/
import Calculator.Parser.State

namespace Calculator

/-- Whether the token is an operator, which its text alone tells unless it ends the input. -/
def Token.isSign (op : Operator) (token : Token) : Bool := !token.isEnd && token.text = op.symbol

/-- The tokens are a phrase of the rule with the expression, and at most `limit` groups of it are
open at once. -/
inductive Derives : Rule → (limit : Nat) → List Token → Expr → Prop
  /-- An integer with a value is an atom. -/
  | number {limit : Nat} {token : Token} {value : Int64} :
    token.isInteger = true → token.number = some value →
    Derives .atom limit [token] (.number value token.span)
  /-- A sum in parentheses is an atom, and they open one group more. -/
  | group {limit : Nat} {first last : Token} {tokens : List Token} {e : Expr} :
    first.isOpen = true → last.isClose = true → Derives .sum limit tokens e →
    Derives .atom (limit + 1) (first :: (tokens ++ [last])) e
  /-- An atom is a product. -/
  | atom {limit : Nat} {tokens : List Token} {e : Expr} :
    Derives .atom limit tokens e → Derives .product limit tokens e
  /-- A product, a `*` or `/` and an atom are a product. -/
  | product {limit : Nat} {op : Operator} {token : Token} {before after : List Token}
    {left right : Expr} :
    op = .mul ∨ op = .div → token.isSign op = true →
    Derives .product limit before left → Derives .atom limit after right →
    Derives .product limit (before ++ token :: after) (.binary op left right token.span)
  /-- A product is a sum. -/
  | term {limit : Nat} {tokens : List Token} {e : Expr} :
    Derives .product limit tokens e → Derives .sum limit tokens e
  /-- A sum, a `+` or `-` and a product are a sum. -/
  | sum {limit : Nat} {op : Operator} {token : Token} {before after : List Token}
    {left right : Expr} :
    op = .add ∨ op = .sub → token.isSign op = true →
    Derives .sum limit before left → Derives .product limit after right →
    Derives .sum limit (before ++ token :: after) (.binary op left right token.span)

namespace Derives

/-- An operand is a phrase of the rule whose operand it is. -/
theorem single {rule tighter : Rule} {limit : Nat} {tokens : List Token} {e : Expr}
    (hr : rule.operand? = some tighter) (h : Derives tighter limit tokens e) :
    Derives rule limit tokens e := by
  cases rule with
  | sum => cases hr; exact .term h
  | product => cases hr; exact .atom h
  | atom => cases hr

/-- A phrase, an operator of its rule and one more operand are a phrase. -/
theorem binary {rule tighter : Rule} {limit : Nat} {op : Operator} {token : Token}
    {before after : List Token} {left right : Expr} (hr : rule.operand? = some tighter)
    (ho : op ∈ rule.operators) (hs : token.isSign op = true)
    (hleft : Derives rule limit before left) (hright : Derives tighter limit after right) :
    Derives rule limit (before ++ token :: after) (.binary op left right token.span) := by
  cases rule with
  | sum =>
    cases hr
    exact .sum (by simpa [Rule.operators] using ho) hs hleft hright
  | product =>
    cases hr
    exact .product (by simpa [Rule.operators] using ho) hs hleft hright
  | atom => cases hr

/-- What holds of atoms, and of the chains of a rule if it holds of their operands, holds of all
phrases. -/
@[elab_as_elim, induction_eliminator]
theorem chain_induction
    {motive : ∀ (rule : Rule) (limit : Nat) (tokens : List Token) (e : Expr),
      Derives rule limit tokens e → Prop}
    (number : ∀ {limit : Nat} {token : Token} {value : Int64} (hi : token.isInteger = true)
      (hn : token.number = some value), motive _ limit _ _ (.number hi hn))
    (group : ∀ {limit : Nat} {first last : Token} {tokens : List Token} {e : Expr}
      (ho : first.isOpen = true) (hc : last.isClose = true) (h : Derives .sum limit tokens e),
      motive _ _ _ _ h → motive _ _ _ _ (.group ho hc h))
    (single : ∀ {rule tighter : Rule} {limit : Nat} {tokens : List Token} {e : Expr}
      (hr : rule.operand? = some tighter) (h : Derives tighter limit tokens e),
      motive _ _ _ _ h → motive rule _ _ _ (.single hr h))
    (binary : ∀ {rule tighter : Rule} {limit : Nat} {op : Operator} {token : Token}
      {before after : List Token} {left right : Expr} (hr : rule.operand? = some tighter)
      (ho : op ∈ rule.operators) (hs : token.isSign op = true)
      (hleft : Derives rule limit before left) (hright : Derives tighter limit after right),
      motive _ _ _ _ hleft → motive _ _ _ _ hright →
      motive _ _ _ _ (.binary hr ho hs hleft hright))
    {rule : Rule} {limit : Nat} {tokens : List Token} {e : Expr} (h : Derives rule limit tokens e) :
    motive rule limit tokens e h := by
  induction h using Derives.rec with
  | number hi hn => exact number hi hn
  | group ho hc h ih => exact group ho hc h ih
  | atom h ih => exact single rfl h ih
  | product ho hs hleft hright ihl ihr =>
    exact binary rfl (by simpa [Rule.operators] using ho) hs hleft hright ihl ihr
  | term h ih => exact single rfl h ih
  | sum ho hs hleft hright ihl ihr =>
    exact binary rfl (by simpa [Rule.operators] using ho) hs hleft hright ihl ihr

/-- A phrase has a token. -/
theorem ne_nil {rule : Rule} {limit : Nat} {tokens : List Token} {e : Expr}
    (h : Derives rule limit tokens e) : tokens ≠ [] := by
  induction h with
  | number => simp
  | group => simp
  | single _ _ ih => exact ih
  | binary => simp

/-- A phrase stays one under a higher limit. -/
theorem mono {rule : Rule} {limit : Nat} {tokens : List Token} {e : Expr}
    (h : Derives rule limit tokens e) : ∀ {higher : Nat}, limit ≤ higher →
    Derives rule higher tokens e := by
  induction h with
  | number hi hn => exact fun _ => .number hi hn
  | group ho hc _ ih =>
    intro higher hle
    cases higher with
    | zero => exact absurd hle (Nat.not_succ_le_zero _)
    | succ higher => exact .group ho hc (ih (Nat.le_of_succ_le_succ hle))
  | single hr _ ih => exact fun hle => .single hr (ih hle)
  | binary hr ho hs _ _ ihl ihr => exact fun hle => .binary hr ho hs (ihl hle) (ihr hle)

end Derives

end Calculator
