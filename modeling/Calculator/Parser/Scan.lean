/-
# Checking an input with one counter

Whether a list of tokens is a whole expression, and what is wrong with it if it
is not, can be told in one pass that builds nothing. The scan knows whether it
needs an operand or has just seen one, and how many groups are open.

Key definitions: `Scan`, `Scan.step`, `Scan.run`, `scan`.
-/
import Calculator.Parser.Grammar

namespace Calculator

/-- Where a scan stands. -/
inductive Scan
  /-- An operand is needed, with so many groups open. -/
  | needsOperand (opened : Nat)
  /-- An operand has been seen, with so many groups open. -/
  | hasOperand (opened : Nat)
deriving DecidableEq

namespace Scan

/-- What a scan does with a token: it goes on, accepts the input, or rejects it. -/
inductive Verdict
  | goOn (scan : Scan)
  | accept
  | reject (fault : Fault)
deriving DecidableEq

/-- Whether the token is one of the four operators. -/
def isSign (token : Token) : Bool :=
  [Operator.add, .sub, .mul, .div].any fun op => token.isSign op

/-- What a scan does with a token, if at most `limit` groups may be open. -/
def step (limit : Nat) (token : Token) : Scan → Verdict
  | needsOperand opened =>
    if token.isOpen then
      if limit ≤ opened then .reject (.nestedTooDeep limit) else .goOn (needsOperand (opened + 1))
    else if token.isEnd then .reject .endedEarly
    else if token.isInteger then
      if token.number.isSome then .goOn (hasOperand opened)
      else .reject (.internal "integer token without a value")
    else .reject (.expectedNumber token.text)
  | hasOperand opened =>
    if isSign token then .goOn (needsOperand opened)
    else match opened with
      | 0 => if token.isEnd then .accept else .reject (.trailing token.text)
      | opened + 1 =>
        if token.isClose then .goOn (hasOperand opened) else .reject (.expectedClose token.text)

/-- Scans the tokens of a terminated list: the error at the token that is rejected, or none. The
end of input, past which nothing goes on, is given apart from the tokens before it. -/
def run (limit : Nat) (last : Token) : Scan → List Token → Except Error Unit
  | scan, [] =>
    match scan.step limit last with
    | .reject fault => .error ⟨fault, last.span.start⟩
    | _ => .ok ()
  | scan, token :: tokens =>
    match scan.step limit token with
    | .goOn scan => run limit last scan tokens
    | .accept => .ok ()
    | .reject fault => .error ⟨fault, token.span.start⟩

end Scan

/-- Checks that a list of tokens is a whole expression with at most `limit` groups open. -/
def scan (tokens : List Token) (file : String) (limit : Nat) : Except Error Unit :=
  let cursor := Cursor.ofTokens tokens file
  Scan.run limit cursor.last (.needsOperand 0) cursor.ahead

end Calculator
