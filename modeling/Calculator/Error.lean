/-
# What can go wrong, and where

A fault is a cause of failure. It has a name, a message that quotes the text it
is about, and for most causes a tip that shows the same text bare. An error is
a fault at a place.

Key definitions: `Fault`, `Fault.name`, `Fault.message`, `Fault.tip?`, `Error`, `Error.message`.
-/
import Calculator.Position
import Calculator.Text.Decimal
import Calculator.Text.Quoted

namespace Calculator

open Text

/-- A cause of failure. -/
inductive Fault
  /-- A character that starts no token. -/
  | unrecognised (text : String)
  /-- A run of digits that stands for no 64-bit integer. -/
  | badNumber (digits : String)
  /-- A token where an operand was needed. -/
  | expectedNumber (found : String)
  /-- A token where an open group had to be closed. -/
  | expectedClose (found : String)
  /-- A token where an operator or a parenthesis was needed. -/
  | expectedOperator (found : String)
  /-- A token where an integer was needed. -/
  | expectedInteger (found : String)
  /-- The end of the input where a token was needed. -/
  | endedEarly
  /-- A token after a whole expression. -/
  | trailing (found : String)
  /-- One group more than the limit allows. -/
  | nestedTooDeep (limit : Nat)
  /-- A division whose right operand is zero. -/
  | divisionByZero
  /-- A result that does not fit into 64 bits. -/
  | overflow (symbol : String)
  /-- A state that no input should lead to. -/
  | internal (reason : String)
deriving DecidableEq

namespace Fault

/-- The name of the kind of fault. -/
def name : Fault → String
  | unrecognised _ => "UnrecognisedToken"
  | badNumber _ => "NumberParseError"
  | expectedNumber _ => "ExpectedNumber"
  | expectedClose _ => "ExpectedCloseParen"
  | expectedOperator _ => "ExpectedOperator"
  | expectedInteger _ => "ExpectedInteger"
  | endedEarly => "UnexpectedEndOfInput"
  | trailing _ => "TrailingInput"
  | nestedTooDeep _ => "NestingTooDeep"
  | divisionByZero => "DivisionByZero"
  | overflow _ => "Overflow"
  | internal _ => "Internal"

/-- The message, with the text it is about in quotes. -/
def message : Fault → String
  | unrecognised text => "unrecognised token: " ++ quoted text
  | badNumber digits => "error parsing number: " ++ quoted digits
  | expectedNumber found => "expected a number, found " ++ quoted found
  | expectedClose found => "expected closing parenthesis, found " ++ quoted found
  | expectedOperator found => "expected an operator, found " ++ quoted found
  | expectedInteger found => "expected an integer, found " ++ quoted found
  | endedEarly => "unexpected end of input"
  | trailing found => "unexpected trailing input: " ++ quoted found
  | nestedTooDeep limit => "parentheses nested deeper than " ++ decimal limit
  | divisionByZero => "division by zero"
  | overflow symbol => "integer overflow in " ++ quoted symbol
  | internal reason => "internal error: " ++ reason

/-- The hint for whoever wrote the input, if there is one. -/
def tip? : Fault → Option String
  | unrecognised _ => none
  | badNumber digits => some ("Invalid number: `" ++ digits ++ "`, is it above the integer limit?")
  | expectedNumber found => some ("Expected a number, found `" ++ found ++ "`")
  | expectedClose found => some ("Expected `)`, found `" ++ found ++ "`")
  | expectedOperator found => some ("Expected an operator, found `" ++ found ++ "`")
  | expectedInteger found => some ("Expected an integer, found `" ++ found ++ "`")
  | endedEarly => some "The expression ended too early"
  | trailing found => some ("Unexpected `" ++ found ++ "` after a complete expression")
  | nestedTooDeep limit => some ("Parentheses nest deeper than " ++ decimal limit ++ " levels")
  | divisionByZero => none
  | overflow symbol => some ("Result of `" ++ symbol ++ "` does not fit in a 64-bit integer")
  | internal reason => some ("Internal parser error: " ++ reason)

end Fault

/-- A fault and the place it is reported at. -/
structure Error where
  fault : Fault
  position : Position
deriving DecidableEq

/-- The message of the fault, followed by the place. -/
def Error.message (error : Error) : String :=
  error.fault.message ++ " at " ++ error.position.file ++ ":" ++
    decimal error.position.offset.toNat

end Calculator
