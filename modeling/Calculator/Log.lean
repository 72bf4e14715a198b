/-
# The log of a calculation

What happens on the way from a source to an expression is logged: the number of
tokens read, each visit of a rule to a token, and how the parse ended. The last
is worth a debugger's attention, the others are a trace.

Key definitions: `Record`, `Record.message`, `Record.level`, `Record.ofTokens`, `Record.ofParse`.
-/
import Calculator.Parser.Parse

namespace Calculator

open Text

/-- How much a record matters. -/
inductive Level
  | trace
  | debug
deriving DecidableEq

/-- The name of a level. -/
def Level.name : Level → String
  | trace => "TRACE"
  | debug => "DEBUG"

/-- A record of the log. -/
inductive Record
  /-- A source was read to its end. -/
  | tokenized (count : Nat) (file : String)
  /-- A rule started on a token. -/
  | visited (visit : Visit)
  /-- A parse ended with an expression. -/
  | parsed (file : String) (nodes : Nat)
  /-- A parse ended with an error. -/
  | failed (file : String) (error : Error)
deriving DecidableEq

namespace Record

/-- How much a record matters. -/
def level : Record → Level
  | tokenized .. => .trace
  | visited _ => .trace
  | parsed .. => .debug
  | failed .. => .debug

/-- The text of a record. -/
def message : Record → String
  | tokenized count file => "tokenized " ++ decimal count ++ " tokens from " ++ file
  | visited visit => visit.rule.name ++ ": current token = " ++ quoted visit.text
  | parsed file nodes => "parsed " ++ file ++ " with " ++ decimal nodes ++ " nodes"
  | failed file error => "failed to parse " ++ file ++ ": " ++ error.message

/-- The records of reading a source into the tokens. -/
def ofTokens (tokens : List Token) (file : String) : List Record := [tokenized tokens.length file]

/-- The record of how a parse ended. -/
def ofEnd (out : Outcome) : Record :=
  match out.result with
  | .ok _ => parsed out.parser.file out.parser.built
  | .error error => failed out.parser.file error

/-- The records of a parse, in the order they were made. -/
def ofParse (out : Outcome) : List Record := out.parser.visits.reverse.map visited ++ [ofEnd out]

end Record

end Calculator
