/-
# What a command line asks for

After an optional `--tokens` in front, the arguments are a path, or `-e` and an
expression. Anything else asks for the usage.

Key definitions: `Invocation`, `Invocation.ofArgs`, `fileName`, `usage`.
-/

namespace Calculator.Command

/-- Where the source of a calculation comes from. -/
inductive Input
  /-- The source is an argument. -/
  | expression (source : String)
  /-- The source is in a file. -/
  | path (path : String)
deriving DecidableEq

/-- What a command line asks for. -/
inductive Invocation
  /-- To be told the usage. -/
  | usage
  /-- A calculation, with a listing of the tokens or without one. -/
  | calculate (listing : Bool) (input : Input)
deriving DecidableEq

namespace Invocation

/-- The invocation of the arguments after an optional `--tokens`. -/
def ofRest (listing : Bool) : List String → Invocation
  | [flag, expression] => if flag = "-e" then calculate listing (.expression expression) else usage
  | [path] => calculate listing (.path path)
  | _ => usage

/-- The invocation of a list of arguments. -/
def ofArgs : List String → Invocation
  | [] => ofRest false []
  | arg :: rest => if arg = "--tokens" then ofRest true rest else ofRest false (arg :: rest)

end Invocation

/-- The text after the last slash of a path. -/
def fileName (path : String) : String :=
  String.ofList ((path.toList.reverse.takeWhile (· ≠ '/')).reverse)

/-- How the program is used. -/
def usage : String :=
  "Usage: arith [--tokens] <file>\n       arith [--tokens] -e <expression>\n"

end Calculator.Command
