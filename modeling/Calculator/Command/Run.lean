/-
# The command

A run of the command reads its source, cuts it into tokens, parses them,
evaluates the expression, and says what each stage gave and how long it took.
The first stage that fails ends the run with a report of its error, after what
the stages before it have said. Files and time are reached through a system:
the machine's, or any set of files with any clock.

Key definitions: `System`, `System.ofFiles`, `Transcript`, `calculate`, `run`.
-/
import Calculator.Command.Files
import Calculator.Command.Invocation
import Calculator.Expr.Count
import Calculator.Expr.Evaluate
import Calculator.Expr.Infix
import Calculator.Expr.Outline
import Calculator.Parser.Parse
import Calculator.Source.Report
import Calculator.Token.Lexer
import Calculator.Token.Tokenize

namespace Calculator.Command

open Text

/-- What a run needs from its surroundings. -/
structure System (m : Type → Type) where
  /-- Reads the bytes of the file at a path. -/
  read : String → m (Except String ByteArray)
  /-- Starts a stopwatch, which tells the time since then. -/
  stopwatch : m (m String)

/-- The system of a set of files and a clock. -/
def System.ofFiles {m : Type → Type} [Monad m] (files : Files) (stopwatch : m (m String)) :
    System m :=
  ⟨fun path => pure (files path), stopwatch⟩

/-- The system of a folder in memory, where every length of time is written as `time`. -/
def Folder.system (folder : Folder) (time : String) : System Id :=
  .ofFiles folder.files (pure (pure time))

/-- What a run leaves behind. -/
structure Transcript where
  status : Nat
  stdout : String
  stderr : String
deriving DecidableEq

/-- The lines of the stages up to the listing of the tokens. -/
def tokensText (listing : Bool) (tokens : List Token) (time : String) : String :=
  "Tokenized in " ++ time ++ "\n" ++
    if listing then String.join (tokens.map fun token => token.listing ++ "\n") else ""

/-- The line of the parse. -/
def parseText (out : Outcome) (time : String) : String :=
  "Parsed in " ++ time ++ " (" ++ decimal out.parser.built ++ " nodes)\n"

/-- The lines of an expression. -/
def exprText (e : Expr) : String := e.outline ++ e.infixText ++ "\n"

/-- Evaluates an expression after what was said before. -/
def evaluation [Monad m] (time : m String) (source said : String) (e : Expr) : m Transcript :=
  match e.evaluate with
  | .error error => pure ⟨1, said, error.report source⟩
  | .ok value => do
    let total ← time
    pure ⟨0, said ++ "= " ++ decimal value.toInt ++ "\nTotal time: " ++ total ++ "\n", ""⟩

/-- Runs the stages on a source. -/
def calculate [Monad m] (stopwatch : m (m String)) (listing : Bool) (source file : String) :
    m Transcript := do
  let total ← stopwatch
  match tokenize source file with
  | .error error => pure ⟨1, "", error.report source⟩
  | .ok tokens =>
    let said := tokensText listing tokens (← total)
    let lap ← stopwatch
    let out := parse tokens file Parser.defaultLimit
    match out.result with
    | .error error => pure ⟨1, said ++ parseText out (← lap), error.report source⟩
    | .ok e => evaluation total source (said ++ parseText out (← lap) ++ exprText e) e

/-- Runs the command with its arguments. -/
def run [Monad m] (system : System m) (args : List String) : m Transcript :=
  match Invocation.ofArgs args with
  | .usage => pure ⟨2, "", usage⟩
  | .calculate listing (.expression source) =>
    calculate system.stopwatch listing source Lexer.shell
  | .calculate listing (.path path) => do
    match (← system.read path).bind decode with
    | .error reason => pure ⟨1, "", "Failed to read " ++ path ++ ": " ++ reason ++ "\n"⟩
    | .ok source => calculate system.stopwatch listing source (fileName path)

end Calculator.Command
