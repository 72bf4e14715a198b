/-
# Parsing a whole input

The tokens of an input have to form one sum: a token after it is an error.

Key definitions: `Parser.expression`, `Parser.whole`, `parse`.
-/
import Calculator.Parser.Phrase

namespace Calculator

/-- Takes one expression and leaves the tokens after it. -/
def Parser.expression (p : Parser) : Outcome := p.phrase .sum

/-- Takes one expression that reaches to the end of input. -/
def Parser.whole (p : Parser) : Outcome :=
  p.expression.andThen fun e q =>
    match q.expectEnd with
    | .error error => ⟨q, .error error⟩
    | .ok () => ⟨q, .ok e⟩

/-- Parses a list of tokens as one expression, with at most `limit` groups open at once. -/
def parse (tokens : List Token) (file : String) (limit : Nat) : Outcome :=
  (Parser.start tokens file limit).whole

end Calculator
