/-
# Tokens

A token is a piece of a source: an integer, a punctuation mark (an operator or
a parenthesis), or the end of the input. It keeps its text, its span and, for an
integer, its value. Tokens can also be made by hand, with any text and any
value, and the rest of the library takes them as they are.

Key definitions: `Token`, `Token.isOpen`, `Token.isClose`, `Token.terminated`.
-/
import Calculator.Position

namespace Calculator

/-- What a token is. -/
inductive Token.Kind
  /-- The end of the input. -/
  | eof
  /-- A run of digits. -/
  | integer
  /-- An operator or a parenthesis. -/
  | punct
deriving DecidableEq

/-- The name of a kind of token. -/
def Token.Kind.name : Kind → String
  | eof => "EOF"
  | integer => "Integer"
  | punct => "Punct"

/-- A piece of a source. -/
structure Token where
  kind : Token.Kind
  /-- The text it was read from. -/
  text : String
  span : Span
  /-- The value of an integer. -/
  number : Option Int64
deriving DecidableEq

namespace Token

/-- The token that ends an input at `position`. -/
def endAt (position : Position) : Token := ⟨.eof, "EOF", ⟨position, position⟩, none⟩

/-- Whether the token is the end of the input. -/
def isEnd (token : Token) : Bool := token.kind = .eof

/-- Whether the token is a punctuation mark. -/
def isPunct (token : Token) : Bool := token.kind = .punct

/-- Whether the token is an integer. -/
def isInteger (token : Token) : Bool := token.kind = .integer

/-- Whether the token is a punctuation mark whose text starts with `c`. -/
def isMark (c : Char) (token : Token) : Bool := token.isPunct && token.text.toList.head? == some c

/-- Whether the token opens a group. -/
def isOpen (token : Token) : Bool := token.isMark '('

/-- Whether the token closes a group. -/
def isClose (token : Token) : Bool := token.isMark ')'

/-- Whether the kind of the token is among `kinds`. -/
def isOneOf (token : Token) (kinds : List Kind) : Bool := kinds.contains token.kind

/-- The kind and the text of a token, one below the other. -/
def describe (token : Token) : String :=
  "Token \x7b\nkind: " ++ token.kind.name ++ ",\nvalue: " ++ token.text ++ "\x7d"

/-- The line that lists a token: its kind, and its text unless it ends the input. -/
def listing (token : Token) : String :=
  if token.isOneOf [.integer, .punct] then token.kind.name ++ " (" ++ token.text ++ ")"
  else token.kind.name ++ " ()"

/-- The list with an end of input after its last token, unless it has one there. The added
token stands where the last one stops, or at the start of the source if there is none. -/
def terminated (tokens : List Token) (file : String) : List Token :=
  match tokens.getLast? with
  | none => [endAt (Position.at 0 file)]
  | some last => if last.isEnd then tokens else tokens ++ [endAt last.span.stop]

theorem exists_isEnd_terminated (tokens : List Token) (file : String) :
    ∃ token ∈ terminated tokens file, token.isEnd = true := by
  unfold terminated
  split
  · exact ⟨_, List.mem_singleton.2 rfl, rfl⟩
  · next last hlast =>
    split
    · next hend => exact ⟨last, List.mem_of_getLast? hlast, hend⟩
    · exact ⟨_, List.mem_append_right _ (List.mem_singleton.2 rfl), rfl⟩

end Token

end Calculator
