/-
# The tokens of a source

A source is read from its start. Wherever something is left, the first shape of
the table that fits takes its lexeme: a digit run becomes an integer token, a
mark a punctuation token, and blanks become nothing. A digit run that stands for
no 64-bit integer and a character that no shape fits are errors at the place
where they start. The end of the source becomes one last token.

Key definitions: `Pattern.token?`, `Reading`, `Reading.next`, `Reading.finish`, `tokenize`.
Key theorems: `Reading.length_rest_lt_of_next`, `Reading.next_whole`, `Reading.finish_eq`,
`tokenize_eq_some`.
-/
import Calculator.Error
import Calculator.Text.Bytes
import Calculator.Token
import Calculator.Token.Lexer
import Calculator.Token.Pattern

namespace Calculator

open Text

/-- The token that the lexeme of a shape makes at a byte offset, if it makes one. -/
def Pattern.token? (file : String) (offset : Nat) (lexeme : List Char) :
    Pattern → Except Error (Option Token)
  | .digits =>
    if natOfDigits lexeme < 0x8000000000000000 then
      .ok (some ⟨.integer, String.ofList lexeme, Span.over offset (byteLength lexeme) file,
        some (Int64.ofNat (natOfDigits lexeme))⟩)
    else .error ⟨.badNumber (String.ofList lexeme), Position.at offset file⟩
  | .blanks => .ok none
  | .mark _ =>
    .ok (some ⟨.punct, String.ofList lexeme, Span.over offset (byteLength lexeme) file, none⟩)

/-- How far a source has been read. -/
structure Reading where
  /-- The number of bytes read. -/
  offset : Nat
  /-- What is left to read. -/
  rest : List Char
  /-- The tokens found, the latest first. -/
  found : List Token

namespace Reading

/-- Nothing of the source has been read. -/
def start (source : String) : Reading := ⟨0, source.toList, []⟩

/-- Reads one lexeme more. -/
def next (file : String) (reading : Reading) : Except Error Reading :=
  match Pattern.first? reading.rest with
  | none =>
    .error ⟨.unrecognised (String.ofList (reading.rest.take 1)), Position.at reading.offset file⟩
  | some pattern =>
    let parts := pattern.split reading.rest
    match pattern.token? file reading.offset parts.1 with
    | .error error => .error error
    | .ok token? =>
      .ok ⟨reading.offset + byteLength parts.1, parts.2, token?.toList ++ reading.found⟩

/-- Every lexeme leaves less to read. -/
theorem length_rest_lt_of_next {file : String} {reading after : Reading}
    (h : reading.next file = .ok after) : after.rest.length < reading.rest.length := by
  unfold next at h
  split at h
  · cases h
  · next pattern hp =>
    simp only at h
    split at h
    · cases h
    · cases h
      exact Pattern.length_lt_of_fits (Pattern.fits_of_first? hp)

/-- A lexeme is taken off the text and its bytes are added to the offset. -/
theorem next_whole {file : String} {reading after : Reading} (h : reading.next file = .ok after) :
    ∃ lexeme, lexeme ++ after.rest = reading.rest ∧
      after.offset = reading.offset + byteLength lexeme := by
  unfold next at h
  split at h
  · cases h
  · next pattern hp =>
    simp only at h
    split at h
    · cases h
    · cases h
      exact ⟨_, pattern.split_append _, rfl⟩

/-- Reads the rest of a source and ends the tokens found. -/
def finish (file : String) (reading : Reading) : Except Error (List Token) :=
  if reading.rest.isEmpty then
    .ok (reading.found.reverse ++ [Token.endAt (Position.at reading.offset file)])
  else
    match h : reading.next file with
    | .error error => .error error
    | .ok after =>
      have := length_rest_lt_of_next h
      finish file after
termination_by reading.rest.length

/-- To finish a reading is to read lexeme after lexeme until nothing is left. -/
theorem finish_eq (file : String) (reading : Reading) :
    reading.finish file =
      if reading.rest.isEmpty then
        .ok (reading.found.reverse ++ [Token.endAt (Position.at reading.offset file)])
      else match reading.next file with
        | .error error => .error error
        | .ok after => after.finish file := by
  rw [finish]
  split
  · rfl
  · split <;> next h => conv => rhs; rw [h]

end Reading

/-- The tokens of a source, ended by the only end of input among them. A source without a name goes
by that of the shell. -/
def tokenize (source : String) (file? : Option String) : Except Error (List Token) :=
  (Reading.start source).finish (Lexer.start source file?).file

theorem tokenize_some (source file : String) :
    tokenize source (some file) = (Reading.start source).finish file := rfl

/-- A source without a name is cut into the tokens of one that is named the shell. -/
theorem tokenize_eq_some (source : String) (file? : Option String) :
    tokenize source file? = tokenize source (some (file?.getD "shell")) := by
  cases file? <;> rfl

end Calculator
