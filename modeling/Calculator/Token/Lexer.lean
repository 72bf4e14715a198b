/-
# A place of reading in a source

A lexer stands at a byte offset of a source, held in 64 bits, and can be moved
forward by any number of bytes, past the end or into the middle of a character.
There it still knows its place, but there is nothing to read.

Key definitions: `Lexer`, `Lexer.advance`, `Lexer.remainder?`, `Lexer.next?`, `Lexer.spanOf`.
-/
import Calculator.Position
import Calculator.Text.Bytes

namespace Calculator

open Text

/-- A place of reading in a source. -/
structure Lexer where
  source : String
  /-- The name of the source. -/
  file : String
  /-- The byte offset of the place. -/
  offset : UInt64

namespace Lexer

/-- The name of a source that was given none. -/
def shell : String := "shell"

/-- The start of a source, with the name it was given, if it was. -/
def start (source : String) (file? : Option String) : Lexer :=
  match file? with
  | some file => ⟨source, file, 0⟩
  | none => ⟨source, shell, 0⟩

/-- Moves forward by `n` bytes. -/
def advance (n : Nat) (lexer : Lexer) : Lexer :=
  { lexer with offset := lexer.offset + UInt64.ofNat n }

/-- The source from the place on, if a character or the end of the source is there. -/
def remainder? (lexer : Lexer) : Option (List Char) :=
  (cut? lexer.offset.toNat lexer.source.toList).map (·.2)

/-- The next character, `none` at the end of the source, if one of the two is there. -/
def next? (lexer : Lexer) : Option (Option Char) := lexer.remainder?.map List.head?

/-- Whether the place is the end of the source or past it. -/
def isAtEnd (lexer : Lexer) : Bool := lexer.source.utf8ByteSize ≤ lexer.offset.toNat

/-- The place as a position. -/
def position (lexer : Lexer) : Position := Position.at lexer.offset.toNat lexer.file

/-- The span of the next `n` bytes. -/
def spanOf (n : Nat) (lexer : Lexer) : Span := Span.over lexer.offset.toNat n lexer.file

/-- The remainder is what follows a front of the source whose bytes are the offset. -/
theorem remainder?_eq_some_iff {lexer : Lexer} {rest : List Char} :
    lexer.remainder? = some rest ↔
      ∃ front, front ++ rest = lexer.source.toList ∧ byteLength front = lexer.offset.toNat := by
  rw [remainder?, Option.map_eq_some_iff]
  constructor
  · rintro ⟨⟨front, back⟩, hcut, rfl⟩
    exact ⟨front, cut?_eq_some_iff.1 hcut⟩
  · rintro ⟨front, h⟩
    exact ⟨(front, rest), cut?_eq_some_iff.2 h, rfl⟩

end Lexer

end Calculator
