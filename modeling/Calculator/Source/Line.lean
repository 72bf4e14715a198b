/-
# The line of a place

A source is cut into lines, each with the newline that ends it. A byte offset
lies in the line that has the byte. The offset just past the last byte lies at
the end of the last line if no newline ends it, and in an empty line after it
otherwise; offsets further on lie in no line.

Key definitions: `Line`, `lines`, `locate?`, `lineAt?`.
Key theorems: `lines_flatten`.
-/
import Calculator.Text.Bytes

namespace Calculator

open Text

/-- A line of a source and an offset in it. -/
structure Line where
  /-- The number of the line, from 1 on. -/
  number : Nat
  /-- The text of the line, with its newline. -/
  text : List Char
  /-- The byte offset in the line. -/
  offset : Nat
deriving DecidableEq

/-- The lines of a text, each with the newline that ends it. -/
def lines : List Char → List (List Char)
  | [] => []
  | c :: text =>
    if c = '\n' then [c] :: lines text
    else match lines text with
      | [] => [[c]]
      | line :: rest => (c :: line) :: rest

/-- Whether a newline ends the text. -/
def endsLine (text : List Char) : Bool := text.getLast? == some '\n'

/-- The line that has the offset, counted from the first of the lines, whose number is given. -/
def locate? : List (List Char) → (number offset : Nat) → Option Line
  | [], number, 0 => some ⟨number, [], 0⟩
  | [], _, _ + 1 => none
  | line :: rest, number, offset =>
    if offset < byteLength line ∨ (offset = byteLength line ∧ !endsLine line) then
      some ⟨number, line, offset⟩
    else locate? rest (number + 1) (offset - byteLength line)

/-- The line of a source that has the byte offset. -/
def lineAt? (source : String) (offset : Nat) : Option Line := locate? (lines source.toList) 1 offset

/-- The lines are the text, cut up. -/
theorem lines_flatten : ∀ text : List Char, (lines text).flatten = text
  | [] => rfl
  | c :: text => by
    have ih := lines_flatten text
    rw [lines]
    split
    · rw [List.flatten_cons, ih, List.singleton_append]
    · split
      · next h => rw [h] at ih; rw [← ih]; rfl
      · next line rest h => rw [h, List.flatten_cons] at ih; rw [← ih]; rfl

end Calculator
