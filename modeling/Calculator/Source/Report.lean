/-
# An error shown in its source

A report names the error, gives its tip in parentheses if it has one, and names
the source. If the place lies in a line, three more lines show it: an empty
margin, the line without the blanks around it, and a caret, all to the right of
bars in one column. The caret stands as many columns in as characters come
before the place, less the spaces the line starts with; if the place lies inside
a character, the bytes before it count instead.

Key definitions: `Error.headline`, `Line.column`, `Line.dashes`, `Line.excerpt`, `Error.report`.
-/
import Calculator.Error
import Calculator.Source.Line
import Calculator.Text.Blank

namespace Calculator

open Text

/-- The first two lines of a report. -/
def Error.headline (error : Error) : String :=
  "Error: " ++ error.fault.name ++
    (match error.fault.tip? with
      | none => ""
      | some tip => " (" ++ tip ++ ")") ++
    "\n-> " ++ error.position.file ++ "\n"

namespace Line

/-- The number of characters before the offset, or of bytes if it lies inside a character. -/
def column (line : Line) : Nat :=
  match cut? line.offset line.text with
  | some (front, _) => front.length
  | none => line.offset

/-- The number of spaces the line starts with. -/
def spaces (line : Line) : Nat := (line.text.takeWhile (· = ' ')).length

/-- The number of dashes before the caret. -/
def dashes (line : Line) : Nat := line.column - line.spaces

/-- The last three lines of a report. -/
def excerpt (line : Line) : String :=
  let number := decimal line.number
  let margin := String.ofList (List.replicate (number.length + 1) ' ') ++ "|"
  margin ++ "\n" ++
    number ++ " | " ++ String.ofList (trim line.text) ++ "\n" ++
    margin ++ " " ++ String.ofList (List.replicate line.dashes '-') ++ "^\n"

end Line

/-- The error, shown in the source it is about. -/
def Error.report (error : Error) (source : String) : String :=
  match lineAt? source error.position.offset.toNat with
  | none => error.headline
  | some line => error.headline ++ line.excerpt

end Calculator
