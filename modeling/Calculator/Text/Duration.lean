/-
# Lengths of time

A length of time is written in the largest of seconds, milliseconds,
microseconds and nanoseconds that it reaches, with all its digits after the
point but no zeros at their end.

Key definitions: `fraction`, `duration`.
-/
import Calculator.Text.Decimal

namespace Calculator.Text

/-- The decimal places of `part / 10 ^ places`, with the point, without zeros at their end. -/
def fraction (part places : Nat) : String :=
  let digits := Nat.toDigits 10 part
  let padded := List.replicate (places - digits.length) '0' ++ digits
  match (padded.reverse.dropWhile (· = '0')).reverse with
  | [] => ""
  | kept => String.ofList ('.' :: kept)

/-- A number of nanoseconds as a length of time. -/
def duration (nanoseconds : Nat) : String :=
  if 1000000000 ≤ nanoseconds then
    decimal (nanoseconds / 1000000000 : Nat) ++ fraction (nanoseconds % 1000000000) 9 ++ "s"
  else if 1000000 ≤ nanoseconds then
    decimal (nanoseconds / 1000000 : Nat) ++ fraction (nanoseconds % 1000000) 6 ++ "ms"
  else if 1000 ≤ nanoseconds then
    decimal (nanoseconds / 1000 : Nat) ++ fraction (nanoseconds % 1000) 3 ++ "µs"
  else decimal nanoseconds ++ "ns"

example : duration 1500000000 = "1.5s" ∧ duration 12034 = "12.034µs" ∧ duration 7 = "7ns" := by
  decide +kernel

end Calculator.Text
