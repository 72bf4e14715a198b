/-
# Quoted texts

A text is quoted by double quotes around it. Inside, a null, a tab, a line end,
a double quote and a backslash get a backslash and a letter; a character that
could not be seen where it stands (it is unprintable, or attaches to the one
before it) is written as its code point, in lower-case hexadecimal; every other
character stands for itself.

Key definitions: `escaped`, `quoted`.
-/
import Calculator.Text.Combining
import Calculator.Text.Unprintable

namespace Calculator.Text

/-- The character written as its code point: a backslash, a `u` and the
hexadecimal digits in braces. -/
def codePoint (c : Char) : List Char :=
  '\\' :: 'u' :: '\x7b' :: (Nat.toDigits 16 c.toNat ++ ['\x7d'])

/-- How one character of a quoted text is written. -/
def escaped (c : Char) : List Char :=
  if c = '\x00' then ['\\', '0']
  else if c = '\t' then ['\\', 't']
  else if c = '\r' then ['\\', 'r']
  else if c = '\n' then ['\\', 'n']
  else if c = '"' then ['\\', '"']
  else if c = '\\' then ['\\', '\\']
  else if 0x20 ≤ c.toNat ∧ c.toNat < 0x7f then [c]
  else if isCombining c || isUnprintable c then codePoint c
  else [c]

/-- The text in double quotes. -/
def quoted (text : String) : String :=
  String.ofList ('"' :: (text.toList.flatMap escaped ++ ['"']))

example : quoted "a\tb" = "\"a\\tb\"" := by decide +kernel

end Calculator.Text
