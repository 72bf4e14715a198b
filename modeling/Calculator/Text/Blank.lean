/-
# Blank characters

The 25 characters with the Unicode property White_Space, and the removal of
blanks from both ends of a text.

Key definitions: `blankRanges`, `isBlank`, `trim`.
-/
import Calculator.Text.Ranges

namespace Calculator.Text

/-- The characters with the property White_Space. -/
def blankRanges : Ranges :=
  [(0x9, 0xd), (0x20, 0x20), (0x85, 0x85), (0xa0, 0xa0), (0x1680, 0x1680), (0x2000, 0x200a),
    (0x2028, 0x2029), (0x202f, 0x202f), (0x205f, 0x205f), (0x3000, 0x3000)]

/-- Whether `c` is a blank. -/
def isBlank (c : Char) : Bool := blankRanges.has c

/-- The text without the blanks at its start and at its end. -/
def trim (text : List Char) : List Char :=
  ((text.dropWhile isBlank).reverse.dropWhile isBlank).reverse

example : blankRanges.count = 25 := by decide

theorem isBlank_of_isDigit {c : Char} (h : c.isDigit = true) : isBlank c = false := by
  obtain ⟨hlo, hhi⟩ := Char.isDigit_iff_toNat.1 h
  have hlo : 48 ≤ c.toNat := hlo
  have hhi : c.toNat ≤ 57 := hhi
  simp [isBlank, Ranges.has, blankRanges]
  omega

end Calculator.Text
