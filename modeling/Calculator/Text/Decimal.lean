/-
# Decimal numerals

Numbers are written in decimal digits without leading zeros, negative ones
with a minus sign in front, and a run of digits is read as the number it
stands for, leading zeros allowed.

Key definitions: `decimal`, `natOfDigits`.
Key theorems: `natOfDigits_decimal`.
-/

namespace Calculator.Text

/-- The decimal numeral of a number. -/
def decimal : Int → String
  | .ofNat n => String.ofList (Nat.toDigits 10 n)
  | .negSucc n => String.ofList ('-' :: Nat.toDigits 10 (n + 1))

/-- The number a run of decimal digits stands for. -/
def natOfDigits (digits : List Char) : Nat := Nat.ofDigitChars 10 digits 0

theorem toList_decimal_ofNat (n : Nat) : (decimal (.ofNat n)).toList = Nat.toDigits 10 n :=
  String.toList_ofList

theorem toList_decimal_negSucc (n : Nat) :
    (decimal (.negSucc n)).toList = '-' :: Nat.toDigits 10 (n + 1) :=
  String.toList_ofList

/-- The numeral of a natural number reads back as the number. -/
theorem natOfDigits_decimal (n : Nat) : natOfDigits (decimal (Int.ofNat n)).toList = n := by
  simp [decimal, natOfDigits, Nat.ofDigitChars_toDigits]

end Calculator.Text
