/-
# Sets of characters given by ranges

A character property is written down as the closed ranges of code points that
have it, in increasing order.

Key definitions: `Ranges`, `Ranges.has`.
-/

namespace Calculator.Text

/-- Closed ranges of code points, in increasing order and apart from each other. -/
abbrev Ranges := List (Nat × Nat)

namespace Ranges

/-- Whether the code point of `c` lies in one of the ranges. -/
def has (ranges : Ranges) (c : Char) : Bool :=
  ranges.any fun range => range.1 ≤ c.toNat && c.toNat ≤ range.2

/-- The number of code points in the ranges. -/
def count (ranges : Ranges) : Nat :=
  ranges.foldr (fun range points => range.2 + 1 - range.1 + points) 0

end Ranges

end Calculator.Text
