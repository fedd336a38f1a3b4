/-!
# Ranges of code points

Properties of characters are given by tables of ranges of code points.
-/

namespace TagQuery

/-- The first and the last code point of a range. -/
abbrev CodeRange := Nat × Nat

/-- Whether the code point of the character lies in one of the ranges. -/
def liesIn (ranges : List CodeRange) (c : Char) : Bool :=
  ranges.any fun r => decide (r.1 ≤ c.toNat) && decide (c.toNat ≤ r.2)

end TagQuery
