/-!
# Blanks

The characters that count as white space, which are those of Unicode's `White_Space`, and trimming them from both ends
of a text.
-/

namespace TagQuery

/-- White space as Unicode defines it: the controls from tab to carriage return, the next-line control, and every
space and separator character. -/
def isBlank (c : Char) : Bool :=
  let n := c.toNat
  (9 ≤ n && n ≤ 13) || n == 0x20 || n == 0x85 || n == 0xA0 || n == 0x1680 || (0x2000 ≤ n && n ≤ 0x200A) ||
    n == 0x2028 || n == 0x2029 || n == 0x202F || n == 0x205F || n == 0x3000

/-- The text without the blanks at its two ends. -/
def trim (text : List Char) : List Char :=
  ((text.dropWhile isBlank).reverse.dropWhile isBlank).reverse

end TagQuery
