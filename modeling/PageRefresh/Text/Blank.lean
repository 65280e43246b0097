/-!
White space at the ends of a text.

The class is Unicode's `White_Space`: it holds the no-break and the ideographic space, and neither
the zero-width space nor the byte order mark.
-/

namespace PageRefresh.Text

/-- The scalar values with the property `White_Space`. -/
def isBlank (c : Char) : Bool :=
  let n := c.toNat
  (9 ≤ n && n ≤ 13) || n == 0x20 || n == 0x85 || n == 0xA0 || n == 0x1680 ||
    (0x2000 ≤ n && n ≤ 0x200A) || n == 0x2028 || n == 0x2029 || n == 0x202F || n == 0x205F ||
    n == 0x3000

/-- Drop the white space before the first and after the last other character. -/
def trimBlanks (cs : List Char) : List Char :=
  ((cs.dropWhile isBlank).reverse.dropWhile isBlank).reverse

end PageRefresh.Text
