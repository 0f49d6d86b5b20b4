/-
  Tracewright.Text.Blank

  White space as Unicode counts it, and its removal at both ends of a text.

    * `isBlank` — the white space characters.
    * `strip`   — the text without blanks at its ends.

  Reference: `str.isspace` and `str.strip`.
-/
import Tracewright.Text.Basic

namespace Tracewright.Text

/-- White space: the ASCII blanks and separators, next line, and the Unicode spaces and
    line and paragraph separators. -/
def isBlank (c : Char) : Bool :=
  let n := c.toNat
  (0x09 ≤ n && n ≤ 0x0d) || (0x1c ≤ n && n ≤ 0x20) || n == 0x85 || n == 0xa0 || n == 0x1680
    || (0x2000 ≤ n && n ≤ 0x200a) || n == 0x2028 || n == 0x2029 || n == 0x202f || n == 0x205f
    || n == 0x3000

/-- The text without the blanks at its start and at its end. -/
def strip (t : Text) : Text :=
  ((t.dropWhile isBlank).reverse.dropWhile isBlank).reverse

end Tracewright.Text
