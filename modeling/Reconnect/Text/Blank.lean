/-!
# Blanks

A blank is a character of the property White_Space. A text is blank when it holds nothing else;
trimming drops the blanks at both ends.
-/

namespace Reconnect.Text

/-- The characters with the property White_Space. -/
def isBlank (c : Char) : Bool :=
  let n := c.toNat
  (9 ≤ n && n ≤ 13) || n == 0x20 || n == 0x85 || n == 0xa0 || n == 0x1680
    || (0x2000 ≤ n && n ≤ 0x200a) || n == 0x2028 || n == 0x2029 || n == 0x202f || n == 0x205f
    || n == 0x3000

/-- The text without the blanks at its ends. -/
def trimBlanks (cs : List Char) : List Char :=
  ((cs.dropWhile isBlank).reverse.dropWhile isBlank).reverse

/-- Whether a text consists of blanks. -/
def isBlankText (s : String) : Bool := s.toList.all isBlank

end Reconnect.Text
