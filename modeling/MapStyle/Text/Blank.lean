/-!
# Blanks

Two sets of blank characters: the white space of Unicode, which is trimmed from the
ends of a text, and the four blanks allowed inside numeric notations.
-/

namespace MapStyle.Text

/-- The white space of Unicode. -/
def isWhite (c : Char) : Bool :=
  let n := c.toNat
  (9 ≤ n && n ≤ 13) || n == 0x20 || n == 0x85 || n == 0xa0 || n == 0x1680 ||
    (0x2000 ≤ n && n ≤ 0x200a) || n == 0x2028 || n == 0x2029 || n == 0x202f || n == 0x205f ||
    n == 0x3000

/-- Space, tab, carriage return and line feed. -/
def isBlank (c : Char) : Bool := c == ' ' || c == '\t' || c == '\r' || c == '\n'

/-- Drop white space from the front. -/
def trimStart (text : List Char) : List Char := text.dropWhile isWhite

/-- Drop white space from the back. -/
def trimEnd (text : List Char) : List Char := (text.reverse.dropWhile isWhite).reverse

/-- Drop white space from both ends. -/
def trim (text : List Char) : List Char := trimEnd (trimStart text)

/-- Drop blanks from the front. -/
def skipBlanks (text : List Char) : List Char := text.dropWhile isBlank

end MapStyle.Text
