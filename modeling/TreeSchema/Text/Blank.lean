/-!
# Blanks around numerals

The blanks that may surround a numeral: the six of ASCII, and the blank characters of Unicode beyond
ASCII.
-/

namespace TreeSchema.Text

/-- Whether a character is a blank. -/
def isBlank (c : Char) : Bool :=
  [' ', '\t', '\n', '\r', '\x0b', '\x0c', '\u0085', '\u00a0', '\u1680', '\u2028', '\u2029',
    '\u202f', '\u205f', '\u3000'].contains c || (0x2000 ≤ c.toNat && c.toNat ≤ 0x200A)

/-- A text without the blanks around it. -/
def trimBlanks (cs : List Char) : List Char :=
  ((cs.dropWhile isBlank).reverse.dropWhile isBlank).reverse

end TreeSchema.Text
