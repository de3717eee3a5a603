/-!
# Blank characters

The Unicode property `White_Space`, and text without the blanks around it.
-/

namespace CircuitGrid

/-- The characters with the Unicode property `White_Space`. -/
def isBlank (c : Char) : Bool :=
  let code := c.toNat
  (9 ≤ code && code ≤ 13) || code = 0x20 || code = 0x85 || code = 0xa0 || code = 0x1680
    || (0x2000 ≤ code && code ≤ 0x200a) || code = 0x2028 || code = 0x2029 || code = 0x202f
    || code = 0x205f || code = 0x3000

/-- The text without blanks at its beginning. -/
def trimStart (cs : List Char) : List Char := cs.dropWhile isBlank

/-- The text without blanks at its beginning and end. -/
def trimBlanks (cs : List Char) : List Char :=
  (trimStart (trimStart cs).reverse).reverse

end CircuitGrid
