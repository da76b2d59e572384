/-! # White space

The characters with the property White_Space of Unicode, and texts without them at the end. -/

namespace TreePath.Text

/-- A character with the property White_Space. -/
def isWhiteSpace (c : Char) : Bool :=
  let n := c.toNat
  (0x9 ≤ n && n ≤ 0xD) || n = 0x20 || n = 0x85 || n = 0xA0 || n = 0x1680 ||
    (0x2000 ≤ n && n ≤ 0x200A) || n = 0x2028 || n = 0x2029 || n = 0x202F || n = 0x205F ||
    n = 0x3000

/-- Characters, the last first, without white space at the end. -/
def trimEnd (reversed : List Char) : List Char := (reversed.dropWhile isWhiteSpace).reverse

end TreePath.Text
