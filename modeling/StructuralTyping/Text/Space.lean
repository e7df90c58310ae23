import StructuralTyping.Text.Pieces

/-!
# White space

The characters with the property White_Space, and trimming them off.
-/

namespace StructuralTyping

/-- The character has the property White_Space. -/
def isSpace (c : Char) : Bool :=
  let n := c.toNat
  (9 ≤ n && n ≤ 13) || n == 32 || n == 0x85 || n == 0xa0 || n == 0x1680
    || (0x2000 ≤ n && n ≤ 0x200a) || n == 0x2028 || n == 0x2029 || n == 0x202f || n == 0x205f
    || n == 0x3000

/-- The text without white space at its ends. -/
def trimSpace (s : String) : String := trimBoth isSpace s

end StructuralTyping
