import StructuralTyping.Text.ByteText

/-!
# Base 64

Bytes written with 64 characters, four for every three bytes.  The last group is
filled up with `=`.  Line ends may stand anywhere and are passed over.
-/

namespace StructuralTyping

/-- The value of a character. -/
def sextet? (c : Char) : Option Nat :=
  if c.isUpper then some (c.toNat - 'A'.toNat)
  else if c.isLower then some (c.toNat - 'a'.toNat + 26)
  else if c.isDigit then some (c.toNat - '0'.toNat + 52)
  else if c == '+' then some 62
  else if c == '/' then some 63
  else none

/-- The byte at a place of a group of 24 bits, counted from the right. -/
def byteAt (group place : Nat) : UInt8 := UInt8.ofNat (group >>> (8 * place))

/-- The bits of four characters. -/
def group? (a b c d : Char) : Option Nat := do
  some (((← sextet? a) * 64 + (← sextet? b)) * 4096 + (← sextet? c) * 64 + (← sextet? d))

/-- The bytes of a text without line ends.  None when it is malformed. -/
def bytesOfBase64? : List Char → Option (List UInt8)
  | [] => some []
  | [a, b, '=', '='] => (group? a b 'A' 'A').map fun g => [byteAt g 2]
  | [a, b, c, '='] => (group? a b c 'A').map fun g => [byteAt g 2, byteAt g 1]
  | a :: b :: c :: d :: rest => do
    let g ← group? a b c d
    some (byteAt g 2 :: byteAt g 1 :: byteAt g 0 :: (← bytesOfBase64? rest))
  | _ => none

/-- The text whose bytes are written in base 64.  None when the writing is
malformed. -/
def textOfBase64? (s : String) : Option ByteText :=
  (bytesOfBase64? (s.toList.filter fun c => c != '\n' && c != '\r')).map ByteText.ofBytes

example : bytesOfBase64? "eWVz".toList = some [121, 101, 115] := by decide +kernel
example : bytesOfBase64? "bw==".toList = some [111] := by decide +kernel
example : bytesOfBase64? "bw=".toList = none := by decide +kernel

end StructuralTyping
