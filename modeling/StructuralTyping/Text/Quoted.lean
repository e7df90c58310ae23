import StructuralTyping.Text.ByteText
import StructuralTyping.Text.Printable

/-!
# Quoted text

A string literal is shown between double quotes.  Quotes, backslashes, stray bytes
and characters that are not printable are written as escapes.  Reading accepts the
same escapes, octal and hexadecimal bytes among them, and refuses a line break.  An
escape may name any byte, so what is read is a text of any bytes.  Text between
backquotes has no escapes and loses its carriage returns.
-/

namespace StructuralTyping

/-! ## Writing -/

/-- A hexadecimal digit in lower case. -/
def hexDigit (n : Nat) : Char := if n < 10 then Char.ofNat (n + 48) else Char.ofNat (n + 87)

/-- The last `width` hexadecimal digits of a number. -/
def hexDigits : Nat → Nat → List Char
  | 0, _ => []
  | width + 1, n => hexDigits width (n / 16) ++ [hexDigit (n % 16)]

/-- The letter that escapes a control character. -/
def controlLetter? (n : Nat) : Option Char :=
  match n with
  | 7 => some 'a'
  | 8 => some 'b'
  | 9 => some 't'
  | 10 => some 'n'
  | 11 => some 'v'
  | 12 => some 'f'
  | 13 => some 'r'
  | _ => none

/-- A character as it stands between double quotes. -/
def escapeChar (c : Char) : List Char :=
  let n := c.toNat
  if c == '"' || c == '\\' then ['\\', c]
  else if isPrintable c then [c]
  else
    match controlLetter? n with
    | some l => ['\\', l]
    | none =>
      if n < 32 || n == 127 then '\\' :: 'x' :: hexDigits 2 n
      else if n < 0x10000 then '\\' :: 'u' :: hexDigits 4 n
      else '\\' :: 'U' :: hexDigits 8 n

/-- A piece of a text as it stands between double quotes. -/
def escapePiece : ByteText.Piece → List Char
  | .char c => escapeChar c
  | .byte b => '\\' :: 'x' :: hexDigits 2 b.toNat

/-- Text between double quotes. -/
def quote (s : ByteText) : String :=
  String.ofList ('"' :: (s.pieces.flatMap escapePiece ++ ['"']))

/-! ## Reading -/

/-- The value of a hexadecimal digit in either case. -/
def hexValue? (c : Char) : Option Nat :=
  if c.isDigit then some (c.toNat - 48)
  else if 'a' ≤ c && c ≤ 'f' then some (c.toNat - 87)
  else if 'A' ≤ c && c ≤ 'F' then some (c.toNat - 55)
  else none

/-- Reads exactly `width` hexadecimal digits. -/
def takeHex? : Nat → Nat → List Char → Option (Nat × List Char)
  | 0, n, cs => some (n, cs)
  | width + 1, n, c :: cs =>
    match hexValue? c with
    | some d => takeHex? width (n * 16 + d) cs
    | none => none
  | _ + 1, _, [] => none

/-- Reads exactly `width` octal digits. -/
def takeOctal? : Nat → Nat → List Char → Option (Nat × List Char)
  | 0, n, cs => some (n, cs)
  | width + 1, n, c :: cs =>
    if '0' ≤ c && c ≤ '7' then takeOctal? width (n * 8 + (c.toNat - 48)) cs else none
  | _ + 1, _, [] => none

/-- The character that a letter after a backslash stands for. -/
def letterControl? (c : Char) : Option Nat :=
  match c with
  | 'a' => some 7
  | 'b' => some 8
  | 't' => some 9
  | 'n' => some 10
  | 'v' => some 11
  | 'f' => some 12
  | 'r' => some 13
  | '\\' => some 92
  | '"' => some 34
  | _ => none

/-- The bytes of a code point.  None for a surrogate or a number that is no code
point. -/
def scalarBytes? (n : Nat) : Option (List UInt8) :=
  if h : n.isValidChar then some (String.utf8EncodeChar (Char.ofNatAux n h)) else none

/-- Reads one escape, after its backslash, as bytes. -/
def readEscape? : List Char → Option (List UInt8 × List Char)
  | 'x' :: cs => (takeHex? 2 0 cs).map fun (n, r) => ([UInt8.ofNat n], r)
  | 'u' :: cs => (takeHex? 4 0 cs).bind fun (n, r) => (scalarBytes? n).map fun bs => (bs, r)
  | 'U' :: cs => (takeHex? 8 0 cs).bind fun (n, r) => (scalarBytes? n).map fun bs => (bs, r)
  | c :: cs =>
    match letterControl? c with
    | some n => some ([UInt8.ofNat n], cs)
    | none =>
      match takeOctal? 3 0 (c :: cs) with
      | some (n, r) => if n < 256 then some ([UInt8.ofNat n], r) else none
      | none => none
  | [] => none

/-- Reads text up to a closing double quote that ends it, as bytes.  `fuel`
bounds the number of characters read. -/
def readQuotedBody? : Nat → List Char → Option (List UInt8)
  | 0, _ => none
  | _ + 1, [] => none
  | _ + 1, ['"'] => some []
  | fuel + 1, c :: cs =>
    if c == '\\' then
      match readEscape? cs with
      | some (bs, r) => (readQuotedBody? fuel r).map (bs ++ ·)
      | none => none
    else if c == '"' || c == '\n' then none
    else (readQuotedBody? fuel cs).map (String.utf8EncodeChar c ++ ·)

/-- Reads text up to a closing backquote that ends it. -/
def readRawBody? : List Char → Option (List Char)
  | [] => none
  | [c] => if c == '\x60' then some [] else none
  | c :: cs =>
    if c == '\x60' then none
    else (readRawBody? cs).map fun r => if c == '\r' then r else c :: r

/-- Reads quoted text.  None when the text is not well quoted. -/
def unquote? (s : String) : Option ByteText :=
  match s.toList with
  | '"' :: cs => (readQuotedBody? (cs.length + 1) cs).map ByteText.ofBytes
  | '\x60' :: cs => (readRawBody? cs).map fun r => .valid (String.ofList r)
  | _ => none

example : quote "a\"b\n" = "\"a\\\"b\\n\"" := by decide +kernel
example : unquote? "\"\\x41\\u00e9\"" = some "Aé" := by decide +kernel
example : (unquote? "\"\\377\"").map quote = some "\"\\xff\"" := by decide +kernel
example : unquote? "\"a" = none := by decide +kernel

end StructuralTyping
