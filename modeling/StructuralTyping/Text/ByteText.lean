/-!
# Texts of any bytes

The escapes of a string literal name single bytes, so the string may hold bytes that
are no text.  A text of bytes is valid text where it can be, which makes equal bytes equal
texts.  It is looked at piece by piece: a piece is a character, or a single stray byte
at which no character starts.
-/

namespace StructuralTyping

/-- Bytes that are no text. -/
structure StrayBytes where
  bytes : List UInt8
  isStray : String.fromUTF8? ⟨bytes.toArray⟩ = none
  deriving DecidableEq, Repr

/-- A text of any bytes. -/
inductive ByteText where
  | valid (text : String)
  | stray (value : StrayBytes)
  deriving DecidableEq, Repr

namespace ByteText

instance : Inhabited ByteText := ⟨.valid ""⟩

instance : Coe String ByteText := ⟨.valid⟩

/-- The text with given bytes. -/
def ofBytes (bs : List UInt8) : ByteText :=
  match h : String.fromUTF8? ⟨bs.toArray⟩ with
  | some s => .valid s
  | none => .stray ⟨bs, h⟩

/-- The bytes of a text. -/
def bytes : ByteText → List UInt8
  | .valid s => s.toList.flatMap String.utf8EncodeChar
  | .stray b => b.bytes

/-- A text without any bytes. -/
def isEmpty : ByteText → Bool
  | .valid s => s.isEmpty
  | .stray _ => false

/-! ## Pieces -/

/-- A character, or a byte that belongs to none. -/
inductive Piece where
  | char (c : Char)
  | byte (b : UInt8)
  deriving DecidableEq, Repr

/-- The bytes of a piece. -/
def Piece.bytes : Piece → List UInt8
  | .char c => String.utf8EncodeChar c
  | .byte b => [b]

/-- The character that some bytes start with. -/
def front? (bs : List UInt8) : Option Char := ByteArray.utf8DecodeChar? ⟨bs.toArray⟩ 0

/-- The pieces of at most so many bytes. -/
def piecesWithin : Nat → List UInt8 → List Piece
  | 0, _ => []
  | _ + 1, [] => []
  | fuel + 1, b :: bs =>
    match front? (b :: bs) with
    | some c => .char c :: piecesWithin fuel ((b :: bs).drop c.utf8Size)
    | none => .byte b :: piecesWithin fuel bs

/-- The pieces of a text. -/
def pieces : ByteText → List Piece
  | .valid s => s.toList.map .char
  | .stray b => piecesWithin b.bytes.length b.bytes

/-! ## Names -/

/-- A piece as it is shown.  A stray byte has the replacement character. -/
def Piece.shown : Piece → Char
  | .char c => c
  | .byte _ => '\ufffd'

/-- A text as it is shown where valid text is needed. -/
def shown : ByteText → String
  | .valid s => s
  | .stray b => String.ofList ((pieces (.stray b)).map Piece.shown)

@[simp] theorem shown_valid (s : String) : (valid s).shown = s := rfl

example : (ofBytes [65, 255, 195, 169]).pieces = [.char 'A', .byte 255, .char 'é'] := by
  decide +kernel
example : ofBytes [195, 169] = .valid "é" := by decide +kernel

end ByteText

end StructuralTyping
