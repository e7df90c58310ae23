import StructuralTyping.Text.Quoted
import StructuralTyping.Yaml.Cursor

/-!
# Tokens

The tokens of a document.  Most of them are marks, such as a dash or a bracket.
Some are not written at all: the start and the end of a block that follow from
its indentation, and the mark before a key, which is only known to be one at its
colon.

Besides the type of tokens this module reads the small ones that have a name in
them: anchors, aliases, tags and directives.
-/

namespace StructuralTyping.Yaml

/-- Kinds of tokens. -/
inductive TokenKind where
  | streamStart
  | streamEnd
  | versionDirective (major minor : Nat)
  | tagDirective (handle text : String)
  | documentStart
  | documentEnd
  | blockSequenceStart
  | blockMappingStart
  | blockEnd
  | flowSequenceStart
  | flowSequenceEnd
  | flowMappingStart
  | flowMappingEnd
  | blockEntry
  | flowEntry
  | key
  | value
  | alias (name : String)
  | anchor (name : String)
  | tag (handle suffix : String)
  | scalar (text : String) (plain : Bool)
  deriving DecidableEq, Repr, Inhabited

/-- A token with the line where it starts, counted from zero. -/
structure Token where
  kind : TokenKind
  line : Nat
  deriving DecidableEq, Repr, Inhabited

namespace TokenKind

/-- The document ends before the token. -/
def endsDocument : TokenKind → Bool
  | .versionDirective _ _ | .tagDirective _ _ | .documentStart | .documentEnd | .streamEnd => true
  | _ => false

/-- A key or a value of a block mapping is left out before the token. -/
def endsBlockPart : TokenKind → Bool
  | .key | .value | .blockEnd => true
  | _ => false

end TokenKind

/-! ## Anchors -/

/-- The character may stand in the name of an anchor. -/
def isNameChar (c : Char) : Bool := c.isAlphanum || c == '_' || c == '-'

/-- Reads the name of an anchor. -/
def Cursor.readAnchorName (c : Cursor) : Option (String × Cursor) :=
  let name := c.rest.takeWhile isNameChar
  let after := c.advance name.length
  let isEnd := isGapOrEnd after.front? ||
    after.front?.any (['?', ':', ',', ']', '}', '%', '@', '\x60'].contains ·)
  if name.isEmpty || !isEnd then none else some (String.ofList name, after)

/-! ## Tags -/

/-- The character may stand in the address of a tag. -/
def isTagChar (c : Char) : Bool :=
  isNameChar c ||
    [';', '/', '?', ':', '@', '&', '=', '+', '$', ',', '.', '%', '!', '~', '*', '\'', '(', ')', '[',
      ']'].contains c

/-- The number of bytes in the encoding of a character, by the first of them. -/
def byteCount? (n : Nat) : Option Nat :=
  if n < 0x80 then some 1
  else if 0xc0 ≤ n && n < 0xe0 then some 2
  else if 0xe0 ≤ n && n < 0xf0 then some 3
  else if 0xf0 ≤ n && n < 0xf8 then some 4
  else none

/-- The value of a byte written as a percent sign and two hexadecimal digits. -/
def escapedByte? (cs : List Char) : Option Nat :=
  match cs with
  | '%' :: more => (takeHex? 2 0 more).map (·.1)
  | _ => none

/-- Reads further bytes of an escaped character. -/
def escapedBytes : Nat → List UInt8 → Cursor → Option (List UInt8 × Cursor)
  | 0, bytes, c => some (bytes, c)
  | left + 1, bytes, c => do
    let n ← escapedByte? c.rest
    if 0x80 ≤ n && n < 0xc0 then escapedBytes left (bytes ++ [UInt8.ofNat n]) (c.advance 3)
    else none

/-- Reads an escaped character.  Bytes that encode none stand for the replacement
character. -/
def readEscapedChar (c : Cursor) : Option (List Char × Cursor) := do
  let n ← escapedByte? c.rest
  let count ← byteCount? n
  let (bytes, after) ← escapedBytes (count - 1) [UInt8.ofNat n] (c.advance 3)
  let text := (String.fromUTF8? ⟨bytes.toArray⟩).getD "\ufffd"
  some (text.toList, after)

/-- Reads the address of a tag, in reverse. -/
def tagTextFrom : Nat → List Char → Cursor → Option (List Char × Cursor)
  | 0, text, c => some (text, c)
  | fuel + 1, text, c =>
    match c.front? with
    | some x =>
      if x == '%' then do
        let (ys, after) ← readEscapedChar c
        tagTextFrom fuel (ys.reverse ++ text) after
      else if isTagChar x then tagTextFrom fuel (x :: text) c.next
      else some (text, c)
    | none => some (text, c)

/-- Reads the address of a tag after what is already known of it.  It may not be
empty, unless there was something before. -/
def readTagText (head : List Char) (c : Cursor) : Option (String × Cursor) := do
  let (text, after) ← tagTextFrom (c.rest.length + 1) (head.drop 1).reverse c
  if head.isEmpty && after.mark == c.mark then none else some (String.ofList text.reverse, after)

/-- Reads an exclamation mark, name characters and perhaps another exclamation
mark. -/
def readTagHandle (c : Cursor) : Option (List Char × Cursor) :=
  if c.sees '!' then
    let name := c.next.rest.takeWhile isNameChar
    let after := c.advance (name.length + 1)
    if after.sees '!' then some ('!' :: name ++ ['!'], after.next) else some ('!' :: name, after)
  else none

/-- Reads a tag as a handle and what follows it.  A tag in angle brackets has no
handle. -/
def Cursor.readTag (c : Cursor) : Option (String × String × Cursor) := do
  let (handle, suffix, after) ←
    if c.second? == some '<' then do
      let (suffix, after) ← readTagText [] (c.advance 2)
      if after.sees '>' then some ("", suffix, after.next) else none
    else do
      let (handle, after) ← readTagHandle c
      if 1 < handle.length && handle.getLast? == some '!' then
        let (suffix, after) ← readTagText [] after
        some (String.ofList handle, suffix, after)
      else
        let (suffix, after) ← readTagText handle after
        if suffix.isEmpty then some ("", "!", after) else some ("!", suffix, after)
  if isGapOrEnd after.front? then some (handle, suffix, after) else none

/-! ## Directives -/

/-- Reads a number of one or two digits. -/
def readVersionPart (c : Cursor) : Option (Nat × Cursor) :=
  let digits := c.rest.takeWhile Char.isDigit
  if digits.isEmpty || 2 < digits.length then none
  else some (digits.foldl (fun n d => n * 10 + (d.toNat - 48)) 0, c.advance digits.length)

/-- Reads the version after its directive. -/
def readVersion (c : Cursor) : Option (TokenKind × Cursor) := do
  let (major, after) ← readVersionPart c.skipGaps
  if after.sees '.' then
    let (minor, after) ← readVersionPart after.next
    some (.versionDirective major minor, after)
  else none

/-- Reads the handle and the address after a tag directive. -/
def readTagPair (c : Cursor) : Option (TokenKind × Cursor) := do
  let (handle, after) ← readTagHandle c.skipGaps
  let isHandle := handle == ['!'] || (1 < handle.length && handle.getLast? == some '!')
  if isHandle && after.front?.any isGap then
    let (text, after) ← readTagText [] after.skipGaps
    if isGapOrEnd after.front? then some (.tagDirective (String.ofList handle) text, after)
    else none
  else none

/-- Reads a directive after its percent sign, with the end of its line. -/
def Cursor.readDirective (c : Cursor) : Option (TokenKind × Cursor) := do
  let name := c.rest.takeWhile isNameChar
  let after := c.advance name.length
  if !isGapOrEnd after.front? then none
  else
    let (kind, after) ←
      if name == ['Y', 'A', 'M', 'L'] then readVersion after
      else if name == ['T', 'A', 'G'] then readTagPair after
      else none
    let after := after.skipGaps
    let after := if after.sees '#' then after.skipLine else after
    if after.front?.all isBreak then some (kind, after.skipBreak) else none

example : (Cursor.mk "a:".toList {} 0).readAnchorName.map (·.1) = some "a" := by decide +kernel
example : (Cursor.mk "!!str x".toList {} 0).readTag.map (fun r => (r.1, r.2.1)) =
    some ("!!", "str") := by
  decide +kernel

end StructuralTyping.Yaml
