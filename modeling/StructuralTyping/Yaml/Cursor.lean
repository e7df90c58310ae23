/-!
# Places in a text

A cursor is the rest of a text with the place where it starts.  Lines and
columns are counted from zero, and characters from the start of the text.  A
cursor also knows how many line breaks it has passed since the last character
that is no blank.

Between two tokens stand blanks, comments and line breaks.  A tab may not stand
there where a key of a block could start.  Comments that follow each other are
passed in one go, together with the blank lines and the indentation between
them, tabs included.
-/

namespace StructuralTyping.Yaml

/-! ## Characters -/

/-- A space or a tab. -/
def isGap (c : Char) : Bool := c == ' ' || c == '\t'

/-- A line break. -/
def isBreak (c : Char) : Bool :=
  c == '\n' || c == '\r' || c == '\x85' || c == '\u2028' || c == '\u2029'

/-- A blank, a line break or the end of the text. -/
def isGapOrEnd : Option Char → Bool
  | none => true
  | some c => isGap c || isBreak c

/-- The character may stand in a document. -/
def isReadable (c : Char) : Bool :=
  let n := c.toNat
  n == 9 || n == 10 || n == 13 || (32 ≤ n && n ≤ 126) || n == 0x85 || (0xa0 ≤ n && n ≤ 0xfffd)
    || 0x10000 ≤ n

/-! ## Cursors -/

/-- A place in a text. -/
structure Mark where
  /-- The number of characters before it. -/
  index : Nat := 0
  line : Nat := 0
  column : Nat := 0
  deriving DecidableEq, Repr, Inhabited

/-- The rest of a text with its place. -/
structure Cursor where
  rest : List Char
  mark : Mark := {}
  /-- The line breaks passed since the last character that is no blank. -/
  breaks : Nat := 0
  deriving DecidableEq, Repr, Inhabited

namespace Cursor

/-- The next character. -/
def front? (c : Cursor) : Option Char := c.rest.head?

/-- The character after the next. -/
def second? (c : Cursor) : Option Char := c.rest.tail.head?

/-- The next character is the given one. -/
def sees (c : Cursor) (x : Char) : Bool := c.front? == some x

/-- The column of the place. -/
def column (c : Cursor) : Nat := c.mark.column

/-- The line of the place. -/
def line (c : Cursor) : Nat := c.mark.line

/-- Moves past the next character, which is no line break. -/
def next (c : Cursor) : Cursor :=
  match c.rest with
  | [] => c
  | x :: xs =>
    { rest := xs
      mark := { c.mark with index := c.mark.index + 1, column := c.mark.column + 1 }
      breaks := if isGap x then c.breaks else 0 }

/-- Moves past some characters. -/
def advance (c : Cursor) : Nat → Cursor
  | 0 => c
  | n + 1 => c.next.advance n

/-- Moves past the characters that satisfy a test. -/
def skipWhile (p : Char → Bool) (c : Cursor) : Cursor := c.advance (c.rest.takeWhile p).length

/-- Moves past blanks on the same line. -/
def skipGaps (c : Cursor) : Cursor := c.skipWhile isGap

/-- Moves to the end of the line. -/
def skipLine (c : Cursor) : Cursor := c.skipWhile fun x => !isBreak x

/-- The start of the next line, after a break of the given width. -/
def newLine (c : Cursor) (width : Nat) (rest : List Char) : Cursor :=
  { rest, mark := ⟨c.mark.index + width, c.mark.line + 1, 0⟩, breaks := c.breaks + 1 }

/-- A line break with the cursor behind it.  Most breaks count as a line feed, and
a return with a line feed as one break. -/
def takeBreak? (c : Cursor) : Option (Char × Cursor) :=
  match c.rest with
  | [] => none
  | '\r' :: '\n' :: xs => some ('\n', c.newLine 2 xs)
  | x :: xs =>
    if x == '\u2028' || x == '\u2029' then some (x, c.newLine 1 xs)
    else if isBreak x then some ('\n', c.newLine 1 xs)
    else none

/-- Moves past a line break, if there is one. -/
def skipBreak (c : Cursor) : Cursor :=
  match c.takeBreak? with
  | some (_, after) => after
  | none => c

/-- Three equal marks that stand alone at the start of a line. -/
def atMarker (x : Char) (c : Cursor) : Bool :=
  c.column == 0 && c.rest.take 3 == [x, x, x] && isGapOrEnd (c.rest.drop 3).head?

/-- A mark that ends a document or starts another one. -/
def atAnyMarker (c : Cursor) : Bool := c.atMarker '-' || c.atMarker '.'

/-! ## Between tokens -/

/-- Moves past blanks and line breaks. -/
def skipSpace : Nat → Cursor → Cursor
  | 0, c => c
  | fuel + 1, c =>
    let c := c.skipGaps
    match c.takeBreak? with
    | some (_, after) => skipSpace fuel after
    | none => c

/-- Moves to the end of a comment and of the comments that follow it. -/
def skipComments : Nat → Cursor → Cursor
  | 0, c => c
  | fuel + 1, c =>
    let ended := c.skipLine
    let ahead := skipSpace (ended.rest.length + 1) ended
    if ahead.sees '#' then skipComments fuel ahead else ended

/-- Moves past a comment that follows on the same line, if nothing but blanks has
been passed on it. -/
def skipLineComment (c : Cursor) : Cursor :=
  let ahead := c.skipGaps
  if c.breaks == 0 && ahead.sees '#' then ahead.skipLine else c

/-- Moves to the next token, and says whether a key may start there.  Outside
brackets a key may start on every new line. -/
def toToken (flow : Bool) : Nat → Bool → Cursor → Cursor × Bool
  | 0, keyAllowed, c => (c, keyAllowed)
  | fuel + 1, keyAllowed, c =>
    let c := c.skipWhile fun x => x == ' ' || ((flow || !keyAllowed) && x == '\t')
    let c := if c.sees '#' then skipComments (c.rest.length + 1) c else c
    match c.takeBreak? with
    | some (_, after) => toToken flow fuel (keyAllowed || !flow) after
    | none => (c, keyAllowed)

end Cursor

example : (Cursor.mk "\r\nb".toList {} 0).takeBreak? = some ('\n', ⟨['b'], ⟨2, 1, 0⟩, 1⟩) := by
  decide +kernel
example : ((Cursor.mk " # x\n\t# y\n  z".toList {} 0).toToken false 9 true).1.mark =
    ⟨12, 2, 2⟩ := by
  decide +kernel
example : ((Cursor.mk "\n\t# y".toList {} 0).toToken false 9 true).1.rest = "\t# y".toList := by
  decide +kernel

end StructuralTyping.Yaml
