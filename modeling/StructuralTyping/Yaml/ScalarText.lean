import StructuralTyping.Text.Quoted
import StructuralTyping.Yaml.Cursor

/-!
# The text of scalars

A scalar is written plain, in single quotes, in double quotes, or as a block of
lines, and may go over several lines.  A line break inside it is folded: one
break counts as a space, and each further break is kept.  Blanks around the
breaks are dropped.  A block keeps its breaks unless it is folded too.

Each reader starts at the first character of the content and returns the
content with the cursor behind it, or nothing when the text is not well formed.
-/

namespace StructuralTyping.Yaml

/-! ## Folding -/

/-- The white space read since the last character of content. -/
inductive Between where
  /-- Blanks on the same line. -/
  | blanks (reversed : List Char)
  /-- Line breaks: the first one, unless it was escaped, and the further ones in
  reverse. -/
  | breaks (first? : Option Char) (reversed : List Char)
  deriving DecidableEq, Repr, Inhabited

namespace Between

/-- Nothing was read. -/
def nothing : Between := .blanks []

/-- No white space was read. -/
def isNothing : Between → Bool
  | .blanks [] => true
  | _ => false

/-- A line break was read. -/
def isBroken : Between → Bool
  | .blanks _ => false
  | .breaks _ _ => true

/-- One more blank. -/
def addBlank (c : Char) : Between → Between
  | .blanks bs => .blanks (c :: bs)
  | b => b

/-- One more line break. -/
def addBreak (c : Char) : Between → Between
  | .blanks _ => .breaks (some c) []
  | .breaks first? bs => .breaks first? (c :: bs)

/-- What white space adds to the content, in reverse. -/
def folded : Between → List Char
  | .blanks bs => bs
  | .breaks (some '\n') [] => [' ']
  | .breaks (some '\n') bs => bs
  | .breaks first? bs => bs ++ first?.toList

end Between

/-! ## Plain scalars -/

/-- The character separates or closes things inside brackets. -/
def isFlowMark (c : Char) : Bool :=
  c == ',' || c == '?' || c == '[' || c == ']' || c == '{' || c == '}'

/-- A plain scalar ends before the character `x` at this place, given the white
space in front.  Outside brackets a line that is not indented more than `indent`
ends it. -/
def Cursor.endsPlain (flow : Bool) (indent : Int) (between : Between) (c : Cursor)
    (x : Char) : Bool :=
  (x == '#' && !between.isNothing)
    || (between.isBroken && ((!flow && (c.column : Int) ≤ indent) || c.atAnyMarker))
    || (x == ':' && isGapOrEnd c.second?)
    || (flow && isFlowMark x)

/-- Reads a plain scalar.  `content` is what was read so far, in reverse.  The
cursor is left behind the white space that follows, and the truth value says that
a line break is part of it. -/
def plainFrom (flow : Bool) (indent : Int) :
    Nat → Between → List Char → Cursor → Option (String × Bool × Cursor)
  | 0, _, _, _ => none
  | fuel + 1, between, content, c =>
    match c.rest with
    | [] => some (String.ofList content.reverse, between.isBroken, c)
    | x :: _ =>
      if isGap x then
        if x == '\t' && between.isBroken && (c.column : Int) ≤ indent then none
        else plainFrom flow indent fuel (between.addBlank x) content c.next
      else
        match c.takeBreak? with
        | some (b, after) => plainFrom flow indent fuel (between.addBreak b) content after
        | none =>
          if c.endsPlain flow indent between x then
            some (String.ofList content.reverse, between.isBroken, c)
          else plainFrom flow indent fuel .nothing (x :: (between.folded ++ content)) c.next

/-- Reads a plain scalar. -/
def Cursor.readPlain (flow : Bool) (indent : Int) (c : Cursor) : Option (String × Bool × Cursor) :=
  plainFrom flow indent (c.rest.length + 1) .nothing [] c

/-! ## Quoted scalars -/

/-- Reads a scalar in single quotes, after the opening one.  A quote inside it is
written twice. -/
def singleFrom : Nat → Between → List Char → Cursor → Option (String × Cursor)
  | 0, _, _, _ => none
  | fuel + 1, between, content, c =>
    match c.rest with
    | [] => none
    | x :: _ =>
      if isGap x then singleFrom fuel (between.addBlank x) content c.next
      else
        match c.takeBreak? with
        | some (b, after) => singleFrom fuel (between.addBreak b) content after
        | none =>
          let content := between.folded ++ content
          if between.isBroken && c.atAnyMarker then none
          else if x == '\'' then
            if c.second? == some '\'' then singleFrom fuel .nothing ('\'' :: content) (c.advance 2)
            else some (String.ofList content.reverse, c.next)
          else singleFrom fuel .nothing (x :: content) c.next

/-- The character that a letter after a backslash stands for. -/
def escapeLetter? (c : Char) : Option Char :=
  match c with
  | '0' => some '\x00'
  | 'a' => some '\x07'
  | 'b' => some '\x08'
  | 't' => some '\t'
  | '\t' => some '\t'
  | 'n' => some '\n'
  | 'v' => some '\x0b'
  | 'f' => some '\x0c'
  | 'r' => some '\r'
  | 'e' => some '\x1b'
  | ' ' => some ' '
  | '"' => some '"'
  | '\'' => some '\''
  | '\\' => some '\\'
  | 'N' => some '\x85'
  | '_' => some '\xa0'
  | 'L' => some '\u2028'
  | 'P' => some '\u2029'
  | _ => none

/-- The number of hexadecimal digits after a letter. -/
def escapeWidth? (c : Char) : Option Nat :=
  match c with
  | 'x' => some 2
  | 'u' => some 4
  | 'U' => some 8
  | _ => none

/-- The character with a code, unless there is none. -/
def charOfCode? (n : Nat) : Option Char := if n.isValidChar then some (Char.ofNat n) else none

/-- Reads an escape after its backslash: the character and how many it took. -/
def readScalarEscape? : List Char → Option (Char × Nat)
  | [] => none
  | c :: cs =>
    match escapeLetter? c with
    | some x => some (x, 1)
    | none =>
      (escapeWidth? c).bind fun width =>
        (takeHex? width 0 cs).bind fun (n, _) => (charOfCode? n).map fun x => (x, width + 1)

/-- Reads a scalar in double quotes, after the opening one.  A backslash before a
line break drops the break. -/
def doubleFrom : Nat → Between → List Char → Cursor → Option (String × Cursor)
  | 0, _, _, _ => none
  | fuel + 1, between, content, c =>
    match c.rest with
    | [] => none
    | x :: xs =>
      if isGap x then doubleFrom fuel (between.addBlank x) content c.next
      else
        match c.takeBreak? with
        | some (b, after) => doubleFrom fuel (between.addBreak b) content after
        | none =>
          let content := between.folded ++ content
          if between.isBroken && c.atAnyMarker then none
          else if x == '"' then some (String.ofList content.reverse, c.next)
          else if x == '\\' then
            match c.next.takeBreak? with
            | some (_, after) => doubleFrom fuel (.breaks none []) content after
            | none =>
              match readScalarEscape? xs with
              | some (y, n) => doubleFrom fuel .nothing (y :: content) (c.advance (n + 1))
              | none => none
          else doubleFrom fuel .nothing (x :: content) c.next

/-- Reads a scalar in quotes. -/
def Cursor.readQuoted (c : Cursor) : Option (String × Cursor) :=
  let fuel := c.rest.length + 1
  if c.sees '\'' then singleFrom fuel .nothing [] c.next
  else if c.sees '"' then doubleFrom fuel .nothing [] c.next
  else none

/-! ## Blocks of lines -/

/-- What becomes of the line breaks at the end of a block. -/
inductive Chomping where
  /-- None is kept. -/
  | strip
  /-- The first is kept. -/
  | clip
  /-- All are kept. -/
  | keep
  deriving DecidableEq, Repr, Inhabited

/-- A sign that says what becomes of the last line breaks. -/
def chomping? : Option Char → Option Chomping
  | some '+' => some .keep
  | some '-' => some .strip
  | _ => none

/-- A digit that says how far a block is indented.  It may not be zero. -/
def indentDigit? (c : Cursor) : Option (Nat × Cursor) :=
  match c.front? with
  | some d =>
    if d.isDigit then (if d == '0' then none else some (d.toNat - 48, c.next)) else some (0, c)
  | none => some (0, c)

/-- Reads the first line of a block after its indicator: a sign and a digit in
either order, and perhaps a comment. -/
def blockHeader? (c : Cursor) : Option (Chomping × Nat × Cursor) := do
  let (chomping, width, c) ←
    match chomping? c.front? with
    | some k => (indentDigit? c.next).map fun (n, c) => (k, n, c)
    | none =>
      (indentDigit? c).map fun (n, after) =>
        if n == 0 then (.clip, 0, c)
        else
          match chomping? after.front? with
          | some k => (k, n, after.next)
          | none => (.clip, n, after)
  let c := c.skipGaps
  let c := if c.sees '#' then c.skipLine else c
  if c.front?.all isBreak then some (chomping, width, c.skipBreak) else none

/-- Moves past indentation up to the given column.  Without one there is no limit. -/
def skipIndent (indent : Nat) (c : Cursor) : Cursor :=
  let spaces := (c.rest.takeWhile (· == ' ')).length
  c.advance (if indent == 0 then spaces else min spaces (indent - c.column))

/-- Reads empty lines and the indentation of the next line.  Returns the line
breaks in reverse, after those given, and the widest indentation. -/
def blockBreaks (indent : Nat) : Nat → List Char → Nat → Cursor → Option (List Char × Nat × Cursor)
  | 0, _, _, _ => none
  | fuel + 1, breaks, widest, c =>
    let c := skipIndent indent c
    let widest := max widest c.column
    if (indent == 0 || c.column < indent) && c.sees '\t' then none
    else
      match c.takeBreak? with
      | some (b, after) => blockBreaks indent fuel (b :: breaks) widest after
      | none => some (breaks, widest, c)

/-- The content of a block so far, in reverse. -/
structure BlockText where
  content : List Char := []
  /-- The break after the last line. -/
  leading? : Option Char := none
  /-- The breaks of the empty lines after it, in reverse. -/
  trailing : List Char := []
  /-- The last line starts with a blank. -/
  afterBlank : Bool := false

/-- Adds a line of a block.  A folded block joins lines that do not start with a
blank. -/
def BlockText.addLine (literal : Bool) (t : BlockText) (line : List Char) : BlockText :=
  let blank := line.head?.any isGap
  let joined :=
    if !literal && t.leading? == some '\n' && !t.afterBlank && !blank then
      if t.trailing.isEmpty then ' ' :: t.content else t.content
    else t.leading?.toList ++ t.content
  { content := line.reverse ++ (t.trailing ++ joined), afterBlank := blank }

/-- Reads the lines of a block that are indented to the given column. -/
def blockLines (literal : Bool) (indent : Nat) :
    Nat → BlockText → Cursor → Option (BlockText × Cursor)
  | 0, _, _ => none
  | fuel + 1, t, c =>
    if c.column == indent && !c.rest.isEmpty then do
      let line := c.rest.takeWhile fun x => !isBreak x
      let t := t.addLine literal line
      let ended := c.skipLine
      let (leading?, next) :=
        match ended.takeBreak? with
        | some (b, after) => (some b, after)
        | none => (none, ended)
      let (trailing, _, next) ← blockBreaks indent fuel [] 0 next
      blockLines literal indent fuel { t with leading?, trailing } next
    else some (t, c)

/-- The whole content of a block. -/
def BlockText.text (t : BlockText) (chomping : Chomping) : String :=
  let ending :=
    match chomping with
    | .strip => []
    | .clip => t.leading?.toList
    | .keep => t.trailing ++ t.leading?.toList
  String.ofList (ending ++ t.content).reverse

/-- Reads a block of lines after its indicator.  Without a digit its indentation is
that of its first line, and more than `indent` in any case. -/
def Cursor.readBlock (literal : Bool) (indent : Int) (c : Cursor) : Option (String × Cursor) := do
  let (chomping, width, c) ← blockHeader? c
  let fuel := c.rest.length + 1
  let given := if width == 0 then 0 else if 0 ≤ indent then indent.toNat + width else width
  let (trailing, widest, c) ← blockBreaks given fuel [] 0 c
  let column := if given == 0 then max (max widest (indent + 1).toNat) 1 else given
  let (t, c) ← blockLines literal column fuel { trailing } c
  some (t.text chomping, c)

example : (Cursor.mk "'it''s' x".toList {} 0).readQuoted.map (·.1) = some "it's" := by
    decide +kernel
example : (Cursor.mk "\"a\\\n  b\n c\"".toList {} 0).readQuoted.map (·.1) = some "ab c" := by
  decide +kernel
example : ((Cursor.mk "a b  # c".toList {} 0).readPlain false 0).map (·.1) = some "a b" := by
  decide +kernel
example : ((Cursor.mk "\n  a\n   b\n\n  c\n".toList {} 0).readBlock true 0).map (·.1) =
    some "a\n b\n\nc\n" := by
  decide +kernel
example : ((Cursor.mk "-\n  a\n  b\n\n  c\n".toList {} 0).readBlock false 0).map (·.1) =
    some "a b\nc" := by
  decide +kernel

end StructuralTyping.Yaml
