import StructuralTyping.Yaml.ScalarText
import StructuralTyping.Yaml.Token

/-!
# Tokens as they are read

Tokens are read a few at a time.  A *token queue* holds the tokens that are read
and not yet taken, together with what the place says about the tokens to come:
the column of the innermost block, the number of brackets that are open, and
whether a key may start here.

A key that is not marked as one is known by the colon behind it.  So the queue
remembers where a key may have started, one place for each open bracket, and puts
the mark of the key in front of it when the colon comes.  Such a key stands on
one line and is not longer than 1024 characters.  A place where the block needs a
key must turn out to be one.

Two tokens behind the next one are always read before it is taken.  Text after
that can be malformed without an effect, when the document ends before it.
-/

namespace StructuralTyping.Yaml

/-- A place where a key may have started. -/
structure KeyStart where
  /-- The block needs a key there. -/
  required : Bool
  /-- The number of its first token. -/
  number : Nat
  mark : Mark
  deriving DecidableEq, Repr, Inhabited

/-- Tokens that are read and not yet taken, with the state of the reading. -/
structure TokenQueue where
  cursor : Cursor
  /-- The tokens that are not yet taken. -/
  pending : List Token := []
  /-- The number of tokens that are taken. -/
  taken : Nat := 0
  started : Bool := false
  /-- The column of the innermost block, -1 outside all blocks. -/
  indent : Int := -1
  /-- The columns of the blocks around it, innermost first. -/
  outerIndents : List Int := []
  /-- A key may start at this place. -/
  keyAllowed : Bool := true
  /-- Where a key may have started inside the innermost bracket. -/
  keyStart? : Option KeyStart := none
  /-- The same for the brackets around it, innermost first. -/
  outerKeyStarts : List (Option KeyStart) := []
  deriving Repr, Inhabited

namespace TokenQueue

/-- The longest key in characters. -/
def keyLimit : Nat := 1024

/-- The greatest depth of brackets and of blocks. -/
def depthLimit : Nat := 10000

/-- A bracket is open. -/
def inFlow (q : TokenQueue) : Bool := !q.outerKeyStarts.isEmpty

/-- The line of the place. -/
def line (q : TokenQueue) : Nat := q.cursor.line

/-- Adds a token at the end. -/
def push (q : TokenQueue) (kind : TokenKind) (line : Nat) : TokenQueue :=
  { q with pending := q.pending ++ [⟨kind, line⟩] }

/-- Adds a token in front of the one with the given number. -/
def pushBefore (q : TokenQueue) (number : Nat) (kind : TokenKind) (line : Nat) : TokenQueue :=
  let n := number - q.taken
  { q with pending := q.pending.take n ++ ⟨kind, line⟩ :: q.pending.drop n }

/-- Adds a token of `width` characters at the place and moves past it. -/
def pushHere (q : TokenQueue) (kind : TokenKind) (width : Nat) : TokenQueue :=
  { q.push kind q.line with cursor := q.cursor.advance width }

/-! ## Keys -/

/-- A key that started there cannot be one any more: another line has begun, or it
is too long. -/
def isStale (q : TokenQueue) (k : KeyStart) : Bool :=
  k.mark.line < q.line || k.mark.index + keyLimit < q.cursor.mark.index

/-- Gives up the place where a key may have started.  None when the block needs a
key there. -/
def dropKeyStart? (q : TokenQueue) : Option TokenQueue :=
  match q.keyStart? with
  | some k => if k.required then none else some { q with keyStart? := none }
  | none => some q

/-- Remembers that a key may start here, if one may. -/
def saveKeyStart? (q : TokenQueue) : Option TokenQueue :=
  if q.keyAllowed then
    let k : KeyStart :=
      { required := !q.inFlow && q.indent == (q.cursor.column : Int)
        number := q.taken + q.pending.length
        mark := q.cursor.mark }
    q.dropKeyStart?.map fun q => { q with keyStart? := some k }
  else some q

/-! ## Blocks -/

/-- Opens a block at a column, unless one is open there already.  Its token goes to
the end, or in front of the token with the given number. -/
def openBlock? (q : TokenQueue) (column : Nat) (number? : Option Nat) (kind : TokenKind)
    (line : Nat) : Option TokenQueue :=
  if q.inFlow || (column : Int) ≤ q.indent then some q
  else if depthLimit ≤ q.outerIndents.length then none
  else
    let q := { q with indent := column, outerIndents := q.indent :: q.outerIndents }
    match number? with
    | some n => some (q.pushBefore n kind line)
    | none => some (q.push kind line)

/-- The innermost block after those to the right of a column are closed, the blocks
around it, and the number of blocks that were closed. -/
def closedBlocks (column : Int) : Int → List Int → Int × List Int × Nat
  | indent, [] => (indent, [], 0)
  | indent, outer :: more =>
    if column < indent then
      let (i, os, n) := closedBlocks column outer more
      (i, os, n + 1)
    else (indent, outer :: more, 0)

/-- Closes the blocks to the right of a column. -/
def closeBlocks (q : TokenQueue) (column : Int) (line : Nat) : TokenQueue :=
  if q.inFlow then q
  else
    let (indent, outerIndents, n) := closedBlocks column q.indent q.outerIndents
    { q with
      indent
      outerIndents
      pending := q.pending ++ List.replicate n ⟨.blockEnd, line⟩ }

/-! ## Reading one token -/

/-- Reads a mark that starts or ends a document, or the end of the text, which all
close every block. -/
def fetchBoundary? (q : TokenQueue) (kind : TokenKind) (width : Nat) : Option TokenQueue :=
  (q.closeBlocks (-1) q.line).dropKeyStart?.map fun q =>
    { q with keyAllowed := false }.pushHere kind width

/-- Reads the end of the text.  It counts as the start of a line. -/
def fetchEnd? (q : TokenQueue) : Option TokenQueue :=
  let c := q.cursor
  let c := if c.column == 0 then c else { c with mark := ⟨c.mark.index, c.line + 1, 0⟩ }
  { q with cursor := c }.fetchBoundary? .streamEnd 0

/-- Reads a directive. -/
def fetchDirective? (q : TokenQueue) : Option TokenQueue := do
  let q ← (q.closeBlocks (-1) q.line).dropKeyStart?
  let (kind, after) ← q.cursor.next.readDirective
  some { q.push kind q.line with cursor := after, keyAllowed := false }

/-- Reads an opening bracket. -/
def fetchOpening? (q : TokenQueue) (kind : TokenKind) : Option TokenQueue := do
  let q ← q.saveKeyStart?
  if depthLimit ≤ q.outerKeyStarts.length then none
  else
    some ({ q with
      keyStart? := none
      outerKeyStarts := q.keyStart? :: q.outerKeyStarts
      keyAllowed := true }.pushHere kind 1)

/-- Reads a closing bracket.  Without an open one it is a token all the same. -/
def fetchClosing? (q : TokenQueue) (kind : TokenKind) : Option TokenQueue := do
  let q ← q.dropKeyStart?
  let q :=
    match q.outerKeyStarts with
    | k :: ks => { q with keyStart? := k, outerKeyStarts := ks }
    | [] => q
  some ({ q with keyAllowed := false }.pushHere kind 1)

/-- Reads a comma between brackets. -/
def fetchComma? (q : TokenQueue) : Option TokenQueue :=
  q.dropKeyStart?.map fun q => { q with keyAllowed := true }.pushHere .flowEntry 1

/-- Reads a dash. -/
def fetchDash? (q : TokenQueue) : Option TokenQueue := do
  if !q.inFlow && !q.keyAllowed then none
  else
    let q ← q.openBlock? q.cursor.column none .blockSequenceStart q.line
    let q ← q.dropKeyStart?
    some ({ q with keyAllowed := true }.pushHere .blockEntry 1)

/-- Reads the mark of a key. -/
def fetchKeyMark? (q : TokenQueue) : Option TokenQueue := do
  if !q.inFlow && !q.keyAllowed then none
  else
    let q ← q.openBlock? q.cursor.column none .blockMappingStart q.line
    let q ← q.dropKeyStart?
    some ({ q with keyAllowed := !q.inFlow }.pushHere .key 1)

/-- The place where a key has started, if a colon here makes it one.  None when the
block needs a key and it cannot be one any more. -/
def foundKey? (q : TokenQueue) : Option (Option KeyStart) :=
  match q.keyStart? with
  | some k => if q.isStale k then (if k.required then none else some none) else some (some k)
  | none => some none

/-- Reads a colon. -/
def fetchColon? (q : TokenQueue) : Option TokenQueue := do
  match ← q.foundKey? with
  | some k =>
    let q := q.pushBefore k.number .key k.mark.line
    let q ← q.openBlock? k.mark.column (some k.number) .blockMappingStart k.mark.line
    some ({ q with keyStart? := none, keyAllowed := false }.pushHere .value 1)
  | none =>
    if !q.inFlow && !q.keyAllowed then none
    else
      let q ← { q with keyStart? := none }.openBlock? q.cursor.column none .blockMappingStart q.line
      some ({ q with keyAllowed := !q.inFlow }.pushHere .value 1)

/-- Reads an alias or an anchor. -/
def fetchName? (q : TokenQueue) (kind : String → TokenKind) : Option TokenQueue := do
  let q ← q.saveKeyStart?
  let (name, after) ← q.cursor.next.readAnchorName
  some { q.push (kind name) q.line with cursor := after, keyAllowed := false }

/-- Reads a tag. -/
def fetchTag? (q : TokenQueue) : Option TokenQueue := do
  let q ← q.saveKeyStart?
  let (handle, suffix, after) ← q.cursor.readTag
  some { q.push (.tag handle suffix) q.line with cursor := after, keyAllowed := false }

/-- Reads a block of lines. -/
def fetchBlock? (q : TokenQueue) (literal : Bool) : Option TokenQueue := do
  let q ← q.dropKeyStart?
  let (text, after) ← q.cursor.next.readBlock literal q.indent
  some { q.push (.scalar text false) q.line with cursor := after, keyAllowed := true }

/-- Reads a scalar in quotes. -/
def fetchQuoted? (q : TokenQueue) : Option TokenQueue := do
  let q ← q.saveKeyStart?
  let (text, after) ← q.cursor.readQuoted
  some { q.push (.scalar text false) q.line with cursor := after, keyAllowed := false }

/-- Reads a plain scalar.  A key may start behind it when a new line has begun. -/
def fetchPlain? (q : TokenQueue) : Option TokenQueue := do
  let q ← q.saveKeyStart?
  let (text, broken, after) ← q.cursor.readPlain q.inFlow q.indent
  some { q.push (.scalar text true) q.line with cursor := after, keyAllowed := broken }

/-- No plain scalar starts with the character. -/
def isIndicator (c : Char) : Bool :=
  ['-', '?', ':', ',', '[', ']', '{', '}', '#', '&', '*', '!', '|', '>', '\'', '"', '%', '@',
    '\x60'].contains c

/-- A plain scalar starts with the character `x` at this place. -/
def startsPlain (q : TokenQueue) (x : Char) : Bool :=
  !(isGap x || isBreak x || isIndicator x)
    || (x == '-' && !q.cursor.second?.any isGap)
    || (!q.inFlow && (x == '?' || x == ':') && !isGapOrEnd q.cursor.second?)

/-- Reads a token that starts with the character `x` and is no dash. -/
def fetchContent? (q : TokenQueue) (x : Char) : Option TokenQueue :=
  let alone := isGapOrEnd q.cursor.second?
  if x == '[' then q.fetchOpening? .flowSequenceStart
  else if x == '{' then q.fetchOpening? .flowMappingStart
  else if x == ']' then q.fetchClosing? .flowSequenceEnd
  else if x == '}' then q.fetchClosing? .flowMappingEnd
  else if x == ',' then q.fetchComma?
  else if x == '?' && (q.inFlow || alone) then q.fetchKeyMark?
  else if x == ':' && (q.inFlow || alone) then q.fetchColon?
  else if x == '*' then q.fetchName? .alias
  else if x == '&' then q.fetchName? .anchor
  else if x == '!' then q.fetchTag?
  else if (x == '|' || x == '>') && !q.inFlow then q.fetchBlock? (x == '|')
  else if x == '\'' || x == '"' then q.fetchQuoted?
  else if q.startsPlain x then q.fetchPlain?
  else none

/-- Reads a token.  None when the text is malformed there. -/
def fetch? (q : TokenQueue) : Option TokenQueue :=
  if !q.started then some ({ q with started := true }.push .streamStart q.line)
  else
    let before := q.line
    let (c, keyAllowed) := q.cursor.toToken q.inFlow (q.cursor.rest.length + 1) q.keyAllowed
    let q := { q with cursor := c, keyAllowed }.closeBlocks c.column before
    match c.front? with
    | none => q.fetchEnd?
    | some x =>
      if c.column == 0 && x == '%' then q.fetchDirective?
      else if c.atMarker '-' then q.fetchBoundary? .documentStart 3
      else if c.atMarker '.' then q.fetchBoundary? .documentEnd 3
      else if x == '-' && isGapOrEnd c.second? then q.fetchDash?
      else (q.fetchContent? x).map fun q => { q with cursor := q.cursor.skipLineComment }

/-! ## Looking at the next token -/

/-- The next token may still turn out to be the start of a key. -/
def nextIsKeyStart (q : TokenQueue) (k? : Option KeyStart) : Bool :=
  k?.any fun k => k.number == q.taken && !q.isStale k

/-- The next token starts what had to be a key and cannot be one any more. -/
def missesKey (q : TokenQueue) (k? : Option KeyStart) : Bool :=
  k?.any fun k => k.number == q.taken && k.required && q.isStale k

/-- Reads tokens until the next one is settled. -/
def settle? : Nat → TokenQueue → Option TokenQueue
  | 0, _ => none
  | fuel + 1, q =>
    let starts := q.keyStart? :: q.outerKeyStarts
    if q.pending.length < 3 then q.fetch?.bind (settle? fuel)
    else if starts.any q.missesKey then none
    else if starts.any q.nextIsKeyStart then q.fetch?.bind (settle? fuel)
    else some q

/-- Takes the next token. -/
def take (q : TokenQueue) : TokenQueue :=
  { q with pending := q.pending.drop 1, taken := q.taken + 1 }

/-- The queue at the start of a text. -/
def ofText (cs : List Char) : TokenQueue := { cursor := ⟨cs, {}, 0⟩ }

end TokenQueue

end StructuralTyping.Yaml
