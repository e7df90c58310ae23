import StructuralTyping.Regex.Error
import StructuralTyping.Regex.Property
import StructuralTyping.Text.Word

/-!
# Reading a pattern

A *place* in a pattern is what is left of it, with the options in force and the
options that the ends of the open groups bring back.  A *reading* moves the
place.  A reading that fails still says how far it got, since the survey of the
groups goes on after a failure.

Here are the readings that every part of a pattern shares: numbers, names,
blanks and comments, option letters, and the escapes that stand for one
character.  Code points are numbers, since an escape may name a surrogate.
-/

namespace StructuralTyping.Regex

/-- The options that change how a pattern is read. -/
structure Options where
  /-- Blanks and comments after a hash sign are skipped. -/
  ignoreBlanks : Bool := false
  /-- Only groups with a name or a number are counted. -/
  namedOnly : Bool := false
  /-- A code point may be written in braces. -/
  codePoints : Bool := false
  deriving DecidableEq, Repr

/-- What is left of a pattern, and the options. -/
structure Place where
  /-- The characters that are still to read. -/
  rest : List Char
  /-- The options in force. -/
  options : Options := {}
  /-- The options outside each open group, innermost first. -/
  outer : List Options := []
  deriving DecidableEq, Repr

/-- A computation that moves the place and may fail where it stands. -/
abbrev Reading := ExceptT RegexError (StateM Place)

namespace Reading

/-- The characters that are still to read. -/
def rest : Reading (List Char) := return (← get).rest

/-- Goes on with the given characters. -/
def goOn (cs : List Char) : Reading Unit := modify fun p => { p with rest := cs }

/-- Takes the next character. -/
def next? : Reading (Option Char) := do
  match ← rest with
  | [] => return none
  | c :: cs => goOn cs; return some c

/-- Runs a reading and forgets that it failed. -/
def attempt {α : Type} (r : Reading α) : Reading Unit :=
  tryCatch (do let _ ← r; pure ()) fun _ => pure ()

/-- Enters a group: its end brings the present options back. -/
def pushOptions : Reading Unit := modify fun p => { p with outer := p.options :: p.outer }

/-- Leaves a group. -/
def popOptions : Reading Unit :=
  modify fun p =>
    match p.outer with
    | [] => p
    | o :: os => { p with options := o, outer := os }

/-- Leaves a group that was only there to switch options. -/
def keepOptions : Reading Unit := modify fun p => { p with outer := p.outer.drop 1 }

end Reading

open Reading

/-! ## Numbers and names -/

/-- The value of leading decimal digits and what follows them.  None stands for a
value of 2^31 or more. -/
def decimalOf (n : Nat) : List Char → Option Nat × List Char
  | [] => (some n, [])
  | c :: cs =>
    if c.isDigit then
      let n := n * 10 + (c.toNat - 48)
      if n < 2147483648 then decimalOf n cs else (none, cs)
    else (some n, c :: cs)

/-- Reads a decimal number. -/
def readDecimal : Reading Nat := do
  let (n, cs) := decimalOf 0 (← rest)
  goOn cs
  match n with
  | some n => return n
  | none => throw .numberOutOfRange

/-- Reads word characters as a name. -/
def readName : Reading String := do
  let cs ← rest
  goOn (cs.dropWhile isWordChar)
  return String.ofList (cs.takeWhile isWordChar)

/-! ## Blanks and comments -/

/-- Characters that are skipped when blanks are. -/
def isBlank (c : Char) : Bool := c == ' ' || (9 ≤ c.toNat && c.toNat ≤ 13)

/-- What follows blanks and comments.  A comment stands between `(?#` and the next
closing bracket, or, when blanks are skipped, between a hash sign and the end of
the line.  False says that a bracketed comment has no end. -/
def afterBlanks (ignoreBlanks : Bool) : Nat → List Char → Bool × List Char
  | 0, cs => (true, cs)
  | fuel + 1, cs =>
    match if ignoreBlanks then cs.dropWhile isBlank else cs with
    | '(' :: '?' :: '#' :: more =>
      match more.dropWhile (· != ')') with
      | [] => (false, [])
      | _ :: after => afterBlanks ignoreBlanks fuel after
    | '#' :: more =>
      if ignoreBlanks then afterBlanks ignoreBlanks fuel (more.dropWhile (· != '\n'))
      else (true, '#' :: more)
    | other => (true, other)

/-- Skips blanks and comments. -/
def skipBlanks : Reading Unit := do
  let p ← get
  let (closed, cs) := afterBlanks p.options.ignoreBlanks (p.rest.length + 1) p.rest
  goOn cs
  if !closed then throw .unterminatedComment

/-! ## Options -/

/-- The effect of an option letter, in either case.  Letters that do not change
how a pattern is read have no effect, and none stands for a letter that is no
option. -/
def switchOption? (on : Bool) (c : Char) (o : Options) : Option Options :=
  match c with
  | 'i' | 'I' | 'm' | 'M' | 's' | 'S' | 'd' | 'D' => some o
  | 'x' | 'X' => some { o with ignoreBlanks := on }
  | 'n' | 'N' => some { o with namedOnly := on }
  | 'u' | 'U' => some { o with codePoints := on }
  | _ => none

/-- The options after leading option letters, and what follows.  A minus sign
switches off the options after it, a plus sign switches them on. -/
def optionsAfter (on : Bool) (o : Options) : List Char → Options × List Char
  | [] => (o, [])
  | c :: cs =>
    if c == '-' then optionsAfter false o cs
    else if c == '+' then optionsAfter true o cs
    else
      match switchOption? on c o with
      | some o => optionsAfter on o cs
      | none => (o, c :: cs)

/-- Reads option letters. -/
def readOptions : Reading Unit :=
  modify fun p =>
    let (o, cs) := optionsAfter true p.options p.rest
    { p with options := o, rest := cs }

/-! ## Escapes for one character -/

/-- The value of a hexadecimal digit. -/
def hexDigit? (c : Char) : Option Nat :=
  if c.isDigit then some (c.toNat - 48)
  else if 'a' ≤ c && c ≤ 'f' then some (c.toNat - 87)
  else if 'A' ≤ c && c ≤ 'F' then some (c.toNat - 55)
  else none

/-- The value of exactly `width` hexadecimal digits, and what follows them. -/
def hexOf? : Nat → Nat → List Char → Option (Nat × List Char)
  | 0, n, cs => some (n, cs)
  | _ + 1, _, [] => none
  | width + 1, n, c :: cs => (hexDigit? c).bind fun d => hexOf? width (n * 16 + d) cs

/-- Hexadecimal digits up to a closing brace.  `any` says that there was one. -/
def bracedHexOf (any : Bool) (n : Nat) : List Char → Except RegexError Nat × List Char
  | [] => (.error .missingBrace, [])
  | c :: cs =>
    if c == '\x7d' then (if any then .ok n else .error .fewHexDigits, cs)
    else
      match hexDigit? c with
      | none => (.error .missingBrace, cs)
      | some d =>
        let n := n * 16 + d
        if 0x10ffff < n then (.error .hexTooLarge, cs) else bracedHexOf true n cs

/-- Up to `left` octal digits.  A value that is large enough ends them. -/
def octalOf : Nat → Nat → List Char → Nat × List Char
  | left + 1, n, c :: cs =>
    if '0' ≤ c && c ≤ '7' && n < 0x20 then octalOf left (n * 8 + (c.toNat - 48)) cs
    else (n % 256, c :: cs)
  | _, n, cs => (n % 256, cs)

/-- The control character of a letter or of one of the signs beside the capital
letters. -/
def controlOf? (c : Char) : Option Nat :=
  let n := if 'a' ≤ c && c ≤ 'z' then c.toNat - 32 else c.toNat
  if 64 ≤ n && n < 96 then some (n - 64) else none

/-- The code point that an escape stands for, given the character after the
backslash.  An escape without a meaning, or with one that is cut short, stands
for that character itself. -/
def readCharEscape (c : Char) : Reading Nat := do
  let cs ← rest
  let plain (found : Option (Nat × List Char)) : Reading Nat :=
    match found with
    | some (n, after) => do goOn after; return n
    | none => return c.toNat
  match c with
  | 'a' => return 7
  | 'b' => return 8
  | 't' => return 9
  | 'n' => return 10
  | 'v' => return 11
  | 'f' => return 12
  | 'r' => return 13
  | 'e' => return 27
  | 'c' =>
    match cs with
    | l :: after => plain ((controlOf? l).map fun n => (n, after))
    | [] => plain none
  | 'x' => if cs.head? == some '\x7b' then plain none else plain (hexOf? 2 0 cs)
  | 'u' =>
    match cs with
    | '\x7b' :: digits =>
      if (← get).options.codePoints then
        let (n, after) := bracedHexOf false 0 digits
        goOn after
        match n with
        | .ok n => return n
        | .error e => throw e
      else plain none
    | _ => plain (hexOf? 4 0 cs)
  | _ => if '0' ≤ c && c ≤ '7' then plain (some (octalOf 3 0 (c :: cs))) else plain none

/-- Reads the name of a property, after `\p`: one letter, or a name in braces. -/
def readProperty : Reading Unit := do
  match ← rest with
  | [] => throw .incompleteProperty
  | '\x7b' :: cs =>
    if cs.length < 2 then throw .incompleteProperty
    let isName (c : Char) : Bool := isWordChar c || c == '-'
    let name := String.ofList (cs.takeWhile isName)
    goOn (cs.dropWhile isName)
    if (← next?) != some '\x7d' then throw .incompleteProperty
    if !isPropertyName name then throw (.unknownProperty name)
  | c :: cs =>
    goOn cs
    let name := String.singleton c
    if !isPropertyName name then throw (.unknownProperty name)

end StructuralTyping.Regex
