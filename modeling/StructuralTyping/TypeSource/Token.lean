import StructuralTyping.Number.Reading
import StructuralTyping.Text.Pieces
import StructuralTyping.Text.Quoted

/-!
# Tokens of type source

The text of a type is cut into names, numbers, quoted strings and single marks.
Blanks between tokens are dropped, and so is a byte order mark at the start.

Cutting never fails.  A token that is not well formed carries a complaint, and
its text is kept as it stands.  A complaint is reported when nothing else is
wrong with the type.
-/

namespace StructuralTyping.TypeSource

/-! ## Complaints -/

/-- How the digits of a number are read.  A number that starts with `0` and has
no base mark is `leadingZero`. -/
inductive Radix where
  | decimal
  | leadingZero
  | octal
  | binary
  | hexadecimal
  deriving DecidableEq, Repr, Inhabited

namespace Radix

/-- What a number with this radix is called. -/
def literalName : Radix → String
  | .decimal => "decimal literal"
  | .leadingZero => "octal literal"
  | .octal => "octal literal"
  | .binary => "binary literal"
  | .hexadecimal => "hexadecimal literal"

/-- The number of digits. -/
def base : Radix → Nat
  | .decimal => 10
  | .leadingZero => 8
  | .octal => 8
  | .binary => 2
  | .hexadecimal => 16

/-- The character is scanned as a digit.  Every decimal digit is, also one that
is too great for the base. -/
def scans (r : Radix) (c : Char) : Bool :=
  c.isDigit || (r == .hexadecimal && (digitValue? 16 c).isSome)

/-- The digit is too great for the base. -/
def exceeds (r : Radix) (c : Char) : Bool := c.isDigit && r.base ≤ c.toNat - '0'.toNat

/-- The radix that a base mark after `0` stands for. -/
def ofMark? (c : Char) : Option Radix :=
  match lowerAscii c with
  | 'x' => some .hexadecimal
  | 'o' => some .octal
  | 'b' => some .binary
  | _ => none

/-- The radix has a base mark of its own and is not hexadecimal. -/
def isSmall : Radix → Bool
  | .octal | .binary => true
  | _ => false

end Radix

/-- What is wrong with the form of a token. -/
inductive Complaint where
  | nul
  | unterminated
  | escape
  | point (radix : Radix)
  | noDigits (radix : Radix)
  | decimalExponent (mark : Char)
  | binaryExponent (mark : Char)
  | emptyExponent
  | exponentNeeded
  | digit (c : Char) (radix : Radix)
  | separator
  deriving DecidableEq, Repr, Inhabited

/-- The wording of a complaint. -/
def Complaint.text : Complaint → String
  | .nul => "invalid character NUL"
  | .unterminated => "literal not terminated"
  | .escape => "invalid char escape"
  | .point r => "invalid radix point in " ++ r.literalName
  | .noDigits r => r.literalName ++ " has no digits"
  | .decimalExponent c => "'" ++ c.toString ++ "' exponent requires decimal mantissa"
  | .binaryExponent c => "'" ++ c.toString ++ "' exponent requires hexadecimal mantissa"
  | .emptyExponent => "exponent has no digits"
  | .exponentNeeded => "hexadecimal mantissa requires a 'p' exponent"
  | .digit c r => "invalid digit '" ++ c.toString ++ "' in " ++ r.literalName
  | .separator => "'_' must separate successive digits"

/-! ## Tokens -/

/-- A token with its text.  A mark is a single character. -/
inductive Token where
  | name (text : String)
  | number (text : String) (complaint? : Option Complaint)
  | quoted (text : String) (complaint? : Option Complaint)
  | mark (c : Char)
  deriving DecidableEq, Repr, Inhabited

namespace Token

/-- The text of a token. -/
def text : Token → String
  | .name s => s
  | .number s _ => s
  | .quoted s _ => s
  | .mark c => c.toString

/-- What is wrong with the form of a token. -/
def complaint? : Token → Option Complaint
  | .name _ => none
  | .number _ c => c
  | .quoted _ c => c
  | .mark c => if c.toNat == 0 then some .nul else none

end Token

/-! ## Numbers -/

/-- A condition as a list of at most one complaint. -/
def complainIf (b : Bool) (c : Complaint) : List Complaint := if b then [c] else []

/-- The exponent of a number: its mark, its sign and its digits. -/
structure Exponent where
  mark : Char
  sign : List Char
  digits : List Char

/-- Cuts an exponent off the front. -/
def takeExponent? : List Char → Option (Exponent × List Char)
  | [] => none
  | c :: cs =>
    if lowerAscii c == 'e' || lowerAscii c == 'p' then
      let (sign, cs) :=
        match cs with
        | '+' :: r => (['+'], r)
        | '-' :: r => (['-'], r)
        | _ => ([], cs)
      let (digits, rest) := cs.span fun d => d.isDigit || d == '_'
      some (⟨c, sign, digits⟩, rest)
    else none

/-- The complaints about an exponent. -/
def Exponent.complaints (r : Radix) (e : Exponent) : List Complaint :=
  complainIf (lowerAscii e.mark == 'e' && (r.isSmall || r == .hexadecimal))
    (.decimalExponent e.mark)
    ++ complainIf (lowerAscii e.mark == 'p' && r != .hexadecimal) (.binaryExponent e.mark)
    ++ complainIf (!e.digits.any Char.isDigit) .emptyExponent

/-- The base mark in front of a number. -/
def takeRadix : List Char → Radix × List Char × List Char
  | '0' :: c :: cs =>
    match Radix.ofMark? c with
    | some r => (r, ['0', c], cs)
    | none => (.leadingZero, ['0'], c :: cs)
  | ['0'] => (.leadingZero, ['0'], [])
  | cs => (.decimal, [], cs)

/-- Cuts a point and the digits after it off the front. -/
def takeFraction (r : Radix) : List Char → List Char × List Char × List Char
  | '.' :: cs => let (digits, rest) := cs.span fun c => r.scans c || c == '_'; (['.'], digits, rest)
  | cs => ([], [], cs)

/-- Cuts a number off the front.  The text starts with a digit, or with a point
and a digit. -/
def takeNumber (cs : List Char) : Token × List Char :=
  let (r, lead, cs) := takeRadix cs
  let (whole, cs) := cs.span fun c => r.scans c || c == '_'
  let (point, fraction, cs) := takeFraction r cs
  let (exponent?, cs) :=
    match takeExponent? cs with
    | some (e, t) => (some e, t)
    | none => (none, cs)
  let exponentText :=
    match exponent? with
    | some e => e.mark :: e.sign ++ e.digits
    | none => []
  let text := lead ++ whole ++ point ++ fraction ++ exponentText
  let isPointed := !point.isEmpty
  let hasDigit := r == .leadingZero || (whole ++ fraction).any (· != '_')
  let exponentComplaints :=
    match exponent? with
    | some e => e.complaints r
    | none => complainIf (r == .hexadecimal && isPointed) .exponentNeeded
  let digitComplaints :=
    if isPointed || exponent?.isSome then []
    else
      match whole.find? r.exceeds with
      | some c => [.digit c r]
      | none => []
  let complaints :=
    complainIf (isPointed && r.isSmall) (.point r)
      ++ complainIf (!hasDigit) (.noDigits r)
      ++ exponentComplaints ++ digitComplaints
      ++ complainIf (text.contains '_' && !separatorsOk text) .separator
  (.number (String.ofList text) complaints.head?, cs)

/-! ## Strings -/

/-- Cuts the rest of a string off the front.  It ends after its quote, after a
line break or at the end of the text, and only the first of these closes it.
`escaped` says that a backslash stood before. -/
def takeString : Bool → List Char → List Char × Bool × List Char
  | _, [] => ([], false, [])
  | escaped, c :: cs =>
    if c == '"' && !escaped then ([c], true, cs)
    else if c == '\n' then ([c], false, cs)
    else
      let (body, closed, rest) := takeString (c == '\\' && !escaped) cs
      (c :: body, closed, rest)

/-- Each backslash starts an escape of a known form. -/
def escapesOk : Bool → List Char → Bool
  | _, [] => true
  | false, c :: cs => escapesOk (c == '\\') cs
  | true, c :: cs =>
    ((letterControl? c).isSome || (takeOctal? 3 0 (c :: cs)).isSome
      || (c == 'x' && (takeHex? 2 0 cs).isSome) || (c == 'u' && (takeHex? 4 0 cs).isSome)
      || (c == 'U' && (takeHex? 8 0 cs).isSome)) && escapesOk false cs

/-- A string token from its opening quote, its body and whether it is closed. -/
def stringToken (opening : Char) (body : List Char) (closed escapes : Bool) : Token :=
  .quoted (String.ofList (opening :: body))
    (complainIf (body.any (·.toNat == 0)) .nul ++ complainIf (!closed) .unterminated
      ++ complainIf (!escapes) .escape).head?

/-- Cuts the rest of a raw string off the front, its closing backquote included. -/
def takeRaw : List Char → List Char × Bool × List Char
  | [] => ([], false, [])
  | c :: cs =>
    if c == '\x60' then ([c], true, cs)
    else
      let (body, closed, rest) := takeRaw cs
      (c :: body, closed, rest)

/-! ## Cutting -/

/-- The character may start a name. -/
def startsName (c : Char) : Bool := c == '_' || c == '$' || c == '#' || c.isAlpha

/-- The character may stand inside a name. -/
def continuesName (c : Char) : Bool := startsName c || c.isDigit

/-- A blank between tokens. -/
def isBlank (c : Char) : Bool := c == ' ' || c == '\t' || c == '\r' || c == '\n'

/-- Cuts one token off the front of a text that starts with `c`. -/
def takeToken (c : Char) (cs : List Char) : Token × List Char :=
  if startsName c then
    let (more, rest) := cs.span continuesName
    (.name (String.ofList (c :: more)), rest)
  else if c.isDigit || (c == '.' && (cs.head?.any Char.isDigit)) then takeNumber (c :: cs)
  else if c == '"' then
    let (body, closed, rest) := takeString false cs
    (stringToken c body closed (escapesOk false body), rest)
  else if c == '\x60' then
    let (body, closed, rest) := takeRaw cs
    (stringToken c body closed true, rest)
  else (.mark c, cs)

/-- The tokens of a text.  Each takes at least one character, so the length of
the text is enough fuel. -/
def tokensWithin : Nat → List Char → List Token
  | 0, _ => []
  | _ + 1, [] => []
  | fuel + 1, c :: cs =>
    if isBlank c then tokensWithin fuel cs
    else
      let (t, rest) := takeToken c cs
      t :: tokensWithin fuel rest

/-- The tokens of a text. -/
def tokens (source : String) : List Token :=
  let cs := dropByteOrderMark source.toList
  tokensWithin cs.length cs

example : tokens "a[] | 1.5" =
    [.name "a", .mark '[', .mark ']', .mark '|', .number "1.5" none] := by
  decide +kernel
example : tokens "08" = [.number "08" (some (.digit '8' .leadingZero))] := by decide +kernel
example : tokens "\"a\\\"\" 'b" = [.quoted "\"a\\\"\"" none, .mark '\'', .name "b"] := by
    decide +kernel

end StructuralTyping.TypeSource
