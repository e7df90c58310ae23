import StructuralTyping.Number.Reading
import StructuralTyping.Text.Base64
import StructuralTyping.Text.Pieces

/-!
# Scalars

The text of a scalar is read under a tag.  Without a tag the text itself tells
what it is: a word such as `true` or `~`, a number, a date, or plain text.  The
tag of one of these that disagrees with the text is refused, and only the tag of
floating point numbers lets integers through.  Any other tag leaves the text as
it stands, and the tag of binary data decodes it.

A value that is wanted with a given type is converted from what was read.  A
null leaves the wanted value unset.
-/

namespace StructuralTyping.Yaml

/-! ## Tags -/

/-- The tag of a node. -/
inductive Tag where
  | null
  | bool
  | int
  | float
  | timestamp
  | merge
  | text
  | sequence
  | mapping
  /-- Data written in base 64. -/
  | binary
  | custom (name : String)
  deriving DecidableEq, Repr, Inhabited

namespace Tag

/-- The short form of a tag. -/
def shortText : Tag → String
  | .null => "!!null"
  | .bool => "!!bool"
  | .int => "!!int"
  | .float => "!!float"
  | .timestamp => "!!timestamp"
  | .merge => "!!merge"
  | .text => "!!str"
  | .sequence => "!!seq"
  | .mapping => "!!map"
  | .binary => "!!binary"
  | .custom n => n

/-- The tags with a meaning. -/
def known : List Tag :=
  [.null, .bool, .int, .float, .timestamp, .merge, .text, .sequence, .mapping, .binary]

/-- Reads the short form of a tag.  An empty tag and a lone `!` are none. -/
def ofText? (s : String) : Option Tag :=
  if s == "" || s == "!" then none else some ((known.find? (·.shortText == s)).getD (.custom s))

end Tag

/-! ## Integers -/

/-- The value of a digit in a base of at most sixteen. -/
def digitIn? (base : Nat) (c : Char) : Option Nat := (digitValue? 16 c).filter (· < base)

/-- The value with one more digit. -/
def readDigit? (base : Nat) (value? : Option Nat) (c : Char) : Option Nat :=
  value?.bind fun n => (digitIn? base c).map (n * base + ·)

/-- The value of one or more digits. -/
def readDigits? (base : Nat) (cs : List Char) : Option Nat :=
  if cs.isEmpty then none else cs.foldl (readDigit? base) (some 0)

/-- The value of digits with an optional base mark.  A leading zero without a
mark stands for base eight. -/
def readNatural? : List Char → Option Nat
  | '0' :: x :: d :: cs =>
    match lowerAscii x with
    | 'b' => readDigits? 2 (d :: cs)
    | 'o' => readDigits? 8 (d :: cs)
    | 'x' => readDigits? 16 (d :: cs)
    | _ => readDigits? 8 (x :: d :: cs)
  | ['0'] => some 0
  | '0' :: cs => readDigits? 8 cs
  | cs => readDigits? 10 cs

/-- The first integer above the signed integers of 64 bits. -/
def signedBound : Int := 9223372036854775808

/-- The first integer above the unsigned integers of 64 bits. -/
def unsignedBound : Nat := 18446744073709551616

/-- A signed integer of 64 bits. -/
def inSigned64 (i : Int) : Bool := -signedBound ≤ i && i < signedBound

/-- A sign and a natural number, if the value is a signed integer of 64 bits. -/
def readSigned? (natural : List Char → Option Nat) (cs : List Char) : Option Int :=
  let (negative, body) := takeSign cs
  (natural body).bind fun n =>
    let i : Int := if negative then -(n : Int) else (n : Int)
    if inSigned64 i then some i else none

/-- An unsigned integer of 64 bits. -/
def readUnsigned? (natural : List Char → Option Nat) (cs : List Char) : Option Int :=
  (natural cs).bind fun n => if n < unsignedBound then some (n : Int) else none

/-- An integer after a base mark that may be followed by a sign of its own. -/
def readMarked? (mark : List Char) (base : Nat) (cs : List Char) : Option Int :=
  match dropBeginning? mark cs with
  | some rest => (readSigned? (readDigits? base) rest).or (readUnsigned? (readDigits? base) rest)
  | none => (dropBeginning? ('-' :: mark) cs).bind fun rest =>
      readSigned? (readDigits? base) ('-' :: rest)

/-! ## Numbers -/

/-- Cuts decimal digits off the front. -/
def takeDigits (cs : List Char) : List Char × List Char := cs.span Char.isDigit

/-- The rest is an exponent or nothing. -/
def isExponentOrEnd : List Char → Bool
  | [] => true
  | c :: cs =>
    lowerAscii c == 'e' &&
      (let digits := (takeSign cs).2; !digits.isEmpty && digits.all Char.isDigit)

/-- The text has the form of a decimal number, digits first or a point first. -/
def isDecimalForm (cs : List Char) : Bool :=
  let (whole, rest) := takeDigits (takeSign cs).2
  match rest with
  | '.' :: t =>
    let (fraction, t) := takeDigits t
    (!whole.isEmpty || !fraction.isEmpty) && isExponentOrEnd t
  | _ => !whole.isEmpty && isExponentOrEnd rest

/-! ## Dates and times -/

/-- The days of a month. -/
def daysInMonth (year month : Nat) : Nat :=
  if month == 2 then
    if year % 4 == 0 && (year % 100 != 0 || year % 400 == 0) then 29 else 28
  else if month == 4 || month == 6 || month == 9 || month == 11 then 30 else 31

/-- One or two digits off the front, with a value below a bound. -/
def takeShort? (bound : Nat) (cs : List Char) : Option (Nat × List Char) :=
  let digits := (takeDigits cs).1.take 2
  (readDigits? 10 digits).bind fun n => if n < bound then some (n, cs.drop digits.length) else none

/-- A date off the front: a year of four digits, a month and a day. -/
def takeDate? (cs : List Char) : Option (List Char) := do
  let (year, rest) := takeDigits cs
  let y ← if year.length == 4 then readDigits? 10 year else none
  let (m, rest) ← takeShort? 13 (← dropBeginning? ['-'] rest)
  let (d, rest) ← takeShort? 32 (← dropBeginning? ['-'] rest)
  if 1 ≤ m && 1 ≤ d && d ≤ daysInMonth y m then some rest else none

/-- The digits of a fraction after a point or a comma, if there are any, are
dropped. -/
def dropFraction : List Char → List Char
  | c :: d :: cs =>
    if (c == '.' || c == ',') && d.isDigit then cs.dropWhile Char.isDigit else c :: d :: cs
  | cs => cs

/-- A time of day off the front: hours, minutes and seconds. -/
def takeTime? (cs : List Char) : Option (List Char) := do
  let (_, rest) ← takeShort? 24 cs
  let (_, rest) ← takeShort? 60 (← dropBeginning? [':'] rest)
  let (_, rest) ← takeShort? 60 (← dropBeginning? [':'] rest)
  some (dropFraction rest)

/-- The text is a time zone: the letter `Z`, or a sign with hours and minutes of two
digits each. -/
def isZone : List Char → Bool
  | ['Z'] => true
  | [sign, h, h', ':', m, m'] =>
    (sign == '+' || sign == '-') && (readDigits? 10 [h, h']).any (· ≤ 24)
      && (readDigits? 10 [m, m']).any (· ≤ 60)
  | _ => false

/-- The text is a date, alone or with a time.  After the letter `T` the time has a
zone, and after spaces it has none. -/
def isTimestamp (cs : List Char) : Bool :=
  match takeDate? cs with
  | none => false
  | some [] => true
  | some (c :: rest) =>
    if c == 'T' || c == 't' then (takeTime? rest).any isZone
    else if c == ' ' then (takeTime? (rest.dropWhile (· == ' '))).any List.isEmpty
    else false

/-! ## Reading -/

/-- What the text of a scalar stands for. -/
inductive Scalar where
  | null
  | bool (value : Bool)
  | int (value : Int)
  | float (value : Binary64)
  | timestamp
  | text (value : String)
  deriving DecidableEq, Repr, Inhabited

namespace Scalar

/-- The tag that a scalar has by itself. -/
def tag : Scalar → Tag
  | .null => .null
  | .bool _ => .bool
  | .int _ => .int
  | .float _ => .float
  | .timestamp => .timestamp
  | .text _ => .text

/-- The words with a meaning. -/
def ofWord? (s : String) : Option Scalar :=
  if ["true", "True", "TRUE"].contains s then some (.bool true)
  else if ["false", "False", "FALSE"].contains s then some (.bool false)
  else if ["", "~", "null", "Null", "NULL"].contains s then some .null
  else if [".nan", ".NaN", ".NAN"].contains s then some (.float .nan)
  else if [".inf", ".Inf", ".INF", "+.inf", "+.Inf", "+.INF"].contains s then
    some (.float (.infinite false))
  else if ["-.inf", "-.Inf", "-.INF"].contains s then some (.float (.infinite true))
  else none

/-- An integer, read after all underscores are dropped. -/
def integer? (cs : List Char) : Option Int :=
  (readSigned? readNatural? cs).or (readUnsigned? readNatural? cs)

/-- A number that starts with a digit or a sign. -/
def number? (s : String) : Option Scalar :=
  let cs := s.toList.filter (· != '_')
  match integer? cs with
  | some i => some (.int i)
  | none =>
    let decimal := if isDecimalForm cs then Binary64.read? (String.ofList cs) else none
    match decimal with
    | some x => some (.float x)
    | none => ((readMarked? ['0', 'b'] 2 cs).or (readMarked? ['0', 'o'] 8 cs)).map .int

/-- Reads the text by itself.  `dates` says whether a date or a time is looked for. -/
def ofPlain (dates : Bool) (s : String) : Scalar :=
  match ofWord? s with
  | some v => v
  | none =>
    match s.toList with
    | [] => .null
    | c :: cs =>
      if c == '.' then
        match Binary64.read? s with
        | some x => .float x
        | none => .text s
      else if c.isDigit || c == '+' || c == '-' then
        if dates && isTimestamp (c :: cs) then .timestamp else (number? s).getD (.text s)
      else .text s

/-- Reads the text under the tag of a kind of scalar.  None when the two disagree. -/
def ofKind? (t : Tag) (s : String) : Option Scalar :=
  let v := ofPlain (t == .timestamp) s
  if v.tag == t then some v
  else
    match t, v with
    | .float, .int i => if inSigned64 i then some (.float (.ofInt i)) else none
    | _, _ => none

/-- Reads the text under a tag.  None when the two disagree. -/
def read? (tag? : Option Tag) (s : String) : Option Scalar :=
  match tag? with
  | none => some (ofPlain true s)
  | some .null => ofKind? .null s
  | some .bool => ofKind? .bool s
  | some .int => ofKind? .int s
  | some .float => ofKind? .float s
  | some .timestamp => ofKind? .timestamp s
  | some .binary => (textOfBase64? s).map fun v => .text v.shown
  | some _ => some (.text s)

end Scalar

/-! ## Conversion -/

/-- A wanted value: found, left unset by a null, or not to be had. -/
inductive Wanted (α : Type) where
  | found (value : α)
  | unset
  | failed
  deriving DecidableEq, Repr, Inhabited

namespace Wanted

/-- The value, or a default when it is unset.  None on failure. -/
def orDefault (default : α) : Wanted α → Option α
  | .found a => some a
  | .unset => some default
  | .failed => none

end Wanted

namespace Scalar

/-- The words that are read as true or false where a truth value is wanted. -/
def wordTruth? (s : String) : Option Bool :=
  if ["y", "Y", "yes", "Yes", "YES", "on", "On", "ON"].contains s then some true
  else if ["n", "N", "no", "No", "NO", "off", "Off", "OFF"].contains s then some false
  else none

/-- Wanted as a truth value. -/
def toBool : Scalar → Wanted Bool
  | .null => .unset
  | .bool b => .found b
  | .text s =>
    match wordTruth? s with
    | some b => .found b
    | none => .failed
  | _ => .failed

/-- Wanted as text.  What is no text itself is taken as it was written. -/
def toText (written : String) : Scalar → Wanted String
  | .null => .unset
  | .text s => .found s
  | _ => .found written

/-- Wanted as a number. -/
def toNumber : Scalar → Wanted Binary64
  | .null => .unset
  | .int i => .found (.ofInt i)
  | .float x => .found x
  | _ => .failed

end Scalar

example : Scalar.ofPlain true "0x1F" = .int 31 := by decide +kernel
example : Scalar.ofPlain true "017" = .int 15 := by decide +kernel
example : Scalar.ofPlain true "2001-02-29" = .text "2001-02-29" := by decide +kernel
example : Scalar.ofPlain true "2000-2-29" = .timestamp := by decide +kernel
example : Scalar.ofPlain true "2001-12-14t21:59:43.10-05:00" = .timestamp := by decide +kernel
example : Scalar.ofPlain true "2001-12-14 21:59:43" = .timestamp := by decide +kernel
example : Scalar.ofPlain true "2001-12-14 21:59:43Z" = .text "2001-12-14 21:59:43Z" := by
    decide +kernel
example : Scalar.read? (some .float) "7" = some (.float (.ofInt 7)) := by decide +kernel
example : Scalar.read? (some .int) "1.5" = none := by decide +kernel
example : Scalar.read? (some .merge) "<<" = some (.text "<<") := by decide +kernel

end StructuralTyping.Yaml
