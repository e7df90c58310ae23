import StructuralTyping.Number.Binary64

/-!
# Reading numbers

A numeral is an optional sign, digits with at most one point, and an optional
exponent.  A numeral that starts with `0x` has hexadecimal digits and must have
a binary exponent after `p`.  Underscores may stand between digits.  The names
`inf`, `infinity` and `nan` are read in any case.  A numeral whose value is
beyond the greatest finite number is refused, and one too close to zero is
read as zero.
-/

namespace StructuralTyping

/-- The letter in lower case, for ASCII letters. -/
def lowerAscii (c : Char) : Char := c.toLower

/-- The value of a digit in base ten or sixteen. -/
def digitValue? (base : Nat) (c : Char) : Option Nat :=
  if c.isDigit then some (c.toNat - '0'.toNat)
  else
    let l := lowerAscii c
    if base == 16 && 'a' ≤ l && l ≤ 'f' then some (l.toNat - 'a'.toNat + 10) else none

/-! ## Separators -/

/-- What stands before a character, as far as separators care. -/
inductive Before where
  | digit
  | separator
  | other
  deriving DecidableEq

/-- Each underscore follows a digit and is followed by one. -/
def separatorsBetweenDigits (hex : Bool) : Before → List Char → Bool
  | before, [] => before != .separator
  | before, c :: cs =>
    if c.isDigit || (hex && (digitValue? 16 c).isSome) then separatorsBetweenDigits hex .digit cs
    else if c == '_' then before == .digit && separatorsBetweenDigits hex .separator cs
    else before != .separator && separatorsBetweenDigits hex .other cs

/-- The sign in front of a text, and the rest. -/
def takeSign : List Char → Bool × List Char
  | '-' :: cs => (true, cs)
  | '+' :: cs => (false, cs)
  | cs => (false, cs)

/-- Underscores stand between digits only.  A base mark such as `0x` counts as a
digit. -/
def separatorsOk (cs : List Char) : Bool :=
  let (_, cs) := takeSign cs
  match cs with
  | '0' :: x :: rest =>
    let l := lowerAscii x
    if l == 'b' || l == 'o' || l == 'x' then separatorsBetweenDigits (l == 'x') .digit rest
    else separatorsBetweenDigits false .other cs
  | _ => separatorsBetweenDigits false .other cs

/-! ## Mantissa and exponent -/

/-- The digits of a numeral read so far. -/
structure Mantissa where
  /-- The digits as one integer, without the point. -/
  value : Nat := 0
  /-- How many digits there were, leading zeros apart. -/
  significant : Nat := 0
  /-- How many digits stood after the point. -/
  fraction : Nat := 0
  /-- A digit was read. -/
  any : Bool := false
  /-- The point was read. -/
  pointed : Bool := false

/-- The mantissa with one more digit. -/
def Mantissa.push (base : Nat) (m : Mantissa) (d : Nat) : Mantissa :=
  { value := m.value * base + d
    significant := if m.significant == 0 && d == 0 then 0 else m.significant + 1
    fraction := if m.pointed then m.fraction + 1 else m.fraction
    any := true
    pointed := m.pointed }

/-- Reads digits, underscores and at most one point. -/
def Mantissa.scan (base : Nat) (m : Mantissa) : List Char → Mantissa × List Char
  | [] => (m, [])
  | c :: cs =>
    if c == '_' then Mantissa.scan base m cs
    else if c == '.' then
      if m.pointed then (m, c :: cs) else Mantissa.scan base { m with pointed := true } cs
    else
      match digitValue? base c with
      | some d => Mantissa.scan base (m.push base d) cs
      | none => (m, c :: cs)

/-- Reads the digits and underscores of an exponent.  It stops growing once it
is beyond every exponent that matters. -/
def scanExponent (e : Nat) : List Char → Nat × List Char
  | [] => (e, [])
  | c :: cs =>
    if c == '_' then scanExponent e cs
    else
      match digitValue? 10 c with
      | some d => scanExponent (if e < 10000 then e * 10 + d else e) cs
      | none => (e, c :: cs)

/-- An exponent after its mark: a sign, then at least one digit. -/
def readExponent? (mark : Char) : List Char → Option (Option Int × List Char)
  | [] => some (none, [])
  | c :: cs =>
    if lowerAscii c == mark then
      let (negative, cs) := takeSign cs
      match cs with
      | d :: _ =>
        if d.isDigit then
          let (e, rest) := scanExponent 0 cs
          some (some (if negative then -(e : Int) else (e : Int)), rest)
        else none
      | [] => none
    else some (none, c :: cs)

/-! ## Values -/

/-- The value of decimal digits scaled by a power of ten. -/
def decimalValue (negative : Bool) (m : Mantissa) (exponent : Int) : Binary64 :=
  let point : Int := (m.significant : Int) - (m.fraction : Int) + exponent
  let shift : Int := exponent - (m.fraction : Int)
  if m.value == 0 then .zero negative
  else if 310 < point then .infinite negative
  else if point < -330 then .zero negative
  else if 0 ≤ shift then .ofRatio negative (m.value * Nat.pow 10 shift.toNat) 1
  else .ofRatio negative m.value (Nat.pow 10 (-shift).toNat)

/-- The value of hexadecimal digits scaled by a power of two. -/
def hexValue (negative : Bool) (m : Mantissa) (exponent : Int) : Binary64 :=
  let shift : Int := exponent - 4 * (m.fraction : Int)
  if 0 ≤ shift then .ofRatio negative (m.value * Nat.pow 2 shift.toNat) 1
  else .ofRatio negative m.value (Nat.pow 2 (-shift).toNat)

/-- Keeps a finite value. -/
def finite? : Binary64 → Option Binary64
  | .finite s m e => some (.finite s m e)
  | _ => none

/-- Whether the mark of base sixteen stands in front of more, and the rest. -/
def takeHexMark : List Char → Bool × List Char
  | '0' :: x :: d :: rest =>
    if lowerAscii x == 'x' then (true, d :: rest) else (false, '0' :: x :: d :: rest)
  | cs => (false, cs)

/-- Reads a numeral with digits. -/
def readNumeral? (cs : List Char) : Option Binary64 :=
  if cs.contains '_' && !separatorsOk cs then none
  else
    let (negative, body) := takeSign cs
    let (hex, body) := takeHexMark body
    let base := if hex then 16 else 10
    let (m, rest) := Mantissa.scan base {} body
    if !m.any then none
    else
      match readExponent? (if hex then 'p' else 'e') rest with
      | some (some e, []) =>
        finite? (if hex then hexValue negative m e else decimalValue negative m e)
      | some (none, []) => if hex then none else finite? (decimalValue negative m 0)
      | _ => none

/-- Reads the name of a value that is not finite. -/
def readNamed? (cs : List Char) : Option Binary64 :=
  let (negative, body) := takeSign cs
  let lower := String.ofList (body.map lowerAscii)
  if lower == "inf" || lower == "infinity" then some (.infinite negative)
  else if String.ofList (cs.map lowerAscii) == "nan" then some .nan
  else none

/-- Reads a number. -/
def Binary64.read? (s : String) : Option Binary64 :=
  let cs := s.toList
  (readNamed? cs).or (readNumeral? cs)

example : Binary64.read? "-0" = some (.zero true) := by decide +kernel
example : Binary64.read? "1_000" = Binary64.read? "1e3" := by decide +kernel
example : Binary64.read? "0x1p4" = some (.ofInt 16) := by decide +kernel
example : Binary64.read? "0x10" = none := by decide +kernel
example : Binary64.read? "1__0" = none := by decide +kernel
example : Binary64.read? "1e400" = none := by decide +kernel

end StructuralTyping
