/-!
# Double-precision numbers

A number literal holds a binary64 datum.  The datum is kept as a sign, a
mantissa and a binary exponent, so that reading and printing are exact
arithmetic on natural numbers.  A finite datum made here has a mantissa below
`2 ^ 53` and an exponent of at least `-1074`, and the mantissa reaches `2 ^ 52`
unless the exponent is `-1074`.  So equal values have equal data, the two zeros
apart.
-/

namespace StructuralTyping

/-- A binary64 datum.  `finite s m e` stands for `m * 2 ^ e`, negated when `s`. -/
inductive Binary64 where
  | nan
  | infinite (negative : Bool)
  | finite (negative : Bool) (mantissa : Nat) (exponent : Int)
  deriving DecidableEq, Repr, Inhabited

namespace Binary64

/-- The least binary exponent of a finite datum. -/
def minExponent : Int := -1074

/-- The greatest binary exponent of a finite datum. -/
def maxExponent : Int := 971

/-- The two zeros. -/
def zero (negative : Bool) : Binary64 := .finite negative 0 minExponent

/-- Not a number. -/
def isNaN : Binary64 → Bool
  | .nan => true
  | _ => false

/-- One of the two zeros. -/
def isZero : Binary64 → Bool
  | .finite _ m _ => m == 0
  | _ => false

/-- A value counts as true unless it is a zero or not a number. -/
def truthy (x : Binary64) : Bool := !x.isZero && !x.isNaN

/-- The same value as a literal: the two zeros agree, and so does not-a-number
with itself. -/
def sameValue (x y : Binary64) : Bool := x == y || (x.isZero && y.isZero)

/-- The value with the other sign. -/
def negate : Binary64 → Binary64
  | .nan => .nan
  | .infinite s => .infinite (!s)
  | .finite s m e => .finite (!s) m e

/-! ## Rounding a ratio -/

/-- The quotient rounded to the nearest integer, a half going to the even
neighbour. -/
def roundDiv (num den : Nat) : Nat :=
  let q := num / den
  let r := num % den
  if 2 * r < den || (2 * r == den && q % 2 == 0) then q else q + 1

/-- The ratio `num / den` divided by `base ^ e`, again as a ratio. -/
def scaleRatio (base num den : Nat) (e : Int) : Nat × Nat :=
  if 0 ≤ e then (num, den * Nat.pow base e.toNat) else (num * Nat.pow base (-e).toNat, den)

/-- The greatest `e` with `2 ^ e ≤ num / den`, for positive arguments. -/
def floorLog2 (num den : Nat) : Int :=
  let e : Int := (num.log2 : Int) - (den.log2 : Int)
  let (n, d) := scaleRatio 2 num den e
  if d ≤ n then e else e - 1

/-- The datum nearest to `num / den`, a half going to the even mantissa.  A
ratio beyond the greatest finite datum gives an infinity. -/
def ofRatio (negative : Bool) (num den : Nat) : Binary64 :=
  if num == 0 then zero negative
  else
    let e := max (floorLog2 num den - 52) minExponent
    let (n, d) := scaleRatio 2 num den e
    let m := roundDiv n d
    let (m, e) := if m == Nat.pow 2 53 then (Nat.pow 2 52, e + 1) else (m, e)
    if maxExponent < e then .infinite negative else .finite negative m e

/-- The datum nearest to an integer. -/
def ofInt (i : Int) : Binary64 := ofRatio (decide (i < 0)) i.natAbs 1

/-- The integer part, dropping the fraction.  None for a datum that is not
finite. -/
def truncate? : Binary64 → Option Int
  | .finite negative m e =>
    let n : Nat := if 0 ≤ e then m * Nat.pow 2 e.toNat else m / Nat.pow 2 (-e).toNat
    some (if negative then -(n : Int) else (n : Int))
  | _ => none

example : ofRatio false 1 1 = .finite false (Nat.pow 2 52) (-52) := by decide
example : ofRatio false 1 10 = .finite false 7205759403792794 (-56) := by decide +kernel
example : sameValue (zero true) (zero false) = true := by decide

end Binary64

end StructuralTyping
