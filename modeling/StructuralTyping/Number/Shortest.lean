import StructuralTyping.Number.Binary64

/-!
# Shortest decimals

The text of a number has the fewest digits that read back as that number, and
among those the digits nearest to it.  The search walks decimal grids with
1, 2, … 17 digits.  On each grid it tries the two neighbours of the value, and
the first grid with a neighbour that reads back wins.  A decimal reads back
when it lies between the two midpoints to the adjacent numbers.  The midpoints
themselves read back when the mantissa is even.
-/

namespace StructuralTyping

/-- The decimal `digits * 10 ^ exponent`. -/
structure Decimal where
  /-- The digits as one integer. -/
  digits : Nat
  /-- The power of ten of the last digit. -/
  exponent : Int
  deriving DecidableEq, Repr

namespace Shortest

open Binary64 (scaleRatio)

/-- A positive value with the ends of the interval that reads back as it, all
three over one denominator. -/
structure Interval where
  low : Nat
  value : Nat
  high : Nat
  den : Nat
  /-- The ends read back too. -/
  closed : Bool

/-- The interval of `m * 2 ^ e`.  Below a power of two the neighbour is half as
far. -/
def interval (m : Nat) (e : Int) : Interval :=
  let below := if m == Nat.pow 2 52 && Binary64.minExponent < e then 1 else 2
  let scale : Nat × Nat :=
    if 2 ≤ e then (Nat.pow 2 (e - 2).toNat, 1) else (1, Nat.pow 2 (2 - e).toNat)
  { low := (4 * m - below) * scale.1
    value := 4 * m * scale.1
    high := (4 * m + 2) * scale.1
    den := scale.2
    closed := m % 2 == 0 }

/-- The least `k` with `num / den < 10 ^ k`, for positive arguments. -/
def decimalPoint (num den : Nat) : Int :=
  let guess : Int := Int.fdiv (Binary64.floorLog2 num den * 30103) 100000
  let fits (k : Int) : Bool := let (n, d) := scaleRatio 10 num den k; n < d
  if fits guess then guess else if fits (guess + 1) then guess + 1 else guess + 2

/-- The neighbour of the value on the grid of multiples of `10 ^ g` that reads
back.  Of two such neighbours the nearer wins, and an even one on a tie. -/
def onGrid? (i : Interval) (g : Int) : Option Nat :=
  let (v, d) := scaleRatio 10 i.value i.den g
  let (l, _) := scaleRatio 10 i.low i.den g
  let (h, _) := scaleRatio 10 i.high i.den g
  let down := v / d
  let up := down + 1
  let downOk : Bool := if i.closed then l ≤ down * d else l < down * d
  let upOk : Bool := if i.closed then up * d ≤ h else up * d < h
  let past := 2 * (v % d)
  match downOk, upOk with
  | true, true => some (if past < d || (past == d && down % 2 == 0) then down else up)
  | true, false => some down
  | false, true => some up
  | false, false => none

/-- The first grid with a hit, from `n` digits on.  `left` grids remain. -/
def search (i : Interval) (point : Int) : Nat → Nat → Decimal
  | 0, n => let g := point - n; let (v, d) := scaleRatio 10 i.value i.den g; ⟨v / d, g⟩
  | left + 1, n =>
    let g := point - n
    match onGrid? i g with
    | some digits => ⟨digits, g⟩
    | none => search i point left (n + 1)

/-- The shortest decimal of `m * 2 ^ e` for a positive mantissa. -/
def decimal (m : Nat) (e : Int) : Decimal :=
  let i := interval m e
  search i (decimalPoint i.value i.den) 17 1

end Shortest

/-! ## Layout -/

/-- Decimal digits without trailing zeros. -/
def trimZeros (cs : List Char) : List Char := (cs.reverse.dropWhile (· == '0')).reverse

/-- The digits of a natural number. -/
def natDigits (n : Nat) : List Char := Nat.toDigits 10 n

/-- The text of an integer. -/
def intText (i : Int) : String := if i < 0 then "-" ++ toString i.natAbs else toString i.natAbs

/-- An exponent with its sign and at least two digits. -/
def exponentText (e : Int) : String :=
  let digits := natDigits e.natAbs
  let padded := if digits.length < 2 then '0' :: digits else digits
  (if e < 0 then "-" else "+") ++ String.ofList padded

/-- Digits laid out.  The exponent of the first digit decides: below -4 or from 6
on the scientific form is used, otherwise the plain one. -/
def layOut (digits : List Char) (lead : Int) : String :=
  if lead < -4 || 6 ≤ lead then
    let fraction := digits.drop 1
    String.ofList (digits.take 1 ++ (if fraction.isEmpty then [] else '.' :: fraction)) ++ "e" ++
      exponentText lead
  else if lead < 0 then
    String.ofList ('0' :: '.' :: (List.replicate (-lead - 1).toNat '0' ++ digits))
  else
    let whole := lead.toNat + 1
    if digits.length ≤ whole then
      String.ofList (digits ++ List.replicate (whole - digits.length) '0')
    else String.ofList (digits.take whole ++ '.' :: digits.drop whole)

/-- The text of a positive decimal. -/
def Decimal.text (d : Decimal) : String :=
  let all := natDigits d.digits
  layOut (trimZeros all) (d.exponent + all.length - 1)

/-- The spellings of the values that are not finite. -/
structure NumberNames where
  nan : String
  positiveInfinity : String
  negativeInfinity : String

/-- The spellings used in property keys and written documents. -/
def plainNames : NumberNames := ⟨"NaN", "+Inf", "-Inf"⟩

/-- The text of a number: shortest digits, with the given names for the values
that are not finite. -/
def Binary64.textWith (names : NumberNames) : Binary64 → String
  | .nan => names.nan
  | .infinite false => names.positiveInfinity
  | .infinite true => names.negativeInfinity
  | .finite negative m e =>
    (if negative then "-" else "") ++ (if m == 0 then "0" else (Shortest.decimal m e).text)

/-- The text of a number with the plain names. -/
def Binary64.text (x : Binary64) : String := x.textWith plainNames

example : (Binary64.ofInt 100000).text = "100000" := by decide +kernel
example : (Binary64.ofInt 1000000).text = "1e+06" := by decide +kernel
example : (Binary64.ofRatio false 123456789 1000).text = "123456.789" := by decide +kernel
example : (Binary64.ofRatio false 1 100000).text = "1e-05" := by decide +kernel
example : (Binary64.zero true).text = "-0" := by decide +kernel

end StructuralTyping
