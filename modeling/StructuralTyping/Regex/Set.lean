import StructuralTyping.Regex.Reading

/-!
# Sets of characters

A set stands between square brackets.  Its elements are characters, ranges,
classes such as `\d`, and at its end a set that is taken away.  An empty set is
written `[]`.

The survey reads a set only to find its end.  It does not look at the order of
a range, and takes the bracket after an open range for its end.
-/

namespace StructuralTyping.Regex

open Reading

/-- Skips the mark that negates a set. -/
def skipNegation : Reading Unit := do
  match ← rest with
  | '^' :: cs => goOn cs
  | _ => return ()

/-- Skips a named class such as `[:alpha:]`, after its opening bracket. -/
def skipNamedClass : Reading Unit := do
  match ← rest with
  | ':' :: cs =>
    let inner := match cs with | '^' :: d :: more => d :: more | more => more
    match inner.dropWhile isWordChar with
    | ':' :: ']' :: after => goOn after
    | _ => return ()
  | _ => return ()

/-- Reads the elements of a set up to its end.  `first` holds before the first
element, and `low` is the start of a range that is still open. -/
def readSetFrom (survey : Bool) : Nat → Bool → Option Nat → Reading Unit
  | 0, _, _ => throw .unterminatedSet
  | fuel + 1, first, low => do
    let more (low : Option Nat) : Reading Unit := readSetFrom survey fuel false low
    let subtraction : Reading Unit := do
      let inner : Reading Unit := do skipNegation; readSetFrom survey fuel true none
      if survey then attempt inner
      else
        inner
        match ← rest with
        | x :: _ => if x != ']' then throw .subtractionNotLast
        | [] => return ()
      more none
    let element (n : Nat) (escaped : Bool) : Reading Unit := do
      match low with
      | some l =>
        if survey then more none
        else if n == '['.toNat && !escaped && !first then subtraction
        else if n < l then throw (.reversedRange l n)
        else more none
      | none =>
        match ← rest with
        | '-' :: x :: after =>
          if x != ']' then
            goOn (x :: after)
            more (some n)
          else more none
        | '[' :: after =>
          if n == '-'.toNat && !escaped && !first then
            goOn after
            subtraction
          else more none
        | _ => more none
    match ← next? with
    | none => throw .unterminatedSet
    | some ']' => return ()
    | some '[' =>
      if low.isNone then skipNamedClass
      element '['.toNat false
    | some '\\' =>
      match ← next? with
      | none => element '\\'.toNat false
      | some c =>
        if ['d', 'D', 's', 'S', 'w', 'W'].contains c then
          if !survey && low.isSome then throw (.classInRange c.toNat)
          more low
        else if c == 'p' || c == 'P' then
          if survey then attempt readProperty
          else if low.isSome then throw (.classInRange c.toNat)
          else readProperty
          more low
        else if c == '-' then more low
        else element (← readCharEscape c) true
    | some c => element c.toNat false

/-- Reads a set after its opening bracket. -/
def readSet (survey : Bool) : Reading Unit := do
  skipNegation
  readSetFrom survey ((← rest).length + 1) true none

end StructuralTyping.Regex
