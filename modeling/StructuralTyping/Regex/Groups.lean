import StructuralTyping.Regex.Set

/-!
# The groups of a pattern

A pattern may refer to a group before the group stands in it.  So a *survey*
goes through the whole pattern first and collects the groups that it declares.
Groups without a name are numbered from one in the order of their opening
brackets, and groups with a name get the numbers that are left over.  The whole
pattern is group zero.

The survey ignores what is wrong with a pattern, except a group number that is
too large.
-/

namespace StructuralTyping.Regex

open Reading

/-- The groups of a pattern. -/
structure Groups where
  /-- The names, in the order in which they appear. -/
  names : List String := []
  /-- The numbers. -/
  numbers : List Nat := [0]
  /-- `\k` refers to a group.  In a pattern that names no group it is a letter. -/
  named : Bool := false
  deriving DecidableEq, Repr

/-- A group with a number. -/
def Groups.addNumber (g : Groups) (n : Nat) : Groups :=
  if g.numbers.contains n then g else { g with numbers := g.numbers ++ [n] }

/-- A group with a name. -/
def Groups.addName (g : Groups) (name : String) : Groups :=
  if g.names.contains name then g else { g with names := g.names ++ [name], named := true }

/-- The first number from `n` on that no group has.  A list of numbers cannot hold
more consecutive numbers than its length. -/
def Groups.freeFrom (g : Groups) : Nat → Nat → Nat
  | 0, n => n
  | fuel + 1, n => if g.numbers.contains n then Groups.freeFrom g fuel (n + 1) else n

/-- Numbers the named groups, from `n` on. -/
def Groups.numberNames (g : Groups) : Nat → List String → Groups
  | _, [] => g
  | n, _ :: names =>
    let free := g.freeFrom g.numbers.length n
    Groups.numberNames (g.addNumber free) (free + 1) names

/-- The groups when the whole pattern has been surveyed.  A gap in the numbers
counts as a name, since the groups are then told apart by their numbers. -/
def Groups.finish (g : Groups) (next : Nat) : Groups :=
  let g := g.numberNames next g.names
  { g with named := g.named || g.numbers.length < g.numbers.foldl max 0 + 1 }

/-! ## Escapes outside sets -/

/-- Reads a reference between angle brackets, after `\k`.  False says that it turned
out to be no reference. -/
def readNamedReference (g : Groups) (survey : Bool) : Reading Bool := do
  match ← next? with
  | some '<' =>
    match (← rest).head? with
    | none => throw .malformedReference
    | some c =>
      if c.isDigit then
        let n ← readDecimal
        if (← next?) != some '>' then return false
        if !g.numbers.contains n then throw (.undefinedGroup n)
        return true
      else
        let name ← readName
        if name.isEmpty then throw .malformedReference
        if (← next?) != some '>' then throw .malformedReference
        if !survey && !g.names.contains name then throw (.undefinedName name)
        return true
  | _ => throw .malformedReference

/-- Reads an escape after its backslash. -/
def readEscape (g : Groups) (survey : Bool) : Reading Unit := do
  match ← next? with
  | none => throw .illegalEnd
  | some c =>
    let after ← rest
    if ['b', 'B', 'A', 'G', 'Z', 'z', 'w', 'W', 's', 'S', 'd', 'D'].contains c then return ()
    else if c == 'p' || c == 'P' then readProperty
    else if c == 'k' && g.named then
      if !(← readNamedReference g survey) then goOn after
    else if '1' ≤ c && c ≤ '9' then
      goOn (c :: after)
      let n ← readDecimal
      if !survey && !g.numbers.contains n then
        goOn after
        let _ ← readCharEscape c
    else
      let _ ← readCharEscape c

/-! ## The survey -/

/-- What the survey knows so far. -/
structure Survey where
  groups : Groups := {}
  /-- The number of the next group without a name. -/
  next : Nat := 1
  /-- The next group is the condition of a choice, and is not counted. -/
  condition : Bool := false

/-- Reads what follows the opening bracket of a group. -/
def surveyOpening (s : Survey) : Reading Survey := do
  pushOptions
  match ← rest with
  | '?' :: cs =>
    goOn cs
    let named (c : Char) : Reading Survey := do
      if c == '0' || !isWordChar c then return { s with condition := false }
      else if c.isDigit then
        let n ← readDecimal
        return { s with groups := s.groups.addNumber n, condition := false }
      else
        let name ← readName
        return { s with groups := s.groups.addName name, condition := false }
    match cs with
    | '<' :: c :: more => goOn (c :: more); named c
    | '\'' :: c :: more => goOn (c :: more); named c
    | _ =>
      readOptions
      match ← rest with
      | ')' :: more =>
        goOn more
        keepOptions
        return { s with condition := false }
      | '(' :: _ => return { s with condition := true }
      | _ => return { s with condition := false }
  | _ =>
    if (← get).options.namedOnly || s.condition then return { s with condition := false }
    else return { groups := s.groups.addNumber s.next, next := s.next + 1, condition := false }

/-- Surveys the rest of a pattern. -/
def surveyFrom : Nat → Survey → Reading Groups
  | 0, s => return s.groups.finish s.next
  | fuel + 1, s => do
    let before ← rest
    match ← next? with
    | none => return s.groups.finish s.next
    | some '\\' =>
      if !(← rest).isEmpty then attempt (readEscape s.groups true)
      surveyFrom fuel s
    | some '#' =>
      if (← get).options.ignoreBlanks then
        goOn before
        attempt skipBlanks
      surveyFrom fuel s
    | some '[' =>
      attempt (readSet true)
      surveyFrom fuel s
    | some ')' =>
      popOptions
      surveyFrom fuel s
    | some '(' =>
      match ← rest with
      | '?' :: '#' :: _ =>
        goOn before
        attempt skipBlanks
        surveyFrom fuel { s with condition := false }
      | _ => surveyFrom fuel (← surveyOpening s)
    | some _ => surveyFrom fuel s

/-- The groups of a pattern. -/
def groupsOf (pattern : List Char) : Except RegexError Groups :=
  (((surveyFrom (pattern.length + 1) {}).run).run { rest := pattern }).1

end StructuralTyping.Regex
