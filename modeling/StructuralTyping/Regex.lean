import StructuralTyping.Regex.Opening

/-!
# Regular expression patterns

A regular expression literal has the type `RegExp` when its pattern is well
formed.  The check reads the pattern once from left to right, after the survey
of its groups.  It keeps the groups that are still open, and whether a
quantifier stands just before.

A quantifier needs something to repeat, and cannot repeat another quantifier.  A
brace that starts no count is an ordinary character, and so is an escaped
letter without a meaning.  A comment without an end is ignored right after
ordinary characters and an error elsewhere.
-/

namespace StructuralTyping.Regex

open Reading

/-! ## Quantifiers -/

/-- A brace starts a count when digits follow it, perhaps a comma and more
digits, and then the closing brace. -/
def startsCount (afterBrace : List Char) : Bool :=
  let digits := afterBrace.takeWhile Char.isDigit
  if digits.isEmpty then false
  else
    match afterBrace.dropWhile Char.isDigit with
    | '\x7d' :: _ => true
    | ',' :: cs => (cs.dropWhile Char.isDigit).head? == some '\x7d'
    | _ => false

/-- The next character is a quantifier. -/
def atQuantifier : List Char → Bool
  | '*' :: _ | '+' :: _ | '?' :: _ => true
  | '\x7b' :: cs => startsCount cs
  | _ => false

/-- Reads the bounds of a count after its brace.  The upper bound may be absent. -/
def readCount : Reading (Nat × Option Nat) := do
  let low ← readDecimal
  match ← next? with
  | some ',' =>
    match ← rest with
    | '\x7d' :: cs => goOn cs; return (low, none)
    | _ =>
      let high ← readDecimal
      let _ ← next?
      return (low, some high)
  | _ => return (low, some low)

/-- Reads a quantifier with the mark that makes it lazy. -/
def readQuantifier : Reading Unit := do
  let (low, high) ←
    match ← next? with
    | some '\x7b' => readCount
    | _ => pure (0, none)
  skipBlanks
  match ← rest with
  | '?' :: cs => goOn cs
  | _ => pure ()
  match high with
  | some h => if h < low then throw .repeatCount
  | none => return ()

/-! ## The whole pattern -/

/-- Characters with a meaning of their own. -/
def isSpecial (c : Char) : Bool :=
  ['$', '(', ')', '*', '+', '.', '?', '[', '\\', '^', '\x7b', '|'].contains c

/-- Takes ordinary characters from the front. -/
def afterOrdinary (ignoreBlanks : Bool) : List Char → List Char
  | [] => []
  | c :: cs =>
    if isSpecial c && !(c == '\x7b' && !startsCount cs) then c :: cs
    else if ignoreBlanks && (isBlank c || c == '#') then c :: cs
    else afterOrdinary ignoreBlanks cs

/-- Skips ordinary characters and says whether there were any. -/
def skipOrdinary : Reading Bool := do
  let p ← get
  let cs := afterOrdinary p.options.ignoreBlanks p.rest
  goOn cs
  return cs.length < p.rest.length

/-- A group that is still open. -/
structure OpenGroup where
  kind : GroupKind := .plain
  /-- The parts of a choice that are complete, its condition included. -/
  parts : Nat := 0

/-- A part of the group is complete. -/
def OpenGroup.addPart (o : OpenGroup) : OpenGroup := { o with parts := o.parts + 1 }

/-- The group may end here. -/
def OpenGroup.mayEnd (o : OpenGroup) : Bool :=
  match o.kind with
  | .plain => true
  | .choice => o.addPart.parts ≤ 3
  | .choiceByGroup => o.addPart.parts ≤ 2

/-- Reads the rest of a pattern inside the group `inner`, with the groups `outer`
open around it.  `repeated` holds when a quantifier stands just before. -/
def readFrom (g : Groups) : Nat → OpenGroup → List OpenGroup → Bool → Reading Unit
  | 0, _, outer, _ => if outer.isEmpty then return () else throw .missingClose
  | fuel + 1, inner, outer, repeated => do
    let finish : Reading Unit := if outer.isEmpty then return () else throw .missingClose
    let afterUnit (inner : OpenGroup) (outer : List OpenGroup) : Reading Unit := do
      skipBlanks
      if atQuantifier (← rest) then
        readQuantifier
        readFrom g fuel inner outer true
      else readFrom g fuel inner outer false
    if (← rest).isEmpty then finish
    else
      skipBlanks
      let ordinary ← skipOrdinary
      attempt skipBlanks
      match ← rest with
      | [] => finish
      | c :: cs =>
        if !isSpecial c then readFrom g fuel inner outer false
        else if ['*', '+', '?', '\x7b'].contains c then
          if ordinary then afterUnit inner outer
          else throw (if repeated then .nestedRepeat else .nothingToRepeat)
        else
          goOn cs
          match c with
          | '[' =>
            readSet false
            afterUnit inner outer
          | '(' =>
            pushOptions
            match ← readOpening g inner.kind with
            | none =>
              keepOptions
              readFrom g fuel inner outer false
            | some kind => readFrom g fuel { kind } (inner :: outer) false
          | ')' =>
            match outer with
            | [] => throw .unexpectedClose
            | around :: others =>
              if !inner.mayEnd then throw .tooManyAlternatives
              popOptions
              if around.kind == .choice && around.parts == 0 then
                readFrom g fuel around.addPart others false
              else afterUnit around others
          | '|' => readFrom g fuel inner.addPart outer false
          | '\\' =>
            readEscape g false
            afterUnit inner outer
          | _ => afterUnit inner outer

/-- The reason why a pattern is not well formed. -/
def problem? (pattern : String) : Option RegexError :=
  let cs := pattern.toList
  match groupsOf cs with
  | .error e => some e
  | .ok g =>
    match (((readFrom g (cs.length + 1) {} [] false).run).run { rest := cs }).1 with
    | .ok _ => none
    | .error e => some e

/-- The whole wording of what is wrong with a pattern. -/
def problemText? (pattern : String) : Option String :=
  (problem? pattern).map fun e =>
    "error parsing regexp: " ++ e.text ++ " in \x60" ++ pattern ++ "\x60"

end StructuralTyping.Regex
