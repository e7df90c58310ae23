import StructuralTyping.Regex.Groups

/-!
# Opening brackets

What an opening bracket starts is said by the characters after it.  Most groups
are alike for the check.  A choice between two alternatives by a condition is
not, since it limits the number of its alternatives.
-/

namespace StructuralTyping.Regex

open Reading

/-- Kinds of groups. -/
inductive GroupKind where
  /-- A group with any number of alternatives. -/
  | plain
  /-- A choice whose condition is the group at its start. -/
  | choice
  /-- A choice whose condition is that another group has matched. -/
  | choiceByGroup
  deriving DecidableEq, Repr

/-- Fails when the next character can follow no part of a group's name. -/
def checkNameEnd (allowed : List Char) : Reading Unit := do
  match (← rest).head? with
  | some c => if !allowed.contains c then throw .groupName
  | none => return ()

/-- Reads the part of a group's name before a minus sign.  True says that the group
is known, or that there is no such part. -/
def readOwnName (g : Groups) (close c : Char) : Reading Bool := do
  if c.isDigit then
    let n ← readDecimal
    checkNameEnd [close, '-']
    if n == 0 then throw .groupZero
    return g.numbers.contains n
  else if isWordChar c then
    let name ← readName
    checkNameEnd [close, '-']
    return g.names.contains name
  else if c == '-' then return true
  else throw .groupName

/-- Reads the part of a group's name after a minus sign, which names the group whose
match ends. -/
def readEndedName (g : Groups) (close : Char) : Reading Unit := do
  match (← rest).head? with
  | none => throw .groupName
  | some c =>
    if c.isDigit then
      let n ← readDecimal
      if !g.numbers.contains n then throw (.undefinedGroup n)
      checkNameEnd [close]
    else if isWordChar c then
      let name ← readName
      if !g.names.contains name then throw (.undefinedName name)
      checkNameEnd [close]
    else throw .groupName

/-- Reads the condition of a choice, after `(?(`. -/
def readCondition (g : Groups) : Reading GroupKind := do
  let cs ← rest
  let group : Reading GroupKind := do
    goOn ('(' :: cs)
    match cs with
    | '?' :: '#' :: _ => throw .conditionComment
    | '?' :: '\'' :: _ => throw .conditionCapture
    | '?' :: '<' :: d :: _ => if d != '!' && d != '=' then throw .conditionCapture
    | _ => pure ()
    return .choice
  match cs.head? with
  | none => group
  | some c =>
    if c.isDigit then
      let n ← readDecimal
      if (← next?) != some ')' then throw (.malformedCondition n)
      if !g.numbers.contains n then throw (.undefinedCondition n)
      return .choiceByGroup
    else if isWordChar c then
      let name ← readName
      if g.names.contains name && (← next?) == some ')' then return .choiceByGroup
      else group
    else group

/-- Reads what stands after an opening bracket, in a group of the given kind.  None
stands for brackets that only switch options.  Options cannot be switched right
inside a choice. -/
def readOpening (g : Groups) (around : GroupKind) : Reading (Option GroupKind) := do
  let start ← rest
  let unknown : Reading (Option GroupKind) := do
    throw (.unknownGroup (String.ofList (start.take (start.length - (← rest).length))))
  let named (close : Char) : Reading (Option GroupKind) := do
    match ← rest with
    | [] => unknown
    | c :: after =>
      if c == '=' || c == '!' then
        goOn after
        if close == '\'' then unknown else return some .plain
      else
        let known ← readOwnName g close c
        let ended ←
          match ← rest with
          | '-' :: after =>
            if known then do
              goOn after
              readEndedName g close
              pure true
            else pure false
          | _ => pure false
        if (known && c != '-') || ended then
          if (← next?) == some close then return some .plain else unknown
        else unknown
  match start with
  | '?' :: ')' :: _ => return some .plain
  | '?' :: more =>
    goOn more
    match ← next? with
    | none => unknown
    | some ':' | some '=' | some '!' | some '>' => return some .plain
    | some '<' => named '>'
    | some '\'' => named '\''
    | some '(' => return some (← readCondition g)
    | some _ =>
      goOn more
      if around != .choice then readOptions
      match ← next? with
      | some ')' => return none
      | some ':' => return some .plain
      | _ => unknown
  | _ => return some .plain

end StructuralTyping.Regex
