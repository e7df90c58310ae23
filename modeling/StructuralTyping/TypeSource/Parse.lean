import StructuralTyping.TypeSource.Names
import StructuralTyping.TypeSource.Token

/-!
# Reading type source

The grammar of type source:

* a union is intersections with `|` between them, and a `|` may stand in front;
* an intersection is postfix types with `&` between them;
* a postfix type is a primary type followed by any number of `[]`;
* a primary type is a union in round brackets, a tuple in square brackets, a
  string, a number with an optional `-`, or names with dots between them.

One branch stands for itself, and two or more build one union or intersection
in the order of the text.

Each function reads off the front of the tokens and returns the rest.  The
recursion passes through a bracket, so the number of tokens bounds its depth.
-/

namespace StructuralTyping.TypeSource

/-! ## Problems -/

/-- Why a text is no type. -/
inductive Problem where
  | unexpected (text : String)
  | unexpectedEnd
  | expected (mark : Char) (found : String)
  | badString (text : String)
  | badNumber (text : String)
  | numberAfterMinus
  | nameAfterDot
  | malformed (complaint : Complaint)
  | name (problem : NameProblem)
  deriving DecidableEq, Repr, Inhabited

/-- The wording of a problem, without the text that has it. -/
def Problem.detail : Problem → String
  | .unexpected s => "unexpected " ++ quote s
  | .unexpectedEnd => "unexpected end of type"
  | .expected c s => "expected " ++ quote c.toString ++ ", found " ++ quote s
  | .badString s => "bad string literal " ++ s
  | .badNumber s => "bad number " ++ s
  | .numberAfterMinus => "expected a number after '-'"
  | .nameAfterDot => "expected a name after '.'"
  | .malformed c => c.text
  | .name p => p.text

/-- The wording of a problem in a text.  A problem with a name speaks for itself. -/
def Problem.text (source : String) : Problem → String
  | .name p => p.text
  | p => "type " ++ quote source ++ ": " ++ p.detail

/-! ## Reading off the front -/

/-- A reader takes tokens off the front and returns the rest. -/
abbrev Reader (α : Type) := List Token → Except Problem (α × List Token)

/-- The text of the first token, empty at the end. -/
def frontText : List Token → String
  | [] => ""
  | t :: _ => t.text

/-- The first token is a mark. -/
def atMark (c : Char) : List Token → Bool
  | .mark d :: _ => d == c
  | _ => false

/-- Reads a mark that must be there, after a value. -/
def thenMark (c : Char) (value : α) : Reader α := fun ts =>
  if atMark c ts then .ok (value, ts.tail) else .error (.expected c (frontText ts))

/-- Reads an item after each mark, as long as the mark follows. -/
def readMore (mark : Char) (item : Reader Ty) : Nat → Reader (List Ty)
  | 0, ts => .ok ([], ts)
  | fuel + 1, ts =>
    if atMark mark ts then
      match item ts.tail with
      | .error p => .error p
      | .ok (t, ts) =>
        match readMore mark item fuel ts with
        | .error p => .error p
        | .ok (more, ts) => .ok (t :: more, ts)
    else .ok ([], ts)

/-- One branch stands for itself, and more than one are built together. -/
def gather (build : List Ty → Ty) (first : Ty) (more : List Ty) : Ty :=
  if more.isEmpty then first else build (first :: more)

/-- Reads items with a mark between them. -/
def readBranches (mark : Char) (build : List Ty → Ty) (item : Reader Ty) : Reader Ty := fun ts =>
  match item ts with
  | .error p => .error p
  | .ok (first, ts) =>
    match readMore mark item ts.length ts with
    | .error p => .error p
    | .ok (more, ts) => .ok (gather build first more, ts)

/-- Reads the elements of a tuple up to the mark that ends it.  A comma may stand
after the last one. -/
def readElements (item : Reader Ty) : Nat → Reader (List Ty)
  | 0, ts => .ok ([], ts)
  | fuel + 1, ts =>
    if atMark ']' ts then .ok ([], ts)
    else
      match item ts with
      | .error p => .error p
      | .ok (t, ts) =>
        if atMark ',' ts then
          match readElements item fuel ts.tail with
          | .error p => .error p
          | .ok (more, ts) => .ok (t :: more, ts)
        else .ok ([t], ts)

/-- Reads the dots and names after a name. -/
def readDotted : String → Reader String
  | name, .mark '.' :: .name n :: ts => readDotted (name ++ "." ++ n) ts
  | name, ts => if atMark '.' ts then .error .nameAfterDot else .ok (name, ts)

/-- Reads the pairs of square brackets after a type. -/
def readArrays : Ty → Reader Ty
  | t, .mark '[' :: .mark ']' :: ts => readArrays (.array t) ts
  | t, ts => if atMark '[' ts then .error (.expected ']' (frontText ts.tail)) else .ok (t, ts)

/-- The value of a number token. -/
def numberType (negative : Bool) (text : String) : Except Problem Ty :=
  match Binary64.read? text with
  | some x => .ok (.literal (.number (if negative then x.negate else x)))
  | none => .error (.badNumber text)

/-- The value of a string token. -/
def stringType (text : String) : Except Problem Ty :=
  match unquote? text with
  | some s => .ok (.literal (.string s))
  | none => .error (.badString text)

/-- The type of a name. -/
def nameType (N : Names) (name : String) : Except Problem Ty :=
  match N.resolve name with
  | .ok t => .ok t
  | .error p => .error (.name p)

/-- A value read off the front. -/
def thenRest (ts : List Token) : Except Problem α → Except Problem (α × List Token)
  | .ok a => .ok (a, ts)
  | .error p => .error p

/-! ## The grammar -/

/-- Reads a primary type, with a reader for the unions in brackets. -/
def readPrimary (N : Names) (union : Reader Ty) : Reader Ty
  | .mark '(' :: ts =>
    match union ts with
    | .error p => .error p
    | .ok (t, ts) => thenMark ')' t ts
  | .mark '[' :: ts =>
    match readElements union (ts.length + 1) ts with
    | .error p => .error p
    | .ok (es, ts) => thenMark ']' (.tuple es) ts
  | .quoted s _ :: ts => thenRest ts (stringType s)
  | .mark '-' :: ts =>
    match ts with
    | .number s _ :: ts => thenRest ts (numberType true s)
    | _ => .error .numberAfterMinus
  | .number s _ :: ts => thenRest ts (numberType false s)
  | .name n :: ts =>
    match readDotted n ts with
    | .error p => .error p
    | .ok (name, ts) => thenRest ts (nameType N name)
  | [] => .error .unexpectedEnd
  | t :: _ => .error (.unexpected t.text)

/-- Reads a postfix type. -/
def readPostfix (N : Names) (union : Reader Ty) : Reader Ty := fun ts =>
  match readPrimary N union ts with
  | .error p => .error p
  | .ok (t, ts) => readArrays t ts

/-- Reads a union, with a reader for the unions in brackets. -/
def readUnionWith (N : Names) (union : Reader Ty) : Reader Ty := fun ts =>
  readBranches '|' .union (readBranches '&' .inter (readPostfix N union))
    (if atMark '|' ts then ts.tail else ts)

/-- Reads a union with brackets nested at most so deep. -/
def readUnion (N : Names) : Nat → Reader Ty
  | 0 => fun _ => .error .unexpectedEnd
  | depth + 1 => readUnionWith N (readUnion N depth)

/-- The type of a whole list of tokens. -/
def parseTokens (N : Names) (ts : List Token) : Except Problem Ty :=
  match readUnion N (ts.length + 1) ts with
  | .error p => .error p
  | .ok (_, t :: _) => .error (.unexpected t.text)
  | .ok (t, []) =>
    match ts.findSome? (·.complaint?) with
    | some c => .error (.malformed c)
    | none => .ok t

/-- The type that a text stands for. -/
def parse (N : Names) (source : String) : Except Problem Ty := parseTokens N (tokens source)

end StructuralTyping.TypeSource
