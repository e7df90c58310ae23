import StructuralTyping.Number.Shortest
import StructuralTyping.Text.Pieces
import StructuralTyping.Text.Quoted
import StructuralTyping.Ty.Basic

/-!
# The text of types

Types are shown as they would be written in source.  Interfaces, classes, enums
and type parameters are shown by name, so the text of a cyclic shape is finite
whenever each of its cycles passes through a name.

`Ty.textWith` follows the term and asks for the text of a declared name.
`Decls.text` answers by the declarations.  A chain of declared names that are
shown by their shape visits each name once, so the number of declarations
bounds the answers.
-/

namespace StructuralTyping

/-! ## Leaves -/

/-- The spelling of a keyword. -/
def Keyword.text : Keyword → String
  | .any => "any"
  | .unknown => "unknown"
  | .string => "string"
  | .number => "number"
  | .boolean => "boolean"
  | .bigint => "bigint"
  | .symbol => "symbol"
  | .void => "void"
  | .null => "null"
  | .undefined => "undefined"
  | .object => "object"
  | .never => "never"
  | .numbered i => "keyword(" ++ intText i ++ ")"

/-- The known keyword with a spelling. -/
def Keyword.ofText? (name : String) : Option Keyword := Keyword.known.find? (·.text == name)

/-- The spellings of infinite numbers as types. -/
def Literal.numberNames : NumberNames := ⟨"NaN", "Infinity", "-Infinity"⟩

/-- The text of a truth value. -/
def boolText (b : Bool) : String := if b then "true" else "false"

/-- The text of a literal type. -/
def Literal.text : Literal → String
  | .bool b => boolText b
  | .number x => x.textWith Literal.numberNames
  | .string s => quote s

/-- The text of a key, with brackets around a computed one. -/
def PropKey.text (k : PropKey) : String := if k.computed then "[" ++ k.name ++ "]" else k.name

/-- The text of the name of a declaration. -/
def TypeName.text : TypeName → String
  | .given name => name
  | .part number => "#" ++ intText number

/-- Text between round brackets. -/
def parenthesized (s : String) : String := "(" ++ s ++ ")"

/-- Parts between braces, with a blank inside each brace. -/
def braced (sep : String) (parts : List String) : String :=
  "\x7b " ++ joinText sep parts ++ " \x7d"

mutual

/-- The text of a pattern. -/
def Pattern.text : Pattern → String
  | .hole => ""
  | .ident name isOptional => if isOptional then name ++ "?" else name
  | .array es => "[" ++ joinText ", " (Pattern.texts es) ++ "]"
  | .object entries remaining =>
    let last := if remaining.isHole then [] else ["..." ++ remaining.text]
    braced ", " (Pattern.entryTexts entries ++ last)
  | .rest a => "..." ++ a.text
termination_by structural p => p

/-- The texts of patterns. -/
def Pattern.texts : List Pattern → List String
  | [] => []
  | p :: ps => p.text :: Pattern.texts ps
termination_by structural ps => ps

/-- The texts of the entries of an object pattern. -/
def Pattern.entryTexts : List (PropKey × Pattern) → List String
  | [] => []
  | e :: es => Pattern.entryText e :: Pattern.entryTexts es
termination_by structural es => es

/-- An entry that binds a name to itself is shown by its key. -/
def Pattern.entryText : PropKey × Pattern → String
  | (k, p) =>
    let full := k.text ++ ": " ++ p.text
    match p with
    | .ident name _ => if !k.computed && name == k.name then k.text else full
    | _ => full
termination_by structural e => e

end

/-! ## Types -/

namespace Decls

/-- A type that needs brackets before `[]`. -/
def wrapsPostfix (D : Decls) (t : Ty) : Bool :=
  match D.head t with
  | .union _ | .inter _ | .function _ | .ctor _ => true
  | _ => false

/-- A type that needs brackets as a union branch. -/
def wrapsInUnion (D : Decls) (t : Ty) : Bool :=
  match D.head t with
  | .function _ => true
  | _ => false

/-- A type that needs brackets as an intersection branch. -/
def wrapsInInter (D : Decls) (t : Ty) : Bool :=
  match D.head t with
  | .union _ | .function _ => true
  | _ => false

end Decls

/-- Brackets around a text when they are needed. -/
def wrapIf (b : Bool) (s : String) : String := if b then parenthesized s else s

/-- Member texts between braces. -/
def bodyText (parts : List String) : String :=
  if parts.isEmpty then "\x7b\x7d" else braced "; " parts

mutual

/-- The text of a type, given the text of each declared name. -/
def Ty.textWith (D : Decls) (nameText : TypeName → String) : Ty → String
  | .missing => "<nil>"
  | .keyword k => k.text
  | .literal l => l.text
  | .array e => wrapIf (D.wrapsPostfix e) (e.textWith D nameText) ++ "[]"
  | .tuple es => "[" ++ joinText ", " (Ty.textsWith D nameText (fun _ => false) es) ++ "]"
  | .union bs =>
    if bs.isEmpty then "never" else joinText " | " (Ty.textsWith D nameText D.wrapsInUnion bs)
  | .inter bs =>
    if bs.isEmpty then "unknown" else joinText " & " (Ty.textsWith D nameText D.wrapsInInter bs)
  | .object ms => bodyText (Member.textsWith D nameText ms)
  | .interface name _ _ _ => name
  | .classType name _ _ _ => "class " ++ name
  | .function s => s.textWith D nameText " => "
  | .ctor s => "new " ++ s.textWith D nameText " => "
  | .enum name _ _ => name
  | .variant e m => e ++ "." ++ m
  | .param name _ => name
  | .this => "this"
  | .indexed o i =>
    wrapIf (D.wrapsPostfix o) (o.textWith D nameText) ++ "[" ++ i.textWith D nameText ++ "]"
  | .other raw => raw
  | .regExp => "RegExp"
  | .named n => nameText n
termination_by structural t => t

/-- The texts of types, with brackets around those that need them. -/
def Ty.textsWith (D : Decls) (nameText : TypeName → String) (wraps : Ty → Bool) :
    List Ty → List String
  | [] => []
  | t :: ts => wrapIf (wraps t) (t.textWith D nameText) :: Ty.textsWith D nameText wraps ts
termination_by structural ts => ts

/-- The text of a member. -/
def Member.textWith (D : Decls) (nameText : TypeName → String) : Member → String
  | .property k t isOptional isReadonly =>
    (if isReadonly then "readonly " else "") ++ k.text ++ (if isOptional then "?" else "")
      ++ (if t.isMissing then "" else ": " ++ t.textWith D nameText)
  | .method k isOptional s =>
    k.text ++ (if isOptional then "?" else "") ++ s.textWith D nameText ": "
  | .call s => s.textWith D nameText ": "
  | .construct s => "new " ++ s.textWith D nameText ": "
  | .index p k t isReadonly =>
    let keyText := if k.isMissing then "any" else k.textWith D nameText
    let valueText := if t.isMissing then "any" else t.textWith D nameText
    (if isReadonly then "readonly " else "") ++ "[" ++ p ++ ": " ++ keyText ++ "]: " ++ valueText
termination_by structural m => m

/-- The texts of members. -/
def Member.textsWith (D : Decls) (nameText : TypeName → String) : List Member → List String
  | [] => []
  | m :: ms => m.textWith D nameText :: Member.textsWith D nameText ms
termination_by structural ms => ms

/-- The text of a signature with the given mark before its result. -/
def Signature.textWith (D : Decls) (nameText : TypeName → String) (arrow : String) :
    Signature → String
  | .absent => ""
  | .mk ts ps r =>
    (if ts.isEmpty then "" else "<" ++ joinText ", " (TypeParam.textsWith D nameText ts) ++ ">")
      ++ parenthesized (joinText ", " (Param.textsWith D nameText ps))
      ++ arrow ++ (if r.isMissing then "any" else r.textWith D nameText)
termination_by structural s => s

/-- The text of a parameter. -/
def Param.textWith (D : Decls) (nameText : TypeName → String) : Param → String
  | ⟨p, t⟩ =>
    (if p.isHole then "_" else p.text) ++
      (if t.isMissing then "" else ": " ++ t.textWith D nameText)
termination_by structural p => p

/-- The texts of parameters. -/
def Param.textsWith (D : Decls) (nameText : TypeName → String) : List Param → List String
  | [] => []
  | p :: ps => p.textWith D nameText :: Param.textsWith D nameText ps
termination_by structural ps => ps

/-- A type parameter as it is declared. -/
def TypeParam.textWith (D : Decls) (nameText : TypeName → String) : TypeParam → String
  | ⟨name, bound⟩ =>
    if bound.isMissing then name else name ++ " extends " ++ bound.textWith D nameText
termination_by structural t => t

/-- Type parameters as they are declared. -/
def TypeParam.textsWith (D : Decls) (nameText : TypeName → String) : List TypeParam → List String
  | [] => []
  | t :: ts => t.textWith D nameText :: TypeParam.textsWith D nameText ts
termination_by structural ts => ts

end

namespace Decls

/-- The text of a declared name.  `fuel` bounds the chain of names followed. -/
def nameText (D : Decls) : Nat → TypeName → String
  | 0, n => n.text
  | fuel + 1, n => ((D.find? n).getD .missing).textWith D (D.nameText fuel)

/-- The answers that a finite text can ask for. -/
def names (D : Decls) : TypeName → String := D.nameText D.size

/-- The text of a type. -/
def text (D : Decls) (t : Ty) : String := t.textWith D D.names

/-- The text of a member. -/
def memberText (D : Decls) (m : Member) : String := m.textWith D D.names

/-- The text of a signature as it stands in a function type. -/
def signatureText (D : Decls) (s : Signature) : String := s.textWith D D.names " => "

/-- The text of a parameter. -/
def paramText (D : Decls) (p : Param) : String := p.textWith D D.names

/-- The text of a type parameter as it is declared. -/
def declarationText (D : Decls) (p : TypeParam) : String := p.textWith D D.names

/-- The text of a list of members. -/
def membersText (D : Decls) (ms : List Member) : String := bodyText (Member.textsWith D D.names ms)

/-- The text of a type in a message.  A missing type has a mark of its own. -/
def messageText (D : Decls) (t : Ty) : String := if t.isMissing then "%!s(<nil>)" else D.text t

end Decls

/-! ## Enums -/

/-- An enum as the union of its members. -/
def enumText (name : String) (members : List String) : String :=
  joinText " | " (members.map fun m => name ++ "." ++ m)

/-- The variant of an enum for a member it has. -/
def enumVariant? (name : String) (members : List String) (member : String) : Option Ty :=
  if members.contains member then some (.variant name member) else none

end StructuralTyping
