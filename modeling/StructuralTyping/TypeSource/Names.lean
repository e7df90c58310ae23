import StructuralTyping.Ty.Text

/-!
# Names in type source

A name in type source is a type parameter of an enclosing signature, a literal
or keyword, a declared type, or a member of a declared enum.  `Names.resolve`
looks in this order.
-/

namespace StructuralTyping.TypeSource

/-- The names that type source may use.  The scopes of type parameters are listed
from the innermost, and later entries come first in each list. -/
structure Names where
  typeParams : List (List (String × Ty)) := []
  declared : List (String × Ty) := []

/-- Why a name stands for no type. -/
inductive NameProblem where
  | unknown (name : String)
  | noMember (enumName member : String)
  deriving DecidableEq, Repr, Inhabited

/-- The wording of a problem with a name. -/
def NameProblem.text : NameProblem → String
  | .unknown n => "unknown type name " ++ quote n
  | .noMember e m => "enum " ++ e ++ " has no member " ++ m

namespace Names

/-- The names with one more declaration, which hides an earlier one. -/
def declare (N : Names) (name : String) (t : Ty) : Names :=
  { N with declared := (name, t) :: N.declared }

/-- The scope that declares type parameters.  The last one of a name counts. -/
def scopeOf (ts : List TypeParam) : List (String × Ty) :=
  (ts.map fun t => (t.name, Ty.param t.name t.bound)).reverse

/-- The names inside a signature with type parameters. -/
def enter (N : Names) (ts : List TypeParam) : Names :=
  { N with typeParams := scopeOf ts :: N.typeParams }

/-- The type parameter with a name, from the innermost scope that has one. -/
def typeParam? (N : Names) (name : String) : Option Ty := N.typeParams.findSome? (·.lookup name)

/-- The types that are written by a fixed name. -/
def builtin? (name : String) : Option Ty :=
  match name with
  | "true" => some (.literal (.bool true))
  | "false" => some (.literal (.bool false))
  | "this" => some .this
  | "RegExp" => some .regExp
  | _ => (Keyword.ofText? name).map .keyword

/-- A member of a declared enum, written with a dot. -/
def member (N : Names) (name : String) : Except NameProblem Ty :=
  match cutText? "." name with
  | none => .error (.unknown name)
  | some (enumName, memberName) =>
    match N.declared.lookup enumName with
    | some (.enum n ms _) =>
      match enumVariant? n ms memberName with
      | some t => .ok t
      | none => .error (.noMember enumName memberName)
    | _ => .error (.unknown name)

/-- The type that a name stands for. -/
def resolve (N : Names) (name : String) : Except NameProblem Ty :=
  match (N.typeParam? name).or ((builtin? name).or (N.declared.lookup name)) with
  | some t => .ok t
  | none => N.member name

end Names

end StructuralTyping.TypeSource
