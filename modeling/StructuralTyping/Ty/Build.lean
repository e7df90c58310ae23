import StructuralTyping.Text.Pieces
import StructuralTyping.Ty.Basic

/-!
# Building signatures and shapes

A signature starts with its parameters and no result.  An object shape grows by
one member at a time, and the shape it grew from stays as it was.
-/

namespace StructuralTyping

namespace Signature

/-- A signature with the given parameters that returns nothing useful. -/
def ofParams (ps : List Param) : Signature := .mk [] ps .void

/-- The signature with another result. -/
def returning (s : Signature) (t : Ty) : Signature := .mk s.typeParams s.params t

/-- The signature with other type parameters. -/
def withTypeParams (s : Signature) (ts : List TypeParam) : Signature := .mk ts s.params s.result

end Signature

/-- A parameter by name.  A name after three dots takes all remaining arguments. -/
def Param.ofName (name : String) (t : Ty) : Param :=
  match afterBeginning? "..." name with
  | some rest => .restOf rest t
  | none => .plain name t

namespace Member

/-- A required property. -/
def required (name : String) (t : Ty) : Member := .property ⟨name, false⟩ t false false

/-- A property that may be left out. -/
def omissible (name : String) (t : Ty) : Member := .property ⟨name, false⟩ t true false

/-- A property that cannot be assigned to. -/
def fixed (name : String) (t : Ty) : Member := .property ⟨name, false⟩ t false true

/-- A method. -/
def methodNamed (name : String) (s : Signature) : Member := .method ⟨name, false⟩ false s

end Member

/-- The object shape with one more member at the end. -/
def Ty.extend (t : Ty) (m : Member) : Ty :=
  match t with
  | .object ms => .object (ms ++ [m])
  | _ => .object [m]

end StructuralTyping
