import StructuralTyping.Ty.Basic

/-!
# Declaring the parts of types

A type that is bound to a name may be used many times, and then its parts are
the same parts every time.  Two types that merely look alike have parts of their
own.  `Ty.declare` makes the difference visible: it declares every part under a
number that no other part has, and puts the number in the place of the part.
What is left of a type then is one layer, whose parts are declared names or
leaves.

Numbers are handed out in order.  `Decls.declare` takes the number of
declarations as the next one, so a number is never handed out twice.
-/

namespace StructuralTyping

/-! ## One declaration -/

/-- Work that adds declarations. -/
abbrev Declaring := StateM Decls

namespace Decls

/-- The table with one more declaration, which hides an earlier one of its name. -/
def add (D : Decls) (name : TypeName) (t : Ty) : Decls := ⟨(name, t) :: D.entries⟩

/-- Declares a type under the next number. -/
def declare (D : Decls) (t : Ty) : Ty × Decls := (.named (.part D.size), D.add (.part D.size) t)

end Decls

/-! ## All parts -/

namespace Ty

/-- A type without parts, or the use of a declared name. -/
def isLeaf : Ty → Bool
  | .missing | .keyword _ | .literal _ | .enum _ _ _ | .variant _ _ | .this | .other _ | .regExp
  | .named _ => true
  | _ => false

/-- Declares a type unless it is a leaf. -/
def declareNode (t : Ty) : Declaring Ty := if t.isLeaf then pure t else fun D => D.declare t

end Ty

mutual

/-- The type with its parts declared, but not itself. -/
def Ty.declareParts : Ty → Declaring Ty
  | .missing => pure .missing
  | .keyword k => pure (.keyword k)
  | .literal l => pure (.literal l)
  | .array e => do return .array (← (← e.declareParts).declareNode)
  | .tuple es => do return .tuple (← Ty.declareList es)
  | .union bs => do return .union (← Ty.declareList bs)
  | .inter bs => do return .inter (← Ty.declareList bs)
  | .object ms => do return .object (← Member.declareList ms)
  | .interface name ts ms bs => do
    return .interface name (← TypeParam.declareList ts) (← Member.declareList ms)
      (← Ty.declareList bs)
  | .classType name ts ms b => do
    return .classType name (← TypeParam.declareList ts) (← Member.declareList ms)
      (← (← b.declareParts).declareNode)
  | .function s => do return .function (← s.declareParts)
  | .ctor s => do return .ctor (← s.declareParts)
  | .enum name ms c => pure (.enum name ms c)
  | .variant e m => pure (.variant e m)
  | .param name b => do return .param name (← (← b.declareParts).declareNode)
  | .this => pure .this
  | .indexed o i => do
    return .indexed (← (← o.declareParts).declareNode) (← (← i.declareParts).declareNode)
  | .other raw => pure (.other raw)
  | .regExp => pure .regExp
  | .named n => pure (.named n)
termination_by structural t => t

/-- The types declared, one after the other. -/
def Ty.declareList : List Ty → Declaring (List Ty)
  | [] => pure []
  | t :: ts => do return (← (← t.declareParts).declareNode) :: (← Ty.declareList ts)
termination_by structural ts => ts

/-- The member with its parts declared. -/
def Member.declareParts : Member → Declaring Member
  | .property k t o r => do return .property k (← (← t.declareParts).declareNode) o r
  | .method k o s => do return .method k o (← s.declareParts)
  | .call s => do return .call (← s.declareParts)
  | .construct s => do return .construct (← s.declareParts)
  | .index p k t r => do
    return .index p (← (← k.declareParts).declareNode) (← (← t.declareParts).declareNode) r
termination_by structural m => m

/-- The members with their parts declared, one after the other. -/
def Member.declareList : List Member → Declaring (List Member)
  | [] => pure []
  | m :: ms => do return (← m.declareParts) :: (← Member.declareList ms)
termination_by structural ms => ms

/-- The signature with its parts declared. -/
def Signature.declareParts : Signature → Declaring Signature
  | .absent => pure .absent
  | .mk ts ps r => do
    return .mk (← TypeParam.declareList ts) (← Param.declareList ps)
      (← (← r.declareParts).declareNode)
termination_by structural s => s

/-- The parameter with its type declared. -/
def Param.declareParts : Param → Declaring Param
  | ⟨p, t⟩ => do return ⟨p, ← (← t.declareParts).declareNode⟩
termination_by structural p => p

/-- The parameters with their types declared, one after the other. -/
def Param.declareList : List Param → Declaring (List Param)
  | [] => pure []
  | p :: ps => do return (← p.declareParts) :: (← Param.declareList ps)
termination_by structural ps => ps

/-- The type parameter with its bound declared. -/
def TypeParam.declareParts : TypeParam → Declaring TypeParam
  | ⟨name, b⟩ => do return ⟨name, ← (← b.declareParts).declareNode⟩
termination_by structural t => t

/-- The type parameters with their bounds declared, one after the other. -/
def TypeParam.declareList : List TypeParam → Declaring (List TypeParam)
  | [] => pure []
  | t :: ts => do return (← t.declareParts) :: (← TypeParam.declareList ts)
termination_by structural ts => ts

end

/-- Declares a type and all its parts. -/
def Ty.declare (t : Ty) : Declaring Ty := do (← t.declareParts).declareNode

/-- Declares the types of bindings, one after the other. -/
def declareBindings : List (String × Ty) → Declaring (List (String × Ty))
  | [] => pure []
  | (name, t) :: rest => do return (name, ← t.declare) :: (← declareBindings rest)

/-! ## Definitions -/

namespace Decls

/-- Adds the definition of a name, with its parts declared. -/
def define (D : Decls) (name : String) (t : Ty) : Decls :=
  let (t, D) := t.declareParts.run D
  D.add (.given name) t

/-- The table of definitions, which may mention each other and themselves. -/
def ofDefinitions (definitions : List (String × Ty)) : Decls :=
  definitions.foldl (fun D (name, t) => D.define name t) {}

end Decls

end StructuralTyping
