import StructuralTyping.Ty.Equal

/-!
# Unions and intersections

`Decls.join` makes the union of types.  It flattens nested unions, drops
missing types and `never`, and keeps the first of each class of equal branches.
`Decls.meet` makes the intersection.  It flattens nested intersections, and
then `any` absorbs the rest, and after it `never`.

Both walk the term to its leaves and ask for the leaves of a declared name.  A
name whose declaration is itself flattened is followed, any other name is a
leaf.  The number of declarations bounds the names followed in a row.
-/

namespace StructuralTyping

/-! ## Leaves -/

mutual

/-- The branches of nested unions, missing ones and `never` dropped. -/
def Ty.unionLeaves (nameLeaves : TypeName → List Ty) : Ty → List Ty
  | .missing => []
  | .union bs => Ty.unionLeavesList nameLeaves bs
  | .keyword k => if k == .never then [] else [.keyword k]
  | .named n => nameLeaves n
  | t => [t]
termination_by structural t => t

/-- The branches of nested unions, one type after the other. -/
def Ty.unionLeavesList (nameLeaves : TypeName → List Ty) : List Ty → List Ty
  | [] => []
  | t :: ts => t.unionLeaves nameLeaves ++ Ty.unionLeavesList nameLeaves ts
termination_by structural ts => ts

end

mutual

/-- The branches of nested intersections, missing ones dropped. -/
def Ty.interLeaves (nameLeaves : TypeName → List Ty) : Ty → List Ty
  | .missing => []
  | .inter bs => Ty.interLeavesList nameLeaves bs
  | .named n => nameLeaves n
  | t => [t]
termination_by structural t => t

/-- The branches of nested intersections, one type after the other. -/
def Ty.interLeavesList (nameLeaves : TypeName → List Ty) : List Ty → List Ty
  | [] => []
  | t :: ts => t.interLeaves nameLeaves ++ Ty.interLeavesList nameLeaves ts
termination_by structural ts => ts

end

namespace Decls

/-- The leaves of a declared name in a union. -/
def unionNameLeaves (D : Decls) : Nat → TypeName → List Ty
  | 0, n => [.named n]
  | fuel + 1, n =>
    match D.find? n with
    | some (.union bs) => Ty.unionLeavesList (D.unionNameLeaves fuel) bs
    | some t => if D.isNever t || t.isMissing then [] else [.named n]
    | none => []

/-- The leaves of a declared name in an intersection. -/
def interNameLeaves (D : Decls) : Nat → TypeName → List Ty
  | 0, n => [.named n]
  | fuel + 1, n =>
    match D.find? n with
    | some (.inter bs) => Ty.interLeavesList (D.interNameLeaves fuel) bs
    | some t => if t.isMissing then [] else [.named n]
    | none => []

/-- The leaves of types that are joined. -/
def unionLeaves (D : Decls) (ts : List Ty) : List Ty :=
  Ty.unionLeavesList (D.unionNameLeaves D.size) ts

/-- The leaves of types that meet. -/
def interLeaves (D : Decls) (ts : List Ty) : List Ty :=
  Ty.interLeavesList (D.interNameLeaves D.size) ts

/-! ## Joining and meeting -/

/-- Adds a branch at the end unless an equal one is there. -/
def addBranch (D : Decls) (kept : List Ty) (t : Ty) : List Ty :=
  if kept.any (D.equal · t) then kept else kept ++ [t]

/-- The first of each class of equal types, in order. -/
def distinct (D : Decls) (ts : List Ty) : List Ty := ts.foldl D.addBranch []

/-- The union of types. -/
def join (D : Decls) (ts : List Ty) : Ty :=
  match D.distinct (D.unionLeaves ts) with
  | [] => .never
  | [t] => t
  | bs => .union bs

/-- The intersection of types. -/
def meet (D : Decls) (ts : List Ty) : Ty :=
  match D.distinct (D.interLeaves ts) with
  | [] => .any
  | [t] => t
  | bs =>
    if bs.any (D.isKeyword · .any) then .any
    else if bs.any D.isNever then .never
    else .inter bs

end Decls

end StructuralTyping
