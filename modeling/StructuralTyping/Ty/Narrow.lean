import StructuralTyping.Ty.Join

/-!
# Widening and narrowing

A literal widens to its keyword.  Narrowing removes the branches that cannot
occur after a test, and rebuilds the unions and intersections around them.  The
predicates look through union branches and hold as soon as one branch matches.
-/

namespace StructuralTyping

namespace Decls

/-! ## Widening -/

/-- A literal as its keyword, and every other type as it is. -/
def widen (D : Decls) (t : Ty) : Ty :=
  match D.head t with
  | .literal l => .keyword l.keyword
  | _ => t

/-- The type of the negation of a value. -/
def negate (D : Decls) (t : Ty) : Ty :=
  match D.head t with
  | .literal l => .literal (.bool (!l.truthy))
  | _ => .boolean

end Decls

/-! ## Predicates -/

mutual

/-- Some branch is a keyword that satisfies a test. -/
def Ty.hasBranch (nameHas : TypeName → Bool) (p : Keyword → Bool) : Ty → Bool
  | .keyword k => p k
  | .union bs => Ty.hasBranchList nameHas p bs
  | .named n => nameHas n
  | _ => false
termination_by structural t => t

/-- Some branch of some type is a keyword that satisfies a test. -/
def Ty.hasBranchList (nameHas : TypeName → Bool) (p : Keyword → Bool) : List Ty → Bool
  | [] => false
  | t :: ts => t.hasBranch nameHas p || Ty.hasBranchList nameHas p ts
termination_by structural ts => ts

end

namespace Decls

/-- Some branch of a declared name is a keyword that satisfies a test. -/
def nameHasBranch (D : Decls) (p : Keyword → Bool) : Nat → TypeName → Bool
  | 0, _ => false
  | fuel + 1, n => ((D.find? n).getD .missing).hasBranch (D.nameHasBranch p fuel) p

/-- Some branch of a type is the given keyword. -/
def hasBranch (D : Decls) (k : Keyword) (t : Ty) : Bool :=
  t.hasBranch (D.nameHasBranch (· == k) D.size) (· == k)

/-- The type is `any`, has such a branch, or is missing. -/
def isAny (D : Decls) (t : Ty) : Bool := t.isMissing || D.hasBranch .any t

/-- The type is `unknown`, has such a branch, or is missing. -/
def isUnknown (D : Decls) (t : Ty) : Bool := t.isMissing || D.hasBranch .unknown t

/-- The type is `undefined`, has such a branch, or is missing. -/
def containsUndefined (D : Decls) (t : Ty) : Bool := t.isMissing || D.hasBranch .undefined t

/-- The type is `void` or has such a branch. -/
def containsVoid (D : Decls) (t : Ty) : Bool := D.hasBranch .void t

end Decls

/-! ## Narrowing -/

mutual

/-- The type without the leaves that `drops` selects. -/
def Ty.without (D : Decls) (nameWithout : TypeName → Ty) (drops : Ty → Bool) : Ty → Ty
  | .union bs => D.join ((Ty.withoutList D nameWithout drops bs).filter fun b => !D.isNever b)
  | .inter bs =>
    let kept := Ty.withoutList D nameWithout drops bs
    if kept.any D.isNever then .never else D.meet kept
  | .named n => nameWithout n
  | t => if drops t then .never else t
termination_by structural t => t

/-- The types without the leaves that `drops` selects. -/
def Ty.withoutList (D : Decls) (nameWithout : TypeName → Ty) (drops : Ty → Bool) : List Ty → List Ty
  | [] => []
  | t :: ts => t.without D nameWithout drops :: Ty.withoutList D nameWithout drops ts
termination_by structural ts => ts

end

namespace Decls

/-- A declared name without the leaves that `drops` selects. -/
def nameWithout (D : Decls) (drops : Ty → Bool) : Nat → TypeName → Ty
  | 0, n => .named n
  | fuel + 1, n =>
    match D.find? n with
    | some (.union bs) => (Ty.union bs).without D (D.nameWithout drops fuel) drops
    | some (.inter bs) => (Ty.inter bs).without D (D.nameWithout drops fuel) drops
    | some t => if drops t then .never else .named n
    | none => .named n

/-- The type without the leaves that `drops` selects.  Union branches that
become `never` are dropped, and an intersection with such a branch is `never`. -/
def without (D : Decls) (drops : Ty → Bool) (t : Ty) : Ty :=
  t.without D (D.nameWithout drops D.size) drops

end Decls

/-- `null` and `undefined`. -/
def isNullish : Ty → Bool
  | .keyword .null => true
  | .keyword .undefined => true
  | _ => false

/-- The leaves that can only be false when tested. -/
def isFalsy : Ty → Bool
  | .literal (.bool false) => true
  | t => isNullish t

/-- The leaves that can only be true when tested. -/
def isTrue : Ty → Bool
  | .literal (.bool true) => true
  | _ => false

namespace Decls

/-- What remains when a test succeeds. -/
def removeFalsy (D : Decls) (t : Ty) : Ty := D.without isFalsy t

/-- What remains when a test fails. -/
def removeTruthy (D : Decls) (t : Ty) : Ty := D.without isTrue t

/-- What remains when `null` and `undefined` are excluded. -/
def removeNullish (D : Decls) (t : Ty) : Ty := D.without isNullish t

end Decls

end StructuralTyping
