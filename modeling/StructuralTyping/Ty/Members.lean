import StructuralTyping.Ty.Basic

/-!
# Members of object shapes

Object types, interfaces and classes have members.  An interface inherits the
members of its bases and a class those of its base.  The walk over the bases is
cut at a fixed depth, so it ends on a hierarchy that mentions itself.
-/

namespace StructuralTyping

/-- The depth that bounds walks over types by default. -/
def defaultMaxDepth : Nat := 64

namespace Member

/-- The key of a named member. -/
def key? : Member → Option PropKey
  | .property k _ _ _ => some k
  | .method k _ _ => some k
  | .call _ | .construct _ | .index _ _ _ _ => none

/-- The member may be left out. -/
def isOptional : Member → Bool
  | .property _ _ o _ => o
  | .method _ o _ => o
  | .call _ | .construct _ | .index _ _ _ _ => false

/-- The signature of a construct member. -/
def construct? : Member → Option Signature
  | .construct s => some s
  | _ => none

/-- The signature of a call member. -/
def call? : Member → Option Signature
  | .call s => some s
  | _ => none

end Member

/-- The members with a given key, in order. -/
def findMembers (ms : List Member) (key : PropKey) : List Member := ms.filter (·.key? == some key)

/-- The members found are those with the key. -/
theorem mem_findMembers {ms : List Member} {key : PropKey} {m : Member} :
    m ∈ findMembers ms key ↔ m ∈ ms ∧ m.key? = some key := by
  simp [findMembers]

/-- The construct signatures among members, in order. -/
def constructSignatures (ms : List Member) : List Signature := ms.filterMap (·.construct?)

namespace Ty

/-- The members that a shape declares itself.  None when it is no object shape. -/
def ownMembers? : Ty → Option (List Member)
  | .object ms => some ms
  | .interface _ _ ms _ => some ms
  | .classType _ _ ms _ => some ms
  | _ => none

/-- The types that a shape inherits from. -/
def bases : Ty → List Ty
  | .interface _ _ _ bs => bs
  | .classType _ _ _ b => if b.isMissing then [] else [b]
  | _ => []

end Ty

namespace Decls

/-- The members that the head of a type declares itself. -/
def membersOf? (D : Decls) (t : Ty) : Option (List Member) := (D.head t).ownMembers?

/-- Own members first, then those of the bases in order.  `fuel` bounds the
steps from a shape to a base. -/
def membersWithin? (D : Decls) : Nat → Ty → Option (List Member)
  | 0, t => D.membersOf? t
  | fuel + 1, t =>
    (D.membersOf? t).map fun own =>
      own ++ (D.head t).bases.flatMap fun b => (D.membersWithin? fuel b).getD []

/-- Whether a type has members does not hang on its bases. -/
theorem isSome_membersWithin? (D : Decls) (fuel : Nat) (t : Ty) :
    (D.membersWithin? fuel t).isSome = (D.membersOf? t).isSome := by
  cases fuel <;> simp [membersWithin?]

/-- Own and inherited members. -/
def allMembers? (D : Decls) (t : Ty) : Option (List Member) :=
  D.membersWithin? (defaultMaxDepth + 1) t

/-- An object type inherits no members. -/
theorem allMembers?_of_object {D : Decls} {t : Ty} {ms : List Member} (ht : D.head t = .object ms) :
    D.allMembers? t = some ms := by
  simp [allMembers?, membersWithin?, membersOf?, ht, Ty.ownMembers?, Ty.bases]

end Decls

end StructuralTyping
