import StructuralTyping.Ty.Basic

/-!
# Identity of types

Two types are the same term when they are built alike, declared names and the
order of branches and members included.  This is finer than structural
equality.  A declared type is the same as itself only, whatever it looks like.

A search over cyclic shapes asks questions about pairs of types and must tell
that a question has come round again.  A declared type can be met again any time
later.  A type that is not declared is a finite term, and the search goes from it
to its parts and never back.  So it is met again only as long as the search stays
at it, and one that looks the same and is met later is another one.
-/

namespace StructuralTyping

mutual

/-- The same pattern. -/
def Pattern.same : Pattern → Pattern → Bool
  | .hole, .hole => true
  | .ident a o, .ident b p => a == b && o == p
  | .array as, .array bs => Pattern.sameList as bs
  | .object as r, .object bs s => Pattern.sameEntries as bs && r.same s
  | .rest a, .rest b => a.same b
  | _, _ => false
termination_by structural p => p

/-- The same patterns in the same order. -/
def Pattern.sameList : List Pattern → List Pattern → Bool
  | [], [] => true
  | a :: as, b :: bs => a.same b && Pattern.sameList as bs
  | _, _ => false
termination_by structural ps => ps

/-- The same entries in the same order. -/
def Pattern.sameEntries : List (PropKey × Pattern) → List (PropKey × Pattern) → Bool
  | [], [] => true
  | a :: as, b :: bs => Pattern.sameEntry a b && Pattern.sameEntries as bs
  | _, _ => false
termination_by structural ps => ps

/-- The same entry. -/
def Pattern.sameEntry : PropKey × Pattern → PropKey × Pattern → Bool
  | (k, a), (l, b) => k == l && a.same b
termination_by structural p => p

end

mutual

/-- The same type. -/
def Ty.same : Ty → Ty → Bool
  | .missing, .missing => true
  | .keyword k, .keyword l => k == l
  | .literal a, .literal b => a == b
  | .array a, .array b => a.same b
  | .tuple as, .tuple bs => Ty.sameList as bs
  | .union as, .union bs => Ty.sameList as bs
  | .inter as, .inter bs => Ty.sameList as bs
  | .object ms, .object ns => Member.sameList ms ns
  | .interface a ts ms es, .interface b us ns fs =>
    a == b && TypeParam.sameList ts us && Member.sameList ms ns && Ty.sameList es fs
  | .classType a ts ms s, .classType b us ns t =>
    a == b && TypeParam.sameList ts us && Member.sameList ms ns && s.same t
  | .function s, .function t => s.same t
  | .ctor s, .ctor t => s.same t
  | .enum a ms c, .enum b ns d => a == b && ms == ns && c == d
  | .variant a m, .variant b n => a == b && m == n
  | .param a s, .param b t => a == b && s.same t
  | .this, .this => true
  | .indexed a i, .indexed b j => a.same b && i.same j
  | .other a, .other b => a == b
  | .regExp, .regExp => true
  | .named a, .named b => a == b
  | _, _ => false
termination_by structural t => t

/-- The same types in the same order. -/
def Ty.sameList : List Ty → List Ty → Bool
  | [], [] => true
  | a :: as, b :: bs => a.same b && Ty.sameList as bs
  | _, _ => false
termination_by structural ts => ts

/-- The same member. -/
def Member.same : Member → Member → Bool
  | .property k a o r, .property l b p s => k == l && o == p && r == s && a.same b
  | .method k o s, .method l p t => k == l && o == p && s.same t
  | .call s, .call t => s.same t
  | .construct s, .construct t => s.same t
  | .index p k a r, .index q l b s => p == q && r == s && k.same l && a.same b
  | _, _ => false
termination_by structural m => m

/-- The same members in the same order. -/
def Member.sameList : List Member → List Member → Bool
  | [], [] => true
  | a :: as, b :: bs => a.same b && Member.sameList as bs
  | _, _ => false
termination_by structural ms => ms

/-- The same signature. -/
def Signature.same : Signature → Signature → Bool
  | .absent, .absent => true
  | .mk ts ps r, .mk us qs s => TypeParam.sameList ts us && Param.sameList ps qs && r.same s
  | _, _ => false
termination_by structural s => s

/-- The same parameter. -/
def Param.same : Param → Param → Bool
  | ⟨p, a⟩, ⟨q, b⟩ => p.same q && a.same b
termination_by structural p => p

/-- The same parameters in the same order. -/
def Param.sameList : List Param → List Param → Bool
  | [], [] => true
  | a :: as, b :: bs => a.same b && Param.sameList as bs
  | _, _ => false
termination_by structural ps => ps

/-- The same type parameter. -/
def TypeParam.same : TypeParam → TypeParam → Bool
  | ⟨a, s⟩, ⟨b, t⟩ => a == b && s.same t
termination_by structural t => t

/-- The same type parameters in the same order. -/
def TypeParam.sameList : List TypeParam → List TypeParam → Bool
  | [], [] => true
  | a :: as, b :: bs => a.same b && TypeParam.sameList as bs
  | _, _ => false
termination_by structural ts => ts

end

instance : BEq Ty := ⟨Ty.same⟩
instance : BEq Member := ⟨Member.same⟩

/-- A pair of types, the question of a search. -/
abbrev Pair := Ty × Ty

/-- The use of a declared name. -/
def Ty.isNamed : Ty → Bool
  | .named _ => true
  | _ => false

/-- A type that the search was at may still be the one it is at now. -/
def Ty.staysFrom (t earlier : Ty) : Bool := t.isNamed || earlier.same t

/-- The question is among those that are still open, the latest one first.  The
questions from before the search came to a type that is not declared are left
out. -/
def isOpen (opened : List Pair) (a b : Ty) : Bool :=
  (opened.takeWhile fun p => a.staysFrom p.1 && b.staysFrom p.2).any fun p =>
    p.1.same a && p.2.same b

/-- A question that counts as open is one of those given. -/
theorem exists_mem_of_isOpen {opened : List Pair} {a b : Ty} (h : isOpen opened a b = true) :
    ∃ p ∈ opened, p.1.same a = true ∧ p.2.same b = true := by
  obtain ⟨p, hp, hs⟩ := List.any_eq_true.1 h
  exact ⟨p, (List.takeWhile_sublist _).mem hp, by simpa using hs⟩

end StructuralTyping
