import StructuralTyping.Ty.Identity

/-!
# Structural equality

Two types are equal when they are built alike.  Union and intersection branches
and the members of object shapes are compared as multisets, everything else in
order.  Names take part in one comparison and are ignored in the other.

A pair that is met again while it is still being compared counts as equal, so
cyclic shapes are compared by their unfoldings.  The comparison is cut at a
fixed depth, and what lies deeper counts as different.

The greedy matching of multisets never takes a choice back.  That is enough
because equality is symmetric and transitive.
-/

namespace StructuralTyping

/-- The greatest depth that a comparison reaches. -/
def maxEqualDepth : Nat := 256

/-! ## Multisets

The elements on the right-hand side carry a flag that says whether they are used. -/

/-- Uses the first element that is not used yet and satisfies a test. -/
def useFirst? (p : α → Bool) : List (α × Bool) → Option (List (α × Bool))
  | [] => none
  | (x, used) :: xs =>
    if !used && p x then some ((x, true) :: xs) else (useFirst? p xs).map ((x, used) :: ·)

/-- Pairs each element with the first unused one that it equals. -/
def matchEach (eq : α → β → Bool) : List α → List (β × Bool) → Bool
  | [], _ => true
  | x :: xs, ys =>
    match useFirst? (eq x) ys with
    | some ys => matchEach eq xs ys
    | none => false

/-- Equal as multisets. -/
def matchAll (eq : α → β → Bool) (xs : List α) (ys : List β) : Bool :=
  xs.length == ys.length && matchEach eq xs (ys.map (·, false))

/-- Equal element by element. -/
def equalEach (eq : α → β → Bool) : List α → List β → Bool
  | [], [] => true
  | x :: xs, y :: ys => eq x y && equalEach eq xs ys
  | _, _ => false

/-! ## Names and patterns -/

/-- Equal names, or any names when they are ignored. -/
def equalName (names : Bool) (a b : String) : Bool := !names || a == b

/-- Equal keys.  Whether a key is computed is never ignored. -/
def PropKey.equal (names : Bool) (a b : PropKey) : Bool :=
  a.computed == b.computed && equalName names a.name b.name

mutual

/-- Equal patterns. -/
def Pattern.equal (names : Bool) : Pattern → Pattern → Bool
  | .hole, .hole => true
  | .ident a o, .ident b p => o == p && equalName names a b
  | .array as, .array bs => Pattern.equalList names as bs
  | .object as r, .object bs s => r.equal names s && Pattern.equalEntries names as bs
  | .rest a, .rest b => a.equal names b
  | _, _ => false
termination_by structural p => p

/-- Equal patterns in order. -/
def Pattern.equalList (names : Bool) : List Pattern → List Pattern → Bool
  | [], [] => true
  | a :: as, b :: bs => a.equal names b && Pattern.equalList names as bs
  | _, _ => false
termination_by structural ps => ps

/-- Equal entries in order. -/
def Pattern.equalEntries (names : Bool) : List (PropKey × Pattern) → List (PropKey × Pattern) → Bool
  | [], [] => true
  | a :: as, b :: bs => Pattern.equalEntry names a b && Pattern.equalEntries names as bs
  | _, _ => false
termination_by structural es => es

/-- Equal entries. -/
def Pattern.equalEntry (names : Bool) : PropKey × Pattern → PropKey × Pattern → Bool
  | (k, a), (l, b) => k.equal names l && a.equal names b
termination_by structural e => e

end

/-! ## One layer

A layer compares the outermost constructors and hands the children to `eq`. -/

/-- Equal type parameters in order. -/
def equalTypeParams (names : Bool) (eq : Ty → Ty → Bool) : List TypeParam → List TypeParam → Bool :=
  equalEach fun a b => equalName names a.name b.name && eq a.bound b.bound

/-- Equal parameters in order. -/
def equalParams (names : Bool) (eq : Ty → Ty → Bool) : List Param → List Param → Bool :=
  equalEach fun a b => a.pattern.equal names b.pattern && eq a.type b.type

/-- Equal signatures. -/
def Signature.equal (names : Bool) (eq : Ty → Ty → Bool) : Signature → Signature → Bool
  | .absent, .absent => true
  | .mk ts ps r, .mk us qs s =>
    equalTypeParams names eq ts us && equalParams names eq ps qs && eq r s
  | _, _ => false

/-- Equal members. -/
def Member.equal (names : Bool) (eq : Ty → Ty → Bool) : Member → Member → Bool
  | .property k a o r, .property l b p s => k.equal names l && o == p && r == s && eq a b
  | .method k o s, .method l p t => k.equal names l && o == p && s.equal names eq t
  | .call s, .call t => s.equal names eq t
  | .construct s, .construct t => s.equal names eq t
  | .index p k a r, .index q l b s => equalName names p q && r == s && eq k l && eq a b
  | _, _ => false

/-- Equal members as multisets. -/
def equalMembers (names : Bool) (eq : Ty → Ty → Bool) (ms ns : List Member) : Bool :=
  matchAll (fun m n => m.equal names eq n) ms ns

/-- The text that a type without further structure is compared by. -/
def Ty.raw? : Ty → Option String
  | .other raw => some raw
  | .regExp => some "RegExp"
  | _ => none

/-- Equal outermost layers, with `eq` for the children. -/
def Ty.equalLayer (names : Bool) (eq : Ty → Ty → Bool) : Ty → Ty → Bool
  | .keyword k, .keyword l => k == l
  | .literal a, .literal b => a.sameValue b
  | .array a, .array b => eq a b
  | .tuple as, .tuple bs => equalEach eq as bs
  | .union as, .union bs => matchAll eq as bs
  | .inter as, .inter bs => matchAll eq as bs
  | .object ms, .object ns => equalMembers names eq ms ns
  | .interface a ts ms es, .interface b us ns fs =>
    equalName names a b && equalTypeParams names eq ts us && equalMembers names eq ms ns
      && equalEach eq es fs
  | .classType a ts ms s, .classType b us ns t =>
    equalName names a b && equalTypeParams names eq ts us && equalMembers names eq ms ns && eq s t
  | .function s, .function t => s.equal names eq t
  | .ctor s, .ctor t => s.equal names eq t
  | .enum a ms c, .enum b ns d =>
    equalName names a b && c == d && equalEach (equalName names) ms ns
  | .variant a m, .variant b n => equalName names a b && equalName names m n
  | .param a s, .param b t => equalName names a b && eq s t
  | .this, .this => true
  | .indexed a i, .indexed b j => eq a b && eq i j
  | a, b =>
    match a.raw?, b.raw? with
    | some r, some s => r == s
    | _, _ => false

/-! ## The comparison -/

/-- Two uses of one declared name. -/
def Ty.sameNamed : Ty → Ty → Bool
  | .named a, .named b => a == b
  | _, _ => false

namespace Decls

/-- Equality down to a depth.  `opened` holds the pairs that are still being
compared, and `fuel` counts the layers left. -/
def equalWithin (D : Decls) (names : Bool) : Nat → List Pair → Ty → Ty → Bool
  | fuel, opened, a, b =>
    if a.isMissing || b.isMissing then a.isMissing && b.isMissing
    else
      match fuel with
      | 0 => false
      | fuel + 1 =>
        a.sameNamed b || isOpen opened a b
          || (D.head a).equalLayer names (D.equalWithin names fuel ((a, b) :: opened)) (D.head b)

/-- Structural equality, comparing names or ignoring them. -/
def equalTypes (D : Decls) (names : Bool) (a b : Ty) : Bool :=
  D.equalWithin names (maxEqualDepth + 1) [] a b

/-- Structural equality. -/
def equal (D : Decls) (a b : Ty) : Bool := D.equalTypes true a b

/-- Structural equality that ignores names. -/
def equalIgnoringNames (D : Decls) (a b : Ty) : Bool := D.equalTypes false a b

/-- Equality of members that ignores names. -/
def memberEqualIgnoringNames (D : Decls) (m n : Member) : Bool :=
  m.equal false (D.equalIgnoringNames) n

end Decls

end StructuralTyping
