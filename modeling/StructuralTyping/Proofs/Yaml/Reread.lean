import StructuralTyping.Proofs.Equal.Height

/-!
# Types as they are read back

A document keeps named members in a mapping and the other members in lists beside
it, so a shape is read back with its members arranged by kind.  The sign of a zero
is lost.  `Ty.reread` says what comes back for a type that was written, and it is
bisimilar to the type (`Decls.bisimilar_reread`).
-/

namespace StructuralTyping

/-! ## Arranging members -/

namespace Member

/-- A member with a key. -/
def isKeyed : Member → Bool
  | .property _ _ _ _ | .method _ _ _ => true
  | _ => false

/-- A call signature. -/
def isCall : Member → Bool
  | .call _ => true
  | _ => false

/-- A construct signature. -/
def isConstruct : Member → Bool
  | .construct _ => true
  | _ => false

/-- An index signature. -/
def isIndex : Member → Bool
  | .index _ _ _ _ => true
  | _ => false

/-- The members with keys, then index, call and construct signatures. -/
def arrange (ms : List Member) : List Member :=
  ms.filter isKeyed ++ ms.filter isIndex ++ ms.filter isCall ++ ms.filter isConstruct

/-- Arranging loses nothing. -/
theorem arrange_perm (ms : List Member) : (arrange ms).Perm ms := by
  induction ms with
  | nil => exact .refl _
  | cons m ms ih =>
    simp only [arrange, List.append_assoc] at ih ⊢
    have hcons := ih.cons m
    cases m with
    | property | method =>
      simpa [List.filter_cons, isKeyed, isIndex, isCall, isConstruct] using hcons
    | index =>
      simp only [List.filter_cons, isKeyed, isIndex, isCall, isConstruct, if_true,
        Bool.false_eq_true, if_false]
      exact List.perm_middle.trans hcons
    | call =>
      simp only [List.filter_cons, isKeyed, isIndex, isCall, isConstruct, if_true,
        Bool.false_eq_true, if_false]
      rw [← List.append_assoc] at hcons ⊢
      exact List.perm_middle.trans hcons
    | construct =>
      simp only [List.filter_cons, isKeyed, isIndex, isCall, isConstruct, if_true,
        Bool.false_eq_true, if_false]
      rw [← List.append_assoc, ← List.append_assoc] at hcons ⊢
      exact List.perm_middle.trans hcons

end Member

/-! ## What comes back -/

/-- The value with a zero made positive. -/
def Binary64.reread : Binary64 → Binary64
  | .finite negative m e => if m = 0 then .zero false else .finite negative m e
  | x => x

/-- The literal that comes back. -/
def Literal.reread : Literal → Literal
  | .number x => .number x.reread
  | l => l

mutual

/-- The type that comes back. -/
def Ty.reread : Ty → Ty
  | .literal l => .literal l.reread
  | .array e => .array e.reread
  | .tuple es => .tuple (Ty.rereadList es)
  | .union bs => .union (Ty.rereadList bs)
  | .inter bs => .inter (Ty.rereadList bs)
  | .object ms => .object (Member.arrange (Member.rereadList ms))
  | .interface name ts ms bs =>
    .interface name (TypeParam.rereadList ts) (Member.arrange (Member.rereadList ms))
      (Ty.rereadList bs)
  | .classType name ts ms b =>
    .classType name (TypeParam.rereadList ts) (Member.arrange (Member.rereadList ms)) b.reread
  | .function s => .function s.reread
  | .ctor s => .ctor s.reread
  | .param name b => .param name b.reread
  | .indexed o i => .indexed o.reread i.reread
  | .missing => .missing
  | .keyword k => .keyword k
  | .enum name ms c => .enum name ms c
  | .variant e m => .variant e m
  | .this => .this
  | .other raw => .other raw
  | .regExp => .regExp
  | .named n => .named n
termination_by structural t => t

/-- The types that come back. -/
def Ty.rereadList : List Ty → List Ty
  | [] => []
  | t :: ts => t.reread :: Ty.rereadList ts
termination_by structural ts => ts

/-- The member that comes back. -/
def Member.reread : Member → Member
  | .property k t o r => .property k t.reread o r
  | .method k o s => .method k o s.reread
  | .call s => .call s.reread
  | .construct s => .construct s.reread
  | .index p k t r => .index p k.reread t.reread r
termination_by structural m => m

/-- The members that come back, before they are arranged. -/
def Member.rereadList : List Member → List Member
  | [] => []
  | m :: ms => m.reread :: Member.rereadList ms
termination_by structural ms => ms

/-- The signature that comes back. -/
def Signature.reread : Signature → Signature
  | .absent => .absent
  | .mk ts ps r => .mk (TypeParam.rereadList ts) (Param.rereadList ps) r.reread
termination_by structural s => s

/-- The parameter that comes back. -/
def Param.reread : Param → Param
  | ⟨p, t⟩ => ⟨p, t.reread⟩
termination_by structural p => p

/-- The parameters that come back. -/
def Param.rereadList : List Param → List Param
  | [] => []
  | p :: ps => p.reread :: Param.rereadList ps
termination_by structural ps => ps

/-- The type parameter that comes back. -/
def TypeParam.reread : TypeParam → TypeParam
  | ⟨name, b⟩ => ⟨name, b.reread⟩
termination_by structural t => t

/-- The type parameters that come back. -/
def TypeParam.rereadList : List TypeParam → List TypeParam
  | [] => []
  | t :: ts => t.reread :: TypeParam.rereadList ts
termination_by structural ts => ts

end

@[simp] theorem Ty.rereadList_eq_map (ts : List Ty) :
    Ty.rereadList ts = ts.map Ty.reread := by
  induction ts with
  | nil => rfl
  | cons t ts ih => rw [Ty.rereadList, List.map_cons, ih]

@[simp] theorem Member.rereadList_eq_map (ms : List Member) :
    Member.rereadList ms = ms.map Member.reread := by
  induction ms with
  | nil => rfl
  | cons m ms ih => rw [Member.rereadList, List.map_cons, ih]

@[simp] theorem Param.rereadList_eq_map (ps : List Param) :
    Param.rereadList ps = ps.map Param.reread := by
  induction ps with
  | nil => rfl
  | cons p ps ih => rw [Param.rereadList, List.map_cons, ih]

@[simp] theorem TypeParam.rereadList_eq_map (ts : List TypeParam) :
    TypeParam.rereadList ts = ts.map TypeParam.reread := by
  induction ts with
  | nil => rfl
  | cons t ts ih => rw [TypeParam.rereadList, List.map_cons, ih]

/-- Members are arranged in the same way before and after. -/
theorem Member.arrange_rereadList (ms : List Member) :
    Member.arrange (Member.rereadList ms) =
      (ms.filter isKeyed).map reread ++ (ms.filter isIndex).map reread ++
        (ms.filter isCall).map reread ++ (ms.filter isConstruct).map reread := by
  have hfilter (p : Member → Bool) (hp : ∀ m : Member, p m.reread = p m) :
      (ms.map reread).filter p = (ms.filter p).map reread := by
    rw [List.filter_map]
    congr 2
    exact funext hp
  rw [Member.rereadList_eq_map, arrange, hfilter isKeyed, hfilter isIndex, hfilter isCall,
    hfilter isConstruct]
  all_goals intro m; cases m <;> rfl

@[simp] theorem TypeParam.name_reread (t : TypeParam) : t.reread.name = t.name := by
  cases t
  rfl

theorem Ty.isNamed_reread (t : Ty) : t.reread.isNamed = t.isNamed := by
  cases t <;> rfl

/-! ## It is bisimilar -/

theorem Literal.sameValue_reread (l : Literal) : l.reread.sameValue l = true := by
  cases l with
  | number x =>
    cases x with
    | finite s m e =>
      simp only [Literal.reread, Binary64.reread, Literal.sameValue]
      split
      · next hm => simp [Binary64.sameValue, Binary64.isZero, Binary64.zero, hm]
      · exact Binary64.sameValue_equivalence.refl _
    | _ => exact Binary64.sameValue_equivalence.refl _
  | _ => exact Literal.sameValue_equivalence.refl _

section Alike

variable {names : Bool} {R : Ty → Ty → Prop}

theorem TypeParam.rereadList_alike {ts : List TypeParam}
    (h : ∀ x ∈ ts.map (·.bound), R x.reread x) :
    List.Forall₂ (TypeParam.Alike names R) (TypeParam.rereadList ts) ts := by
  rw [TypeParam.rereadList_eq_map]
  refine forall₂_map_self fun t ht => ?_
  cases t with
  | mk name b => exact ⟨rfl, h b (List.mem_map_of_mem ht)⟩

theorem Signature.reread_alike {s : Signature} (h : ∀ x ∈ s.parts, R x.reread x) :
    s.reread.Alike names R s := by
  cases s with
  | absent => exact .absent
  | mk ts ps r =>
    simp only [Signature.parts, List.mem_append, List.mem_singleton] at h
    rw [Signature.reread]
    refine .mk (TypeParam.rereadList_alike fun x hx => h x (.inl (.inl hx))) ?_ (h r (.inr rfl))
    rw [Param.rereadList_eq_map]
    refine forall₂_map_self fun p hp => ?_
    cases p with
    | mk pattern t => exact ⟨rfl, h t (.inl (.inr (List.mem_map_of_mem hp)))⟩

theorem Member.reread_alike {m : Member} (h : ∀ x ∈ m.parts, R x.reread x) :
    m.reread.Alike names R m := by
  cases m with
  | property k t => exact .property rfl (h t (.head _))
  | method => exact .method rfl (Signature.reread_alike h)
  | call => exact .call (Signature.reread_alike h)
  | construct => exact .construct (Signature.reread_alike h)
  | index p k t => exact .index rfl (h k (.head _)) (h t (.tail _ (.head _)))

theorem Member.arrange_reread_alike {ms : List Member}
    (h : ∀ x ∈ ms.flatMap (·.parts), R x.reread x) :
    Multiset.Rel (Member.Alike names R)
      (Member.arrange (Member.rereadList ms) : Multiset Member) (ms : Multiset Member) := by
  have harrange :
      (Member.arrange (Member.rereadList ms) : Multiset Member) =
        (ms.map Member.reread : Multiset Member) := by
    rw [Member.rereadList_eq_map]
    exact Quotient.sound (Member.arrange_perm _)
  rw [harrange]
  exact rel_of_forall₂ (forall₂_map_self fun m hm =>
    Member.reread_alike fun x hx => h x (List.mem_flatMap.2 ⟨m, hm, hx⟩))

/-- The layer that comes back is alike, if the parts that come back are related. -/
theorem Ty.reread_alike {t : Ty} (h : ∀ x ∈ t.parts, R x.reread x) : t.reread.Alike names R t := by
  cases t with
  | missing => exact .missing
  | keyword k => exact .keyword k
  | literal l => exact .literal l.sameValue_reread
  | array e => exact .array (h e (.head _))
  | tuple ts =>
    rw [Ty.reread, Ty.rereadList_eq_map]
    exact .tuple (forall₂_map_self h)
  | union ts =>
    rw [Ty.reread, Ty.rereadList_eq_map]
    exact .union (rel_of_forall₂ (forall₂_map_self h))
  | inter ts =>
    rw [Ty.reread, Ty.rereadList_eq_map]
    exact .inter (rel_of_forall₂ (forall₂_map_self h))
  | object ms => exact .object (Member.arrange_reread_alike h)
  | interface name ts ms bs =>
    simp only [Ty.parts, List.mem_append] at h
    rw [Ty.reread, Ty.rereadList_eq_map]
    exact .interface rfl (TypeParam.rereadList_alike fun x hx => h x (.inl (.inl hx)))
      (Member.arrange_reread_alike fun x hx => h x (.inl (.inr hx)))
      (forall₂_map_self fun x hx => h x (.inr hx))
  | classType name ts ms b =>
    simp only [Ty.parts, List.mem_append, List.mem_singleton] at h
    exact .classType rfl (TypeParam.rereadList_alike fun x hx => h x (.inl (.inl hx)))
      (Member.arrange_reread_alike fun x hx => h x (.inl (.inr hx))) (h b (.inr rfl))
  | function s => exact .function (Signature.reread_alike h)
  | ctor s => exact .ctor (Signature.reread_alike h)
  | enum => exact .enum rfl rfl
  | variant => exact .variant rfl rfl
  | param name b => exact .param rfl (h b (.head _))
  | this => exact .this
  | indexed o i => exact .indexed (h o (.head _)) (h i (.tail _ (.head _)))
  | other raw => exact .raw rfl rfl
  | regExp => exact .raw rfl rfl
  | named n => exact .named n

end Alike

theorem Ty.IsTree.reread {t : Ty} (h : t.IsTree) : t.reread.IsTree := by
  induction h with
  | @intro t hnamed _ ih =>
    refine .intro (t.isNamed_reread.trans hnamed) fun x hx => ?_
    have halike : t.reread.Alike true (fun x y => x = y.reread) t := Ty.reread_alike fun _ _ => rfl
    obtain ⟨y, hy, rfl⟩ := halike.exists_part hx
    exact ih y hy

/-- What comes back for a tree is bisimilar to it. -/
theorem Decls.bisimilar_reread {D : Decls} {names : Bool} {t : Ty} (h : t.IsTree) :
    D.Bisimilar names t.reread t := by
  refine ⟨fun a b => b.IsTree ∧ a = b.reread, ?_, h, rfl⟩
  rintro _ b ⟨hb, rfl⟩
  rw [head_of_isTree hb, head_of_isTree hb.reread]
  exact Ty.reread_alike fun x hx => ⟨hb.part hx, rfl⟩

/-- What comes back for a tree that is not too high equals it, from both sides. -/
theorem Decls.equalTypes_reread {D : Decls} {names : Bool} {t : Ty} (h : t.IsTree)
    (hheight : t.height ≤ maxEqualDepth + 1) :
    D.equalTypes names t.reread t = true ∧ D.equalTypes names t t.reread = true :=
  ⟨(equalTypes_iff_of_isTree h.reread h (.inr hheight)).2 (bisimilar_reread h),
    (equalTypes_iff_of_isTree h h.reread (.inl hheight)).2
      (bisimilar_equivalence.symm (bisimilar_reread h))⟩

end StructuralTyping
