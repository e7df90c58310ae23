import StructuralTyping.Proofs.Equal.Bisimilar
import StructuralTyping.Ty.Declare

/-!
# The height of a type

The height of a type counts the types on a longest path down its term.  A missing
annotation is no type, and a declared name is a leaf.  Parts are lower than the
whole.

A type is acyclic if all paths down from it end, also those through declarations.
`Decls.HasHeight` bounds the types on them.  The comparison reaches the bottom of
an acyclic type that is not higher than its depth, so there it decides
bisimilarity (`Decls.equalTypes_iff_bisimilar`).

A tree is a term without declared names, and acyclic whatever is declared.
-/

namespace StructuralTyping

/-! ## Height -/

mutual

/-- The number of types on a longest path down. -/
def Ty.height : Ty → Nat
  | .missing => 0
  | .array e => e.height + 1
  | .tuple es => Ty.heightList es + 1
  | .union bs => Ty.heightList bs + 1
  | .inter bs => Ty.heightList bs + 1
  | .object ms => Member.heightList ms + 1
  | .interface _ ts ms bs =>
    max (TypeParam.heightList ts) (max (Member.heightList ms) (Ty.heightList bs)) + 1
  | .classType _ ts ms b => max (TypeParam.heightList ts) (max (Member.heightList ms) b.height) + 1
  | .function s => s.height + 1
  | .ctor s => s.height + 1
  | .param _ b => b.height + 1
  | .indexed o i => max o.height i.height + 1
  | .keyword _ | .literal _ | .enum _ _ _ | .variant _ _ | .this | .other _ | .regExp
  | .named _ => 1
termination_by structural t => t

/-- The greatest height of types. -/
def Ty.heightList : List Ty → Nat
  | [] => 0
  | t :: ts => max t.height (Ty.heightList ts)
termination_by structural ts => ts

/-- The greatest height of the parts of a member. -/
def Member.height : Member → Nat
  | .property _ t _ _ => t.height
  | .method _ _ s => s.height
  | .call s => s.height
  | .construct s => s.height
  | .index _ k t _ => max k.height t.height
termination_by structural m => m

/-- The greatest height of the parts of members. -/
def Member.heightList : List Member → Nat
  | [] => 0
  | m :: ms => max m.height (Member.heightList ms)
termination_by structural ms => ms

/-- The greatest height of the parts of a signature. -/
def Signature.height : Signature → Nat
  | .absent => 0
  | .mk ts ps r => max (TypeParam.heightList ts) (max (Param.heightList ps) r.height)
termination_by structural s => s

/-- The height of the type of a parameter. -/
def Param.height : Param → Nat
  | ⟨_, t⟩ => t.height
termination_by structural p => p

/-- The greatest height of the types of parameters. -/
def Param.heightList : List Param → Nat
  | [] => 0
  | p :: ps => max p.height (Param.heightList ps)
termination_by structural ps => ps

/-- The height of the bound of a type parameter. -/
def TypeParam.height : TypeParam → Nat
  | ⟨_, b⟩ => b.height
termination_by structural t => t

/-- The greatest height of the bounds of type parameters. -/
def TypeParam.heightList : List TypeParam → Nat
  | [] => 0
  | t :: ts => max t.height (TypeParam.heightList ts)
termination_by structural ts => ts

end

/-! ## Parts are lower -/

theorem Ty.height_le_heightList {x : Ty} : ∀ {ts : List Ty}, x ∈ ts → x.height ≤ Ty.heightList ts
  | t :: ts, h => by
      simp only [Ty.heightList]
      rcases List.mem_cons.1 h with rfl | h
      · omega
      · have := Ty.height_le_heightList h
        omega

theorem TypeParam.height_le_heightList {x : Ty} :
    ∀ {ts : List TypeParam}, x ∈ ts.map (·.bound) → x.height ≤ TypeParam.heightList ts
  | ⟨_, b⟩ :: ts, h => by
      simp only [TypeParam.heightList, TypeParam.height]
      rcases List.mem_cons.1 h with rfl | h
      · exact Nat.le_max_left _ _
      · have := TypeParam.height_le_heightList h
        omega

theorem Param.height_le_heightList {x : Ty} :
    ∀ {ps : List Param}, x ∈ ps.map (·.type) → x.height ≤ Param.heightList ps
  | ⟨_, t⟩ :: ps, h => by
      simp only [Param.heightList, Param.height]
      rcases List.mem_cons.1 h with rfl | h
      · exact Nat.le_max_left _ _
      · have := Param.height_le_heightList h
        omega

theorem Signature.height_le_of_mem_parts {x : Ty} :
    ∀ {s : Signature}, x ∈ s.parts → x.height ≤ s.height
  | .mk ts ps r, h => by
      simp only [Signature.parts, List.mem_append, List.mem_singleton] at h
      simp only [Signature.height]
      rcases h with (h | h) | rfl
      · have := TypeParam.height_le_heightList h
        omega
      · have := Param.height_le_heightList h
        omega
      · omega

theorem Member.height_le_of_mem_parts {x : Ty} : ∀ {m : Member}, x ∈ m.parts → x.height ≤ m.height
  | .property _ t _ _, h => by
      rw [List.mem_singleton.1 h, Member.height]
  | .method _ _ s, h | .call s, h | .construct s, h => by
      rw [Member.height]
      exact Signature.height_le_of_mem_parts h
  | .index _ k t _, h => by
      simp only [Member.parts, List.mem_cons, List.not_mem_nil, or_false] at h
      rw [Member.height]
      rcases h with rfl | rfl <;> omega

theorem Member.height_le_heightList {x : Ty} :
    ∀ {ms : List Member}, x ∈ ms.flatMap (·.parts) → x.height ≤ Member.heightList ms
  | m :: ms, h => by
      simp only [List.flatMap_cons, List.mem_append] at h
      simp only [Member.heightList]
      rcases h with h | h
      · have := Member.height_le_of_mem_parts h
        omega
      · have := Member.height_le_heightList h
        omega

/-- Parts are lower than the whole. -/
theorem Ty.height_lt_of_mem_parts {x : Ty} : ∀ {t : Ty}, x ∈ t.parts → x.height < t.height
  | .array e, h | .param _ e, h => by
      rw [List.mem_singleton.1 h, Ty.height]
      omega
  | .tuple ts, h | .union ts, h | .inter ts, h => by
      rw [Ty.height]
      exact Nat.lt_succ_of_le (Ty.height_le_heightList h)
  | .object ms, h => by
      rw [Ty.height]
      exact Nat.lt_succ_of_le (Member.height_le_heightList h)
  | .interface _ ts ms bs, h => by
      simp only [Ty.parts, List.mem_append] at h
      rw [Ty.height]
      rcases h with (h | h) | h
      · have := TypeParam.height_le_heightList h
        omega
      · have := Member.height_le_heightList h
        omega
      · have := Ty.height_le_heightList h
        omega
  | .classType _ ts ms b, h => by
      simp only [Ty.parts, List.mem_append, List.mem_singleton] at h
      rw [Ty.height]
      rcases h with (h | h) | rfl
      · have := TypeParam.height_le_heightList h
        omega
      · have := Member.height_le_heightList h
        omega
      · omega
  | .function s, h | .ctor s, h => by
      rw [Ty.height]
      exact Nat.lt_succ_of_le (Signature.height_le_of_mem_parts h)
  | .indexed o i, h => by
      simp only [Ty.parts, List.mem_cons, List.not_mem_nil, or_false] at h
      rw [Ty.height]
      rcases h with rfl | rfl <;> omega

/-- A leaf is at most one type high. -/
theorem Ty.height_le_of_isLeaf {t : Ty} (h : t.isLeaf = true) : t.height ≤ 1 := by
  cases t <;> simp_all [Ty.isLeaf, Ty.height]

theorem Ty.height_pos {t : Ty} (h : t.isMissing = false) : 0 < t.height := by
  cases t <;> simp_all [Ty.isMissing, Ty.height]

/-! ## Acyclic types -/

namespace Decls

/-- A finite acyclic type with at most `n` types on a path down.  The names that it
reaches are declared, and a declaration is not itself a name. -/
inductive HasHeight (D : Decls) : Nat → Ty → Prop where
  | missing {n : Nat} : D.HasHeight n .missing
  | layer {n : Nat} {t : Ty} (hdeclared : (D.head t).isMissing = false)
      (hlayer : (D.head t).isNamed = false) (hparts : ∀ x ∈ (D.head t).parts, D.HasHeight n x) :
      D.HasHeight (n + 1) t

/-- A finite acyclic type. -/
def Acyclic (D : Decls) (t : Ty) : Prop := ∃ n, D.HasHeight n t

namespace HasHeight

variable {D : Decls} {n : Nat} {t x : Ty}

theorem mono {m : Nat} (h : D.HasHeight m t) (hmn : m ≤ n) : D.HasHeight n t := by
  induction h generalizing n with
  | missing => exact .missing
  | layer hdeclared hlayer _ ih =>
    obtain ⟨n, rfl⟩ : ∃ k, n = k + 1 := ⟨n - 1, by omega⟩
    exact .layer hdeclared hlayer fun x hx => ih x hx (by omega)

theorem acyclic (h : D.HasHeight n t) : D.Acyclic t := ⟨n, h⟩

/-- A type that is there has a declaration that is there. -/
theorem isMissing_head (h : D.HasHeight n t) : (D.head t).isMissing = t.isMissing := by
  cases h with
  | missing => rfl
  | layer hdeclared =>
    rw [hdeclared]
    cases t <;> first | rfl | cases hdeclared

theorem isNamed_head (h : D.HasHeight n t) : (D.head t).isNamed = false := by
  cases h with
  | missing => rfl
  | layer _ hlayer => exact hlayer

/-- Parts are lower. -/
theorem exists_part (h : D.HasHeight n t) (hx : x ∈ (D.head t).parts) :
    ∃ m, n = m + 1 ∧ D.HasHeight m x := by
  cases h with
  | missing => cases hx
  | layer _ _ hparts => exact ⟨_, rfl, hparts x hx⟩

theorem part (h : D.HasHeight (n + 1) t) (hx : x ∈ (D.head t).parts) : D.HasHeight n x := by
  obtain ⟨m, hm, hx⟩ := h.exists_part hx
  obtain rfl := Nat.succ.inj hm
  exact hx

end HasHeight

/-- `HasHeight` as a test. -/
def testHeight (D : Decls) : Nat → Ty → Bool
  | 0, t => t.isMissing
  | n + 1, t =>
    t.isMissing || (!(D.head t).isMissing && !(D.head t).isNamed &&
      (D.head t).parts.all (D.testHeight n))

theorem testHeight_iff {D : Decls} {n : Nat} {t : Ty} :
    D.testHeight n t = true ↔ D.HasHeight n t := by
  induction n generalizing t with
  | zero =>
    refine ⟨fun h => eq_missing_of_isMissing h ▸ .missing, fun h => ?_⟩
    cases h
    rfl
  | succ n ih =>
    simp only [testHeight, Bool.or_eq_true, Bool.and_eq_true, Bool.not_eq_true',
      List.all_eq_true, ih]
    constructor
    · rintro (hmissing | ⟨⟨hdeclared, hlayer⟩, hparts⟩)
      · exact eq_missing_of_isMissing hmissing ▸ .missing
      · exact .layer hdeclared hlayer hparts
    · intro h
      cases h with
      | missing => exact .inl rfl
      | layer hdeclared hlayer hparts => exact .inr ⟨⟨hdeclared, hlayer⟩, hparts⟩

instance (D : Decls) (n : Nat) (t : Ty) : Decidable (D.HasHeight n t) :=
  decidable_of_iff _ testHeight_iff

theorem Acyclic.part {D : Decls} {t x : Ty} (h : D.Acyclic t) (hx : x ∈ (D.head t).parts) :
    D.Acyclic x := by
  obtain ⟨n, h⟩ := h
  obtain ⟨m, -, hx⟩ := h.exists_part hx
  exact hx.acyclic

end Decls

/-! ## Comparing acyclic types -/

namespace Decls

variable {D : Decls} {names : Bool}

/-- One of two acyclic types that is not higher than the layers left is enough. -/
theorem enough_of_acyclic :
    D.Enough fun fuel _ a b =>
      (D.HasHeight fuel a ∨ D.HasHeight fuel b) ∧ D.Acyclic a ∧ D.Acyclic b where
  left h := h.2.1.choose_spec.isMissing_head
  right h := h.2.2.choose_spec.isMissing_head
  layer h := h.2.1.choose_spec.isNamed_head
  step {fuel opened a b} h hamissing hbmissing := by
    obtain ⟨hheight, ha, hb⟩ := h
    have hpos : ∃ rest, fuel = rest + 1 := by
      rcases hheight with hheight | hheight
      · cases hheight with
        | missing => cases hamissing
        | layer => exact ⟨_, rfl⟩
      · cases hheight with
        | missing => cases hbmissing
        | layer => exact ⟨_, rfl⟩
    obtain ⟨rest, rfl⟩ := hpos
    refine ⟨rest, rfl, .inr fun x hx y hy => ⟨?_, ha.part hx, hb.part hy⟩⟩
    exact hheight.imp (·.part hx) (·.part hy)

/-- Equality of acyclic types that are not too high is bisimilarity. -/
theorem equalTypes_iff_bisimilar {a b : Ty} (ha : D.Acyclic a) (hb : D.Acyclic b)
    (hheight : D.HasHeight (maxEqualDepth + 1) a ∨ D.HasHeight (maxEqualDepth + 1) b) :
    D.equalTypes names a b = true ↔ D.Bisimilar names a b :=
  ⟨bisimilar_of_equalWithin (by simp),
    equalWithin_of_bisimilar enough_of_acyclic (by simp) ⟨hheight, ha, hb⟩⟩

end Decls

/-! ## Trees -/

/-- A term without declared names. -/
inductive Ty.IsTree : Ty → Prop where
  | intro {t : Ty} (hnamed : t.isNamed = false) (hparts : ∀ x ∈ t.parts, x.IsTree) : t.IsTree

theorem Ty.IsTree.isNamed_eq_false {t : Ty} : t.IsTree → t.isNamed = false
  | .intro hnamed _ => hnamed

theorem Ty.IsTree.part {t x : Ty} : t.IsTree → x ∈ t.parts → x.IsTree
  | .intro _ hparts, hx => hparts x hx

namespace Decls

variable {D : Decls} {names : Bool}

theorem head_of_isNamed_eq_false : ∀ {t : Ty}, t.isNamed = false → D.head t = t
  | .named _, h => by cases h
  | .missing, _ | .keyword _, _ | .literal _, _ | .array _, _ | .tuple _, _
  | .union _, _ | .inter _, _
  | .object _, _ | .interface _ _ _ _, _ | .classType _ _ _ _, _ | .function _, _ | .ctor _, _
  | .enum _ _ _, _ | .variant _ _, _ | .param _ _, _ | .this, _ | .indexed _ _, _ | .other _, _
  | .regExp, _ => rfl

theorem head_of_isTree {t : Ty} (h : t.IsTree) : D.head t = t :=
  head_of_isNamed_eq_false h.isNamed_eq_false

/-- A tree is acyclic, whatever is declared, and as high as its term. -/
theorem hasHeight_of_isTree {n : Nat} {t : Ty} (h : t.IsTree) (hn : t.height ≤ n) :
    D.HasHeight n t := by
  induction h generalizing n with
  | @intro t hnamed _ ih =>
    have hhead : D.head t = t := head_of_isNamed_eq_false hnamed
    cases hmissing : t.isMissing with
    | true => exact eq_missing_of_isMissing hmissing ▸ .missing
    | false =>
      have hpos := Ty.height_pos hmissing
      obtain ⟨n, rfl⟩ : ∃ k, n = k + 1 := ⟨n - 1, by omega⟩
      refine .layer (by rw [hhead, hmissing]) (by rw [hhead, hnamed]) fun x hx => ?_
      rw [hhead] at hx
      have hlt := Ty.height_lt_of_mem_parts hx
      exact ih x hx (by omega)

/-- Equality of trees that are not too high is bisimilarity. -/
theorem equalTypes_iff_of_isTree {a b : Ty} (ha : a.IsTree) (hb : b.IsTree)
    (hheight : a.height ≤ maxEqualDepth + 1 ∨ b.height ≤ maxEqualDepth + 1) :
    D.equalTypes names a b = true ↔ D.Bisimilar names a b :=
  equalTypes_iff_bisimilar (hasHeight_of_isTree ha le_rfl).acyclic
    (hasHeight_of_isTree hb le_rfl).acyclic
    (hheight.imp (hasHeight_of_isTree ha) (hasHeight_of_isTree hb))

end Decls

end StructuralTyping
