import StructuralTyping.Proofs.Assign.Union

/-!
# Equal types are assignable

A source that is equal to its target may be used for it.  For most types this is the rule
for equal types, but a union is split before equality is looked at.  So each branch of the
source is looked for in the target, whose unions may be nested and ordered differently.
Equal types have equal branches (`HasBranch.exists_bisimilar`), and the search finds one by
going down to it, a step for each union on the way (`assignableWithin_of_branch`).

A source and a target that are equal have unions of one depth.  The search comes down both,
and so the unions may be nested half as deep as the limit of the search.
-/

namespace StructuralTyping

namespace Decls

variable {D : Decls} {names : Bool} {t s b x : Ty}

/-! ## Branches of types that unfold alike -/

/-- Types that unfold alike have branches that unfold alike. -/
theorem HasBranch.exists_bisimilar (hx : D.HasBranch s x) (h : D.Bisimilar names t s) :
    ∃ b, D.HasBranch t b ∧ D.Bisimilar names b x := by
  induction hx generalizing t with
  | self hs =>
    refine ⟨t, .self fun bs hbs => ?_, h⟩
    have hlayer := isBisimulation_bisimilar _ _ h
    rw [hbs] at hlayer
    obtain ⟨cs, hcs, -⟩ := hlayer.exists_union
    exact hs cs hcs
  | union hs hc _ ih =>
    have hlayer := (isBisimulation_bisimilar _ _ h).flip
    rw [hs] at hlayer
    obtain ⟨bs, hbs, hrel⟩ := hlayer.exists_union
    obtain ⟨b, hb, hbc⟩ := exists_of_rel_left hrel hc
    obtain ⟨leaf, hleaf, hleafx⟩ := ih hbc
    exact ⟨leaf, .union hbs hb hleaf, hleafx⟩

/-- Types that unfold alike have unions of one depth. -/
theorem HasUnionDepth.of_bisimilar {n : Nat} (ht : D.HasUnionDepth n t)
    (h : D.Bisimilar names t s) : D.HasUnionDepth n s := by
  induction ht generalizing s with
  | flat ht =>
    refine .flat fun cs hcs => ?_
    have hlayer := (isBisimulation_bisimilar _ _ h).flip
    rw [hcs] at hlayer
    obtain ⟨bs, hbs, hrel⟩ := hlayer.exists_union
    obtain rfl := ht bs hbs
    exact (Multiset.coe_eq_zero _).1 (Multiset.rel_zero_right.1 hrel)
  | union hbs _ ih =>
    have hlayer := isBisimulation_bisimilar _ _ h
    rw [hbs] at hlayer
    obtain ⟨cs, hcs, hrel⟩ := hlayer.exists_union
    refine .union hcs fun c hc => ?_
    obtain ⟨b, hb, hbc⟩ := exists_of_rel_right hrel hc
    exact ih b hb hbc

/-! ## The search in the target -/

/-- Going down to a branch of a target takes a step for each union on the way. -/
theorem assignableWithin_of_branch {n k : Nat} (hb : D.HasBranch t b) (ht : D.HasUnionDepth k t)
    (hthere : x.isMissing = false) (hx : (D.head x).isCompared = true)
    (h : D.AssignableWithin (n + 1) b x) : D.AssignableWithin (n + k + 1) t x := by
  induction hb generalizing k with
  | self => exact h.mono (by omega)
  | @union t c b cs hcs hc _ ih =>
    cases ht with
    | flat hflat => simp [hflat cs hcs] at hc
    | @union k _ bs hbs hdepth =>
      obtain rfl := Ty.union.inj (hcs.symm.trans hbs)
      have hask : D.AssignableWithin (n + k + 1) c x := ih (hdepth c hc) h
      rw [← Nat.add_assoc, AssignableWithin, orAny_of_head_union hcs,
        Ty.orAny_of_isMissing_eq_false hthere]
      exact .shape (by simp [hcs]) hx (.union hcs hc hask)

/-- A target accepts what unfolds like one of its branches, unless the branch is `this` or
`unknown` or a type parameter. -/
theorem assignableWithin_of_bisimilar_branch {k : Nat} (hthis : D.head t ≠ .this)
    (hdepth : D.HasUnionDepth k t) (hb : D.HasBranch t b) (hnestb : D.HasNesting maxEqualDepth b)
    (hnestx : D.HasNesting maxEqualDepth x)
    (hbx : D.Bisimilar true b x) (hbthis : D.head b ≠ .this) (hunknown : D.head b ≠ .unknown)
    (hparam : ∀ name c, D.head b ≠ .param name c) : D.AssignableWithin (k + 1) t x := by
  have hlayer : (D.head b).Alike true (D.Bisimilar true) (D.head x) :=
    isBisimulation_bisimilar b x hbx
  have hbottom (h : D.head x.orAny = .any ∨ D.head x.orAny = .never) :
      D.AssignableWithin (k + 1) t x :=
    .bottom (head_orAny_ne_this hthis) h
  have hmissing : b.isMissing = x.isMissing := by
    rw [← hnestb.hasHeight.isMissing_head, ← hnestx.hasHeight.isMissing_head]
    exact hlayer.isMissing_eq
  cases hthere : x.isMissing with
  | true => exact hbottom (.inl (head_orAny_of_isMissing hthere))
  | false =>
    rw [Ty.orAny_of_isMissing_eq_false hthere] at hbottom
    by_cases hany : D.head b = .any
    · exact hbottom (.inl (hany ▸ hlayer).eq_keyword)
    by_cases hnever : D.head b = .never
    · exact hbottom (.inr (hnever ▸ hlayer).eq_keyword)
    have hcompared : (D.head x).isCompared = true :=
      hlayer.isCompared_eq ▸ hb.isCompared hany hnever hunknown hparam
    have hequal : D.equal b x = true :=
      (equalTypes_iff_bisimilar hnestb.acyclic hnestx.acyclic (.inl hnestb.hasHeight)).2 hbx
    have haccepted : D.AssignableWithin (0 + 1) b x :=
      assignableWithin_of_equal (hmissing.trans hthere) hthere (hlayer.ne_this hbthis)
        hcompared hequal
    have hsearched := assignableWithin_of_branch hb hdepth hthere hcompared haccepted
    exact hsearched.mono (by omega)

/-- A type that is no union accepts an equal type at once. -/
theorem assignableWithin_of_equal_of_not_union (hunion : ∀ bs, D.head t ≠ .union bs)
    (hthis : D.head t ≠ .this) (ht : D.Acyclic t) (hs : D.Acyclic s) (hequal : D.equal t s = true) :
    D.AssignableWithin 1 t s := by
  have hlayer : (D.head t).Alike true (D.Bisimilar true) (D.head s) :=
    isBisimulation_bisimilar t s (bisimilar_of_equalWithin (by simp) hequal)
  cases hthere : t.isMissing with
  | true =>
    rw [eq_missing_of_isMissing hthere]
    exact .top rfl
  | false =>
    have hsthere : s.isMissing = false := by
      rw [← hs.choose_spec.isMissing_head, ← hlayer.isMissing_eq,
        ht.choose_spec.isMissing_head, hthere]
    by_cases hcompared : (D.head s).isCompared = true
    · exact assignableWithin_of_equal hthere hsthere (hlayer.ne_this hthis) hcompared hequal
    · rw [AssignableWithin, Ty.orAny_of_isMissing_eq_false hthere,
        Ty.orAny_of_isMissing_eq_false hsthere]
      unfold Ty.isCompared at hcompared
      split at hcompared
      · next bs hbs =>
        obtain ⟨as, has, -⟩ := (hbs ▸ hlayer).flip.exists_union
        exact absurd has (hunion as)
      · next name c hc =>
        obtain ⟨c', hc', -⟩ := (hc ▸ hlayer).flip.exists_param
        exact .sameParam hc' hc
      · next hany => exact .bottom hthis (.inl hany)
      · next hnever => exact .bottom hthis (.inr hnever)
      · next hunknown =>
        have htop : D.head t = .unknown := (hunknown ▸ hlayer).flip.eq_keyword
        exact .top (by rw [htop]; rfl)
      · exact absurd rfl hcompared

/-! ## Equal types -/

/-- A type accepts every type that it is equal to, unless it is `this` or a union with
`this`, `unknown` or a type parameter among its branches.  Half of the depth limit is
enough for its unions. -/
theorem isAssignable_of_equal {k : Nat} (ht : D.HasNesting maxEqualDepth t)
    (hs : D.HasNesting maxEqualDepth s)
    (hequal : D.equal t s = true) (hthis : D.head t ≠ .this) (hdepth : D.HasUnionDepth k t)
    (hk : 2 * k ≤ defaultMaxDepth)
    (hbranches : ∀ bs, D.head t = .union bs → ∀ x, D.HasBranch t x →
      D.head x ≠ .this ∧ D.head x ≠ .unknown ∧ ∀ name b, D.head x ≠ .param name b) :
    D.isAssignable t s = true := by
  have hbisimilar : D.Bisimilar true t s := bisimilar_of_equalWithin (by simp) hequal
  rw [isAssignable_iff_assignableWithin ht hs]
  by_cases hunion : ∃ bs, D.head t = .union bs
  · obtain ⟨bs, hbs⟩ := hunion
    have hsearched : D.AssignableWithin (k + k + 1) t s := by
      refine assignableWithin_of_hasUnionDepth hthis (hdepth.of_bisimilar hbisimilar) fun x hx => ?_
      obtain ⟨b, hb, hbx⟩ := hx.exists_bisimilar hbisimilar
      obtain ⟨hbthis, hunknown, hparam⟩ := hbranches bs hbs b hb
      exact assignableWithin_of_bisimilar_branch hthis hdepth hb (ht.of_reaches hb.reaches)
        (hs.of_reaches hx.reaches) hbx hbthis hunknown hparam
    exact hsearched.mono (by omega)
  · have hdecided : D.AssignableWithin 1 t s :=
      assignableWithin_of_equal_of_not_union (not_exists.1 hunion) hthis ht.acyclic
        hs.acyclic hequal
    exact hdecided.mono (by omega)

/-- Nested unions and the members of a shape in another order. -/
theorem isAssignable_of_equal_shuffled :
    let width : Member := .required "width" .number
    let height : Member := .required "height" .never
    let t : Ty := .union [.string, .union [.null, .object [width, height]]]
    let s : Ty := .union [.union [.object [height, width], .null], .string]
    empty.equal t s = true ∧ empty.isAssignable t s = true := by
  intro width height t s
  have ht : empty.HasHeight 4 t := by decide
  have hs : empty.HasHeight 4 s := by decide
  have hequal : empty.equal t s = true := by decide
  have hdepth : empty.HasUnionDepth 2 t := by
    refine .union rfl
      (List.forall_mem_cons.2 ⟨.flat ?_, List.forall_mem_singleton.2 (.union rfl ?_)⟩)
    · simp [head]
    · refine List.forall_mem_cons.2 ⟨.flat ?_, List.forall_mem_singleton.2 (.flat ?_)⟩
        <;> simp [head]
  have hbranch : ∀ x, empty.HasBranch t x →
      x = .string ∨ x = .null ∨ x = .object [width, height] := by
    have hobject (x : Ty) :
        empty.HasBranch (.object [width, height]) x ↔ x = .object [width, height] :=
      hasBranch_iff_eq (by simp [head])
    intro x hx
    simpa [t, hasBranch_union_iff, hasBranch_keyword_iff, hobject, head] using hx
  refine ⟨hequal, isAssignable_of_equal (ht.hasNesting.mono (by decide))
    (hs.hasNesting.mono (by decide))
    hequal (by simp [t, head]) hdepth (by decide) fun _ _ x hx => ?_⟩
  rcases hbranch x hx with rfl | rfl | rfl <;> simp [head]

end Decls

end StructuralTyping
