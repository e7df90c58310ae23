import StructuralTyping.Proofs.Assign.Union
import StructuralTyping.Ty.Narrow

/-!
# Keywords among the branches

The predicates on types look for a branch that is a given keyword.  On an acyclic type
they say whether there is one (`Decls.hasBranch_iff`).  A joined type has every such branch
of the types that it was joined from, unless the keyword is `never` (`Decls.hasBranch_join`),
and no other (`Decls.exists_of_hasBranch_join`).

Joining walks down the same unions as the predicates, and neither follows more names in
a row than are declared.  So the keyword that a predicate finds is found in one of the
leaves as well.  The leaf is kept, or an equal one is, and equal types that are no unions
agree at their heads.  Cycles matter only to the converse.
-/

namespace StructuralTyping

/-! ## The walk down a type -/

namespace Ty

variable {nameHas nameHas' : TypeName → Bool} {nameLeaves : TypeName → List Ty} {p : Keyword → Bool}
  {k : Keyword} {Q : Ty → Prop}

theorem hasBranchList_iff {ts : List Ty} :
    hasBranchList nameHas p ts = true ↔ ∃ t ∈ ts, t.hasBranch nameHas p = true := by
  induction ts with
  | nil => simp [hasBranchList]
  | cons t ts ih => simp [hasBranchList, ih]

theorem hasBranch_leaf_iff {t : Ty} (hnamed : t.isNamed = false) (ht : ∀ bs, t ≠ .union bs) :
    t.hasBranch nameHas (· == k) = true ↔ t = .keyword k := by
  cases t with
  | union bs => exact absurd rfl (ht bs)
  | named n => cases hnamed
  | _ => simp [hasBranch]

mutual

/-- A branch is found again where more is known of the declared names. -/
theorem hasBranch_mono (hnames : ∀ n, nameHas n = true → nameHas' n = true) :
    ∀ t : Ty, t.hasBranch nameHas p = true → t.hasBranch nameHas' p = true
  | .keyword _, h => h
  | .union bs, h => hasBranchList_mono hnames bs h
  | .named n, h => hnames n h
  | .missing, h | .literal _, h | .array _, h | .tuple _, h | .inter _, h | .object _, h
  | .interface _ _ _ _, h | .classType _ _ _ _, h | .function _, h | .ctor _, h | .enum _ _ _, h
  | .variant _ _, h | .param _ _, h | .this, h | .indexed _ _, h | .regExp, h
  | .other _, h => by cases h
termination_by structural t => t

theorem hasBranchList_mono (hnames : ∀ n, nameHas n = true → nameHas' n = true) :
    ∀ ts : List Ty, hasBranchList nameHas p ts = true → hasBranchList nameHas' p ts = true
  | [], h => by cases h
  | t :: ts, h => by
    rw [hasBranchList, Bool.or_eq_true] at h ⊢
    exact h.imp (hasBranch_mono hnames t) (hasBranchList_mono hnames ts)
termination_by structural ts => ts

end

mutual

/-- A keyword that is found among the branches is found in a leaf. -/
theorem exists_leaf_of_hasBranch (hk : k ≠ .never) (hkeyword : Q (.keyword k))
    (hnames : ∀ n, nameHas n = true → ∃ x ∈ nameLeaves n, Q x) :
    ∀ t : Ty, t.hasBranch nameHas (· == k) = true → ∃ x ∈ t.unionLeaves nameLeaves, Q x
  | .keyword l, h => by
    obtain rfl : l = k := beq_iff_eq.1 h
    refine ⟨.keyword l, ?_, hkeyword⟩
    simp [unionLeaves, hk]
  | .union bs, h => exists_leaf_of_hasBranchList hk hkeyword hnames bs h
  | .named n, h => hnames n h
  | .missing, h | .literal _, h | .array _, h | .tuple _, h | .inter _, h | .object _, h
  | .interface _ _ _ _, h | .classType _ _ _ _, h | .function _, h | .ctor _, h | .enum _ _ _, h
  | .variant _ _, h | .param _ _, h | .this, h | .indexed _ _, h | .regExp, h
  | .other _, h => by cases h
termination_by structural t => t

theorem exists_leaf_of_hasBranchList (hk : k ≠ .never) (hkeyword : Q (.keyword k))
    (hnames : ∀ n, nameHas n = true → ∃ x ∈ nameLeaves n, Q x) :
    ∀ ts : List Ty, hasBranchList nameHas (· == k) ts = true →
      ∃ x ∈ unionLeavesList nameLeaves ts, Q x
  | [], h => by cases h
  | t :: ts, h => by
    rw [hasBranchList, Bool.or_eq_true] at h
    rw [unionLeavesList]
    rcases h with h | h
    · obtain ⟨x, hx, hQ⟩ := exists_leaf_of_hasBranch hk hkeyword hnames t h
      exact ⟨x, List.mem_append_left _ hx, hQ⟩
    · obtain ⟨x, hx, hQ⟩ := exists_leaf_of_hasBranchList hk hkeyword hnames ts h
      exact ⟨x, List.mem_append_right _ hx, hQ⟩
termination_by structural ts => ts

end

end Ty

namespace Decls

variable {D : Decls} {k : Keyword} {t x b : Ty} {ts : List Ty}

/-! ## Heads -/

theorem nameHasBranch_mono {p : Keyword → Bool} {m n : Nat} (hmn : m ≤ n) {name : TypeName}
    (h : D.nameHasBranch p m name = true) : D.nameHasBranch p n name = true := by
  induction m generalizing n name with
  | zero => cases h
  | succ m ih =>
    obtain ⟨n, rfl⟩ : ∃ l, n = l + 1 := ⟨n - 1, by omega⟩
    exact Ty.hasBranch_mono (fun _ => ih (by omega)) _ h

/-- Where there is no union at the head, the head tells whether there is the keyword. -/
theorem hasBranch_eq_head (ht : ∀ bs, D.head t ≠ .union bs) :
    D.hasBranch k t = (D.head t).hasBranch (D.nameHasBranch (· == k) (D.size - 1)) (· == k) := by
  cases t with
  | named n =>
    change D.nameHasBranch (· == k) D.size n = _
    cases hsize : D.size with
    | zero =>
      have hentries : D.entries = [] := List.eq_nil_of_length_eq_zero hsize
      have hnone : D.find? n = none := by simp [find?, hentries]
      simp [head, hnone, nameHasBranch, Ty.hasBranch]
    | succ size => rfl
  | union bs => exact absurd rfl (ht bs)
  | _ => rfl

theorem hasBranch_eq_false_of_isNever (hk : k ≠ .never) (ht : D.isNever t = true) :
    D.hasBranch k t = false := by
  have hhead : D.head t = .never := isNever_iff.1 ht
  rw [hasBranch_eq_head (by simp [hhead]), hhead]
  simpa [Ty.hasBranch] using hk.symm

/-- A type that unfolds like one with the keyword has it, too. -/
theorem hasBranch_of_bisimilar {names : Bool} (hx : D.hasBranch k x = true)
    (hunion : ∀ bs, D.head x ≠ .union bs) (h : D.Bisimilar names x b) : D.hasBranch k b = true := by
  have hlayer := isBisimulation_bisimilar x b h
  rw [hasBranch_eq_head hunion] at hx
  have hheads : D.head b = D.head x := by
    generalize D.head x = u, D.head b = v at hx hlayer hunion
    cases u with
    | keyword l => exact hlayer.eq_keyword
    | named n =>
      cases hlayer with
      | named => rfl
      | raw hraw => cases hraw
    | union bs => exact absurd rfl (hunion bs)
    | _ => cases hx
  rwa [hasBranch_eq_head (hheads ▸ hunion), hheads]

/-! ## Joined types -/

/-- What a leaf has to be for equal types to have the keyword as well. -/
def IsKeywordLeaf (D : Decls) (k : Keyword) (x : Ty) : Prop :=
  D.hasBranch k x = true ∧ ∀ bs, D.head x ≠ .union bs

theorem isKeywordLeaf_keyword : D.IsKeywordLeaf k (.keyword k) :=
  ⟨by simp [hasBranch, Ty.hasBranch], by simp [head]⟩

theorem exists_leaf_of_nameHasBranch (hk : k ≠ .never) {fuel : Nat} (hfuel : fuel ≤ D.size)
    {n : TypeName} (h : D.nameHasBranch (· == k) fuel n = true) :
    ∃ x ∈ D.unionNameLeaves fuel n, D.IsKeywordLeaf k x := by
  induction fuel generalizing n with
  | zero => cases h
  | succ fuel ih =>
    rw [nameHasBranch] at h
    rw [unionNameLeaves]
    cases hfind : D.find? n with
    | none => simp [hfind, Ty.hasBranch] at h
    | some u =>
      rw [hfind, Option.getD_some] at h
      by_cases hunion : ∃ bs, u = .union bs
      · obtain ⟨bs, rfl⟩ := hunion
        exact Ty.exists_leaf_of_hasBranchList hk isKeywordLeaf_keyword (fun _ => ih (by omega)) bs h
      · -- A name that is followed no further is a leaf itself.
        have hname : D.hasBranch k (.named n) = true := by
          refine nameHasBranch_mono (m := fuel + 1) hfuel ?_
          rwa [nameHasBranch, hfind]
        have hhead : D.head (.named n) = u := by simp [head, hfind]
        have hu : D.hasBranch k u = true :=
          Ty.hasBranch_mono (fun _ => nameHasBranch_mono (by omega)) u h
        have hnever : D.isNever u = false := by
          by_contra hnever
          simp [hasBranch_eq_false_of_isNever hk (Bool.not_eq_false _ ▸ hnever)] at hu
        have hthere : u.isMissing = false := by cases u <;> first | rfl | cases h
        refine ⟨.named n, ?_, hname, fun bs hbs => hunion ⟨bs, hhead.symm.trans hbs⟩⟩
        cases u with
        | union bs => exact absurd ⟨bs, rfl⟩ hunion
        | _ => simp [hnever, hthere]

/-- A joined type has the keywords among the branches of the types, but for `never`. -/
theorem hasBranch_join (hk : k ≠ .never) (ht : t ∈ ts) (h : D.hasBranch k t = true) :
    D.hasBranch k (D.join ts) = true := by
  obtain ⟨x, hx, hleaf, hunion⟩ : ∃ x ∈ D.unionLeaves ts, D.IsKeywordLeaf k x :=
    Ty.exists_leaf_of_hasBranchList hk isKeywordLeaf_keyword
      (fun _ => exists_leaf_of_nameHasBranch hk le_rfl) ts (Ty.hasBranchList_iff.2 ⟨t, ht, h⟩)
  obtain ⟨b, hb, hbx⟩ := exists_mem_distinct (D := D) hx
  have hkept : D.hasBranch k b = true := by
    rcases hbx with rfl | hequal
    · exact hleaf
    · exact hasBranch_of_bisimilar hleaf hunion
        (bisimilar_equivalence.symm (bisimilar_of_equalWithin (by simp) hequal))
  rcases D.join_cases ts with ⟨hnil, -⟩ | ⟨c, hsingle, hjoin⟩ | hjoin
  · rw [joined] at hnil
    simp [hnil] at hb
  · rw [joined] at hsingle
    rw [hsingle, List.mem_singleton] at hb
    rwa [hjoin, ← hb]
  · rw [hjoin]
    exact Ty.hasBranchList_iff.2 ⟨b, hb, hkept⟩

/-! ## Acyclic types -/

theorem HasBranch.acyclic (h : D.HasBranch t x) (ht : D.Acyclic t) : D.Acyclic x := by
  induction h with
  | self => exact ht
  | union hbs hb _ ih => exact ih (ht.part (by rw [hbs]; exact hb))

/-- Looking for a keyword is a walk. -/
theorem isBranchWalk_hasBranch (D : Decls) (k : Keyword) :
    D.IsBranchWalk (fun fuel t => t.hasBranch (D.nameHasBranch (· == k) fuel) (· == k) = true)
      (fun t => D.head t = .keyword k) where
  union fuel bs := Ty.hasBranchList_iff
  followed fuel n bs hn := by
    simp only [Ty.hasBranch, nameHasBranch, hn, Option.getD_some, Ty.hasBranchList_iff]
  leaf fuel t hnamed ht := by
    rw [head_of_isNamed_eq_false hnamed]
    exact Ty.hasBranch_leaf_iff hnamed ht
  named fuel n t hn _ hnamed ht := by
    simp only [Ty.hasBranch, nameHasBranch, head, hn, Option.getD_some]
    exact Ty.hasBranch_leaf_iff hnamed ht

/-- The predicates on an acyclic type say whether a branch is the keyword. -/
theorem hasBranch_iff (ht : D.Acyclic t) :
    D.hasBranch k t = true ↔ ∃ x, D.HasBranch t x ∧ D.head x = .keyword k :=
  (D.isBranchWalk_hasBranch k).iff ht

/-- A joined type has no other keywords among its branches than the types. -/
theorem exists_of_hasBranch_join (hk : k ≠ .never) (hts : ∀ t ∈ ts, D.Acyclic t)
    (h : D.hasBranch k (D.join ts) = true) : ∃ t ∈ ts, D.hasBranch k t = true := by
  obtain ⟨b, hb, hkept⟩ : ∃ b ∈ D.joined ts, D.hasBranch k b = true := by
    rcases D.join_cases ts with ⟨-, hjoin⟩ | ⟨c, hsingle, hjoin⟩ | hjoin
    · rw [hjoin, hasBranch_eq_false_of_isNever hk rfl] at h
      cases h
    · exact ⟨c, by simp [hsingle], hjoin ▸ h⟩
    · rw [hjoin] at h
      exact Ty.hasBranchList_iff.1 h
  obtain ⟨⟨t, ht, hbranch⟩, -, -⟩ := exists_branch_of_mem_joined hts hb
  obtain ⟨x, hx, hhead⟩ := (hasBranch_iff (hbranch.acyclic (hts t ht))).1 hkept
  obtain rfl := (hasBranch_iff_eq fun bs => hbranch.not_union).1 hx
  exact ⟨t, ht, (hasBranch_iff (hts t ht)).2 ⟨x, hbranch, hhead⟩⟩

end Decls

end StructuralTyping
