import StructuralTyping.Proofs.Assign.Respect
import StructuralTyping.Proofs.Join

/-!
# Unions as least upper bounds

A union may be used where all its branches may be used, and so may the type that
joins types, since flattening, dropping `never` and dropping duplicates do not
matter to the rules.

A joined type accepts what it was joined from, branch by branch, because a branch
is equal to one that was kept.  Three sources are decided before equality is
looked at and are left out: `this`, `unknown` and type parameters.  A joined type
that is itself `this` accepts nothing at all, not even `never`.
-/

namespace StructuralTyping

theorem Ty.orAny_orAny (t : Ty) : t.orAny.orAny = t.orAny := by cases t <;> rfl

theorem Ty.orAny_of_isMissing_eq_false {t : Ty} (h : t.isMissing = false) : t.orAny = t := by
  cases t <;> first | rfl | cases h

namespace Decls

variable {D : Decls} {ts : List Ty} {t u s x : Ty}

/-! ## Sources -/

theorem assignable_iff_follows : D.Assignable t s ↔ D.Follows D.Assignable t.orAny s.orAny := by
  refine ⟨D.consistent_assignable t s, fun h => ?_⟩
  exact ⟨fun a b => D.Follows D.Assignable a.orAny b.orAny,
    fun _ _ h => h.mono D.consistent_assignable, h⟩

theorem assignable_orAny_iff : D.Assignable t.orAny s ↔ D.Assignable t s := by
  rw [assignable_iff_follows, Ty.orAny_orAny, ← assignable_iff_follows]

theorem head_orAny_ne_this (hu : D.head u ≠ .this) : D.head u.orAny ≠ .this := by
  cases u with
  | missing => simp [Ty.orAny, head]
  | _ => exact hu

theorem isNever_iff : D.isNever x = true ↔ D.head x = .never := by
  rw [isNever, isKeyword]
  cases D.head x <;> simp

theorem head_orAny_of_isMissing (hx : x.isMissing = true) : D.head x.orAny = .any := by
  rw [eq_missing_of_isMissing hx]
  rfl

/-- What is missing or `never` may be used everywhere but for `this`. -/
theorem assignable_of_bottom (hu : D.head u ≠ .this)
    (hx : x.isMissing = true ∨ D.isNever x = true) : D.Assignable u x := by
  refine assignable_iff_follows.2 (.bottom (head_orAny_ne_this hu) ?_)
  cases hmissing : x.isMissing with
  | true => exact .inl (head_orAny_of_isMissing hmissing)
  | false =>
    rw [Ty.orAny_of_isMissing_eq_false hmissing]
    exact .inr (isNever_iff.1 (hx.resolve_left (by simp [hmissing])))

theorem orAny_of_head_union {bs : List Ty} (hs : D.head s = .union bs) : s.orAny = s := by
  cases s with
  | missing => cases hs
  | _ => rfl

/-- A union may be used where all its branches may be used. -/
theorem assignable_union_iff {bs : List Ty} (hu : D.head u ≠ .this) (hs : D.head s = .union bs) :
    D.Assignable u s ↔ ∀ b ∈ bs, D.Assignable u b := by
  have hthere := orAny_of_head_union hs
  constructor
  · intro h b hb
    have hfollows := assignable_iff_follows.1 h
    rw [hthere] at hfollows
    cases hfollows with
    | top ht => exact assignable_iff_follows.2 (.top ht)
    | unionSource _ hs' h =>
      obtain rfl := Ty.union.inj (hs.symm.trans hs')
      exact assignable_orAny_iff.1 (h b hb)
    | sameParam _ hs' | bound _ hs' | emptyObject _ hs' | unknownSource _ hs' =>
      cases hs.symm.trans hs'
    | bottom _ hs' => rcases hs' with hs' | hs' <;> cases hs.symm.trans hs'
    | equal _ hs' | shape _ hs' => rw [hs] at hs'; cases hs'
  · intro h
    refine assignable_iff_follows.2 ?_
    rw [hthere]
    exact .unionSource (head_orAny_ne_this hu) hs fun b hb => assignable_orAny_iff.2 (h b hb)

/-- A type may be used where all its branches may be used. -/
theorem assignable_iff_forall_branch {k : Nat} (hu : D.head u ≠ .this) (ht : D.HasHeight k t) :
    D.Assignable u t ↔ ∀ x, D.HasBranch t x → D.Assignable u x := by
  induction ht with
  | missing => simp [hasBranch_missing_iff]
  | @layer k t _ _ _ ih =>
    by_cases hunion : ∃ bs, D.head t = .union bs
    · obtain ⟨bs, hbs⟩ := hunion
      have hbranch : ∀ b ∈ bs, (D.Assignable u b ↔ ∀ x, D.HasBranch b x → D.Assignable u x) :=
        fun b hb => ih b (by rw [hbs]; exact hb)
      rw [assignable_union_iff hu hbs]
      simp only [hasBranch_union_iff hbs]
      constructor
      · rintro h x ⟨b, hb, hx⟩
        exact (hbranch b hb).1 (h b hb) x hx
      · exact fun h b hb => (hbranch b hb).2 fun x hx => h x ⟨b, hb, hx⟩
    · have hself : ∀ x, D.HasBranch t x ↔ x = t := fun x => hasBranch_iff_eq (not_exists.1 hunion)
      simp [hself]

/-! ## Joined types -/

/-- The branches that joining types keeps. -/
def joined (D : Decls) (ts : List Ty) : List Ty := D.distinct (D.unionLeaves ts)

theorem join_cases (D : Decls) (ts : List Ty) :
    (D.joined ts = [] ∧ D.join ts = .never) ∨ (∃ b, D.joined ts = [b] ∧ D.join ts = b) ∨
      D.join ts = .union (D.joined ts) := by
  rw [join, joined]
  split
  · next h => exact .inl ⟨h, rfl⟩
  · next b h => exact .inr (.inl ⟨b, h, rfl⟩)
  · exact .inr (.inr rfl)

/-- A branch that is kept is a branch of one of the types. -/
theorem exists_branch_of_mem_joined (hts : ∀ t ∈ ts, D.Acyclic t) (hx : x ∈ D.joined ts) :
    (∃ t ∈ ts, D.HasBranch t x) ∧ x.isMissing = false ∧ D.isNever x = false :=
  (mem_leaves_iff hts).1 (mem_of_mem_distinct hx)

/-- A joined type may be used where the branches that were kept may be used. -/
theorem assignable_join_iff (hu : D.head u ≠ .this) :
    D.Assignable u (D.join ts) ↔ ∀ b ∈ D.joined ts, D.Assignable u b := by
  rcases D.join_cases ts with ⟨hnil, hjoin⟩ | ⟨b, hsingle, hjoin⟩ | hjoin
  · simp [hnil, hjoin, assignable_of_bottom hu (x := .never) (.inr rfl)]
  · simp [hsingle, hjoin]
  · rw [hjoin]
    exact assignable_union_iff hu rfl

theorem HasNesting.of_mem_joined {n : Nat} (hts : ∀ t ∈ ts, D.HasNesting n t)
    (hx : x ∈ D.joined ts) : D.HasNesting n x := by
  obtain ⟨⟨t, ht, hbranch⟩, -⟩ := exists_branch_of_mem_joined (fun t ht => (hts t ht).acyclic) hx
  exact (hts t ht).of_reaches hbranch.reaches

/-- Joining nests types at most once more. -/
theorem HasNesting.join {n : Nat} (hts : ∀ t ∈ ts, D.HasNesting n t) :
    D.HasNesting (n + 1) (D.join ts) := by
  have hjoined : ∀ b ∈ D.joined ts, D.HasNesting n b := fun b hb => .of_mem_joined hts hb
  rcases D.join_cases ts with ⟨-, hjoin⟩ | ⟨b, hsingle, hjoin⟩ | hjoin
  · rw [hjoin]
    exact .leaf rfl rfl rfl
  · rw [hjoin]
    exact (hjoined b (by simp [hsingle])).mono (Nat.le_succ n)
  · rw [hjoin]
    refine .layer rfl rfl fun x hx => ?_
    exact hjoined x (by simpa [Ty.slots, Ty.parts, Ty.signatures, Ty.ownMembers?, head] using hx)

/-- A branch is equal to one that is kept, unless it is missing or `never`. -/
theorem exists_equal_mem_joined {n : Nat} (hts : ∀ t ∈ ts, D.HasNesting n t)
    (hn : n ≤ maxEqualDepth) (ht : t ∈ ts) (hx : D.HasBranch t x) (hthere : x.isMissing = false)
    (hnever : D.isNever x = false) : ∃ b ∈ D.joined ts, D.equal b x = true := by
  have hleaf : x ∈ D.unionLeaves ts :=
    (mem_leaves_iff fun t ht => (hts t ht).acyclic).2 ⟨⟨t, ht, hx⟩, hthere, hnever⟩
  obtain ⟨b, hb, rfl | hequal⟩ := exists_mem_distinct (D := D) hleaf
  · have hheight : D.HasHeight (n + 1) b := (HasNesting.of_mem_joined hts hb).hasHeight
    refine ⟨b, hb, (equalTypes_iff_bisimilar hheight.acyclic hheight.acyclic ?_).2 ?_⟩
    · exact .inl (hheight.mono (by omega))
    · exact bisimilar_equivalence.refl b
  · exact ⟨b, hb, hequal⟩

/-! ## The least upper bound -/

theorem assignable_of_equal {m n : Nat} {a b : Ty} (hu : D.HasNesting m u) (ha : D.HasNesting n a)
    (hb : D.HasNesting n b) (hkeysa : D.DistinctKeys a) (hkeysb : D.DistinctKeys b)
    (hdepth : m + n ≤ defaultMaxDepth) (hab : D.equal a b = true) (h : D.Assignable u a) :
    D.Assignable u b := by
  have hlimit : defaultMaxDepth ≤ maxEqualDepth := by decide
  have htarget : D.Interchangeable false (maxEqualDepth + 1) u u :=
    have hplain : D.IsPlain false (maxEqualDepth + 1) u := ⟨hu.hasHeight.mono (by omega), by simp⟩
    ⟨hplain, hplain, bisimilar_equivalence.refl u⟩
  have hsource : D.Interchangeable true (maxEqualDepth + 1) a b :=
    ⟨⟨ha.hasHeight.mono (by omega), fun _ => hkeysa⟩,
      ⟨hb.hasHeight.mono (by omega), fun _ => hkeysb⟩, bisimilar_of_equalWithin (by simp) hab⟩
  rw [← isAssignable_iff_assignable hu hb hdepth,
    ← isAssignable_eq_of_interchangeable le_rfl htarget hsource]
  exact (isAssignable_iff_assignable hu ha hdepth).2 h

/-- A joined type may be used where all of the types may be used. -/
theorem isAssignable_join_iff {m n : Nat} (hu : D.HasNesting m u) (hts : ∀ t ∈ ts, D.HasNesting n t)
    (hkeys : ∀ t ∈ ts, D.DistinctKeys t) (hdepth : m + n < defaultMaxDepth)
    (hthis : D.head u ≠ .this) :
    D.isAssignable u (D.join ts) = true ↔ ∀ t ∈ ts, D.isAssignable u t = true := by
  have hlimit : defaultMaxDepth ≤ maxEqualDepth := by decide
  have hacyclic : ∀ t ∈ ts, D.Acyclic t := fun t ht => (hts t ht).acyclic
  have hdecided : ∀ t ∈ ts,
      (D.isAssignable u t = true ↔ ∀ x, D.HasBranch t x → D.Assignable u x) := by
    intro t ht
    rw [isAssignable_iff_assignable hu (hts t ht) (by omega)]
    exact assignable_iff_forall_branch hthis (hts t ht).hasHeight
  rw [isAssignable_iff_assignable hu (.join hts) (by omega), assignable_join_iff hthis]
  constructor
  · intro h t ht
    refine (hdecided t ht).2 fun x hx => ?_
    by_cases hbottom : x.isMissing = true ∨ D.isNever x = true
    · exact assignable_of_bottom hthis hbottom
    · simp only [not_or, Bool.not_eq_true] at hbottom
      obtain ⟨b, hb, hequal⟩ := exists_equal_mem_joined hts (by omega) ht hx hbottom.1 hbottom.2
      obtain ⟨⟨t', ht', hbranch⟩, -⟩ := exists_branch_of_mem_joined hacyclic hb
      exact assignable_of_equal hu (.of_mem_joined hts hb) ((hts t ht).of_reaches hx.reaches)
        ((hkeys t' ht').of_reaches hbranch.reaches) ((hkeys t ht).of_reaches hx.reaches)
          hdepth.le hequal
        (h b hb)
  · intro h b hb
    obtain ⟨⟨t, ht, hbranch⟩, -⟩ := exists_branch_of_mem_joined hacyclic hb
    exact (hdecided t ht).1 (h t ht) b hbranch

/-! ## Accepting the types -/

theorem assignableWithin_orAny_iff {n : Nat} :
    D.AssignableWithin n t.orAny s ↔ D.AssignableWithin n t s := by
  cases n with
  | zero => rfl
  | succ n => rw [AssignableWithin, AssignableWithin, Ty.orAny_orAny]

/-- Unions are nested at most `n` deep at the top of a type.  A union without branches
counts as no union. -/
inductive HasUnionDepth (D : Decls) : Nat → Ty → Prop where
  | flat {n : Nat} {t : Ty} (ht : ∀ bs, D.head t = .union bs → bs = []) : D.HasUnionDepth n t
  | union {n : Nat} {t : Ty} {bs : List Ty} (ht : D.head t = .union bs)
      (hbs : ∀ b ∈ bs, D.HasUnionDepth n b) : D.HasUnionDepth (n + 1) t

/-- Unions are nested no deeper than all types. -/
theorem HasNesting.hasUnionDepth {n : Nat} (h : D.HasNesting n t) : D.HasUnionDepth n t := by
  induction h with
  | missing => exact .flat nofun
  | leaf _ _ hslots =>
    exact .flat fun bs hbs => by
      simpa [hbs, Ty.slots, Ty.parts, Ty.signatures, Ty.ownMembers?] using hslots
  | @layer n t _ _ _ ih =>
    by_cases hunion : ∃ bs, D.head t = .union bs
    · obtain ⟨bs, hbs⟩ := hunion
      exact .union hbs fun b hb => ih b (Ty.part_mem_slots (by rw [hbs]; exact hb))
    · exact .flat fun bs hbs => absurd ⟨bs, hbs⟩ hunion

/-- Going down to the branches of a source takes a step for each union on the way. -/
theorem assignableWithin_of_hasUnionDepth {n k : Nat} (hu : D.head u ≠ .this)
    (ht : D.HasUnionDepth k t) (h : ∀ x, D.HasBranch t x → D.AssignableWithin (n + 1) u x) :
    D.AssignableWithin (n + k + 1) u t := by
  have hunion {j : Nat} {t : Ty} {bs : List Ty} (hbs : D.head t = .union bs)
      (hask : ∀ b ∈ bs, D.AssignableWithin j u b) : D.AssignableWithin (j + 1) u t := by
    rw [AssignableWithin, orAny_of_head_union hbs]
    exact .unionSource (head_orAny_ne_this hu) hbs fun b hb =>
      assignableWithin_orAny_iff.2 (hask b hb)
  induction ht with
  | @flat k t ht =>
    by_cases hbs : ∃ bs, D.head t = .union bs
    · obtain ⟨bs, hbs⟩ := hbs
      obtain rfl := ht bs hbs
      exact hunion hbs (by simp)
    · exact (h t (.self (not_exists.1 hbs))).mono (by omega)
  | union hbs _ ih => exact hunion hbs fun b hb => ih b hb fun x hx => h x (.union hbs hb hx)

/-- Going down to the branches of a source takes no more steps than it is nested. -/
theorem assignableWithin_of_branches {n k : Nat} (hu : D.head u ≠ .this) (ht : D.HasNesting k t)
    (h : ∀ x, D.HasBranch t x → D.AssignableWithin (n + 1) u x) :
    D.AssignableWithin (n + k + 1) u t :=
  assignableWithin_of_hasUnionDepth hu ht.hasUnionDepth h

/-- A source that is compared is accepted by an equal target. -/
theorem assignableWithin_of_equal {b : Ty} (hb : b.isMissing = false) (hx : x.isMissing = false)
    (hthis : D.head x ≠ .this) (hcompared : (D.head x).isCompared = true) (h : D.equal b x = true) :
    D.AssignableWithin 1 b x := by
  have hlayer := isBisimulation_bisimilar b x (bisimilar_of_equalWithin (by simp) h)
  rw [AssignableWithin, Ty.orAny_of_isMissing_eq_false hb, Ty.orAny_of_isMissing_eq_false hx]
  exact .equal (hlayer.flip.ne_this hthis) hcompared h

/-- A branch has no rule of its own, but for `any`, `never`, `unknown` and type
parameters. -/
theorem HasBranch.isCompared (h : D.HasBranch t x) (hany : D.head x ≠ .any)
    (hnever : D.head x ≠ .never)
    (hunknown : D.head x ≠ .unknown) (hparam : ∀ name b, D.head x ≠ .param name b) :
    (D.head x).isCompared = true := by
  have hunion : ∀ bs, D.head x ≠ .union bs := fun bs => h.not_union
  unfold Ty.isCompared
  split
  · next bs hhead => exact absurd hhead (hunion bs)
  · next name b hhead => exact absurd hhead (hparam name b)
  · next hhead => exact absurd hhead hany
  · next hhead => exact absurd hhead hnever
  · next hhead => exact absurd hhead hunknown
  · rfl

/-- A joined type accepts the branches of the types, in two steps. -/
theorem assignableWithin_join {n : Nat} (hts : ∀ t ∈ ts, D.HasNesting n t) (hn : n ≤ maxEqualDepth)
    (hjoin : D.head (D.join ts) ≠ .this) (ht : t ∈ ts) (hx : D.HasBranch t x)
    (hthis : D.head x ≠ .this)
    (hunknown : D.head x ≠ .unknown) (hparam : ∀ name b, D.head x ≠ .param name b) :
    D.AssignableWithin 2 (D.join ts) x := by
  have hbottom (h : D.head x.orAny = .any ∨ D.head x.orAny = .never) :
      D.AssignableWithin 2 (D.join ts) x := .bottom (head_orAny_ne_this hjoin) h
  cases hthere : x.isMissing with
  | true => exact hbottom (.inl (head_orAny_of_isMissing hthere))
  | false =>
    rw [Ty.orAny_of_isMissing_eq_false hthere] at hbottom
    by_cases hany : D.head x = .any
    · exact hbottom (.inl hany)
    cases hnever : D.isNever x with
    | true => exact hbottom (.inr (isNever_iff.1 hnever))
    | false =>
      obtain ⟨b, hb, hequal⟩ := exists_equal_mem_joined hts hn ht hx hthere hnever
      obtain ⟨-, hbthere, -⟩ := exists_branch_of_mem_joined (fun t ht => (hts t ht).acyclic) hb
      have hcompared :=
        hx.isCompared hany (fun h => by simp [isNever_iff.2 h] at hnever) hunknown hparam
      have haccepted := assignableWithin_of_equal hbthere hthere hthis hcompared hequal
      rcases D.join_cases ts with ⟨hnil, -⟩ | ⟨c, hsingle, hc⟩ | hunion
      · simp [hnil] at hb
      · rw [hsingle, List.mem_singleton] at hb
        exact (hc.trans hb.symm) ▸ haccepted.mono (Nat.le_succ 1)
      · rw [hunion, AssignableWithin, Ty.orAny_of_isMissing_eq_false hthere]
        exact .shape (by simp [Ty.orAny, head]) hcompared (.union rfl hb haccepted)

/-- Joined types are least upper bounds.  A joined type may be used where all of the
types may be used.  Unless it is `this`, it accepts each of the types that has
neither `this` nor `unknown` nor a type parameter among its branches. -/
theorem join_isLeastUpperBound {n : Nat} (hts : ∀ t ∈ ts, D.HasNesting n t)
    (hkeys : ∀ t ∈ ts, D.DistinctKeys t) :
    (∀ u m, D.HasNesting m u → m + n < defaultMaxDepth → D.head u ≠ .this →
        (D.isAssignable u (D.join ts) = true ↔ ∀ t ∈ ts, D.isAssignable u t = true)) ∧
      (n < defaultMaxDepth → D.head (D.join ts) ≠ .this → ∀ t ∈ ts,
        (∀ x, D.HasBranch t x →
          D.head x ≠ .this ∧ D.head x ≠ .unknown ∧ ∀ name b, D.head x ≠ .param name b) →
        D.isAssignable (D.join ts) t = true) := by
  have hlimit : defaultMaxDepth ≤ maxEqualDepth := by decide
  refine ⟨fun u m hu hdepth hthis => isAssignable_join_iff hu hts hkeys hdepth hthis, ?_⟩
  intro hdepth hjoin t ht hbranches
  rw [isAssignable_iff_assignableWithin (.join hts) (hts t ht)]
  have haccepted : D.AssignableWithin (1 + n + 1) (D.join ts) t := by
    refine assignableWithin_of_branches hjoin (hts t ht) fun x hx => ?_
    obtain ⟨hthis, hunknown, hparam⟩ := hbranches x hx
    exact assignableWithin_join hts (by omega) hjoin ht hx hthis hunknown hparam
  exact haccepted.mono (by omega)

/-- A union that is joined with `string` is flattened, loses `never` and a branch that
is there already, and is accepted as it was. -/
theorem join_isLeastUpperBound_flattened :
    let nested : Ty := .union [.number, .union [.string, .never]]
    let wider : Ty := .union [.boolean, .string, .number]
    empty.isAssignable wider (empty.join [.string, nested]) = true ∧
      empty.isAssignable (empty.join [.string, nested]) nested = true := by
  intro nested wider
  have hheight : ∀ t ∈ [.string, nested], empty.HasHeight 3 t := by decide
  have hwider : empty.HasHeight 2 wider := by decide
  obtain ⟨hleast, hupper⟩ := join_isLeastUpperBound (fun t ht => (hheight t ht).hasNesting)
    fun t ht => (testKeys_iff (hheight t ht)).1 (by revert t; decide)
  have hjoin : empty.join [.string, nested] = .union [.string, .number] := rfl
  refine ⟨(hleast wider 2 hwider.hasNesting (by decide) (by simp [wider, head])).2 (by decide), ?_⟩
  refine hupper (by decide) (by simp [hjoin, head]) nested (by simp) fun x hx => ?_
  have hleaf : x = .number ∨ x = .string ∨ x = .never := by
    simpa [nested, hasBranch_union_iff, hasBranch_keyword_iff, head] using hx
  rcases hleaf with rfl | rfl | rfl <;> simp [head]

/-- Joining `this` and `never` gives `this`, which does not accept `never`. -/
theorem join_this_rejects_never :
    (∀ t ∈ [Ty.this, Ty.never], empty.HasNesting 0 t) ∧
      (∀ t ∈ [Ty.this, Ty.never], empty.DistinctKeys t) ∧
      (∀ x, empty.HasBranch .never x →
        empty.head x ≠ .this ∧ empty.head x ≠ .unknown ∧ ∀ name b, empty.head x ≠ .param name b) ∧
      empty.join [.this, .never] = .this ∧
      empty.isAssignable (empty.join [.this, .never]) .never = false := by
  have hheight : ∀ t ∈ [Ty.this, Ty.never], empty.HasHeight 1 t := by decide
  refine ⟨?_, fun t ht => (testKeys_iff (hheight t ht)).1 (by revert t; decide),
    fun x hx => ?_, rfl, rfl⟩
  · exact List.forall_mem_cons.2
      ⟨.leaf rfl rfl rfl, List.forall_mem_singleton.2 (.leaf rfl rfl rfl)⟩
  · obtain rfl := hasBranch_keyword_iff.1 hx
    simp [head]

end Decls

end StructuralTyping
