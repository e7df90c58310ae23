import StructuralTyping.Proofs.Equal.Graph
import StructuralTyping.Proofs.Equal.PartialEquivalence
import StructuralTyping.Ty.Join

/-!
# The branches of a union

A branch of a type is found by going down through nested unions, declared ones
included.  A type that is no union is its own branch.

A walk goes down a type and follows at most so many names in a row.  As many as are
declared are enough, because below an acyclic type no name comes twice on a path.  So a
walk may be unfolded as if there were no bound (`Decls.IsWalk.unfold`), and one that looks
for a branch finds every branch (`Decls.IsBranchWalk.iff`).  Joining types walks down to
their branches (`Decls.mem_leaves_iff`) and keeps one of each class of equal ones
(`Decls.exists_mem_distinct`).
-/

namespace StructuralTyping

/-- The branches of a union. -/
def Ty.unionBranches? : Ty → Option (List Ty)
  | .union bs => some bs
  | _ => none

theorem Ty.unionBranches?_eq_some_iff {t : Ty} {bs : List Ty} :
    t.unionBranches? = some bs ↔ t = .union bs := by
  cases t <;> simp [unionBranches?]

theorem Ty.unionBranches?_eq_none_iff {t : Ty} : t.unionBranches? = none ↔ ∀ bs, t ≠ .union bs := by
  cases t <;> simp [unionBranches?]

theorem Ty.unionLeavesList_eq_flatMap (nameLeaves : TypeName → List Ty) (ts : List Ty) :
    Ty.unionLeavesList nameLeaves ts = ts.flatMap (Ty.unionLeaves nameLeaves) := by
  induction ts with
  | nil => rfl
  | cons t ts ih => rw [Ty.unionLeavesList, List.flatMap_cons, ih]

namespace Decls

variable {D : Decls}

/-! ## Branches -/

/-- A branch of nested unions. -/
inductive HasBranch (D : Decls) : Ty → Ty → Prop where
  | self {t : Ty} (ht : ∀ bs, D.head t ≠ .union bs) : D.HasBranch t t
  | union {t b x : Ty} {bs : List Ty} (ht : D.head t = .union bs) (hb : b ∈ bs)
      (h : D.HasBranch b x) : D.HasBranch t x

section Branches

variable {t x : Ty} {bs : List Ty}

theorem hasBranch_iff_eq (ht : ∀ bs, D.head t ≠ .union bs) : D.HasBranch t x ↔ x = t := by
  constructor
  · intro h
    cases h with
    | self => rfl
    | union hunion => exact absurd hunion (ht _)
  · rintro rfl
    exact .self ht

theorem hasBranch_union_iff (ht : D.head t = .union bs) :
    D.HasBranch t x ↔ ∃ b ∈ bs, D.HasBranch b x := by
  constructor
  · intro h
    cases h with
    | self hnone => exact absurd ht (hnone _)
    | union hunion hb h =>
      obtain rfl := Ty.union.inj (hunion.symm.trans ht)
      exact ⟨_, hb, h⟩
  · rintro ⟨b, hb, h⟩
    exact .union ht hb h

theorem hasBranch_missing_iff : D.HasBranch .missing x ↔ x = .missing :=
  hasBranch_iff_eq (by simp [head])

theorem hasBranch_keyword_iff {k : Keyword} : D.HasBranch (.keyword k) x ↔ x = .keyword k :=
  hasBranch_iff_eq (by simp [head])

theorem HasBranch.reaches (h : D.HasBranch t x) : D.Reaches t x := by
  induction h with
  | self => exact .refl
  | union ht hb _ ih => exact .head (by rw [ht]; exact hb) ih

theorem HasBranch.not_union (h : D.HasBranch t x) : D.head x ≠ .union bs := by
  induction h with
  | self ht => exact ht bs
  | union _ _ _ ih => exact ih

end Branches

/-! ## Names in a row -/

theorem length_le_size {names : List TypeName} (hdistinct : names.Nodup)
    (hdeclared : ∀ n ∈ names, (D.find? n).isSome = true) : names.length ≤ D.size := by
  have hkeys : names ⊆ D.entries.map (·.1) := by
    intro n hn
    obtain ⟨e, he, hkey⟩ := List.lookup_isSome_iff.1 (hdeclared n hn)
    exact List.mem_map.2 ⟨e, he, (beq_iff_eq.1 hkey).symm⟩
  calc names.length ≤ (D.entries.map (·.1)).length :=
    (List.subperm_of_subset hdistinct hkeys).length_le
    _ = D.size := List.length_map _

/-- The names that were followed to come to a type, and enough fuel for the others. -/
structure NamesAbove (D : Decls) (fuel : Nat) (names : List TypeName) (t : Ty) : Prop where
  distinct : names.Nodup
  declared : ∀ n ∈ names, (D.find? n).isSome = true
  above : ∀ n ∈ names, D.LiesAbove (.named n) t
  enough : D.size ≤ fuel + names.length

namespace NamesAbove

variable {fuel : Nat} {names : List TypeName} {t x : Ty}

theorem nil (t : Ty) : D.NamesAbove D.size [] t where
  distinct := List.nodup_nil
  declared := by simp
  above := by simp
  enough := le_rfl

theorem part (h : D.NamesAbove fuel names t) (hx : x ∈ (D.head t).parts) :
    D.NamesAbove fuel names x where
  distinct := h.distinct
  declared := h.declared
  above n hn := (h.above n hn).tail hx
  enough := h.enough

/-- A name can be followed. -/
theorem follow {n : TypeName} (h : D.NamesAbove fuel names (.named n))
    (hacyclic : D.Acyclic (.named n)) (hn : (D.find? n).isSome = true) : ∃ rest, fuel = rest + 1 ∧
      ∀ x ∈ (D.head (.named n)).parts, D.NamesAbove rest (n :: names) x := by
  have hnew : n ∉ names := fun hmem => not_liesAbove_self hacyclic (h.above n hmem)
  have hdistinct : (n :: names).Nodup := List.nodup_cons.2 ⟨hnew, h.distinct⟩
  have hdeclared : ∀ m ∈ n :: names, (D.find? m).isSome = true :=
    List.forall_mem_cons.2 ⟨hn, h.declared⟩
  have hlength := length_le_size hdistinct hdeclared
  have henough := h.enough
  rw [List.length_cons] at hlength
  refine ⟨fuel - 1, by omega, fun x hx => ⟨hdistinct, hdeclared, ?_, ?_⟩⟩
  · exact List.forall_mem_cons.2 ⟨.single hx, fun m hm => (h.above m hm).tail hx⟩
  · rw [List.length_cons]
    omega

end NamesAbove

/-! ## Walks -/

theorem head_named_eq {n : TypeName} {u : Ty} (hn : D.find? n = some u) :
    D.head (.named n) = u := by
  simp [head, hn]

/-- A function that goes down types and follows at most so many names in a row.  What it
does at a type is `step`, which asks for nothing but the parts. -/
structure IsWalk {α : Type*} (D : Decls) (W : Nat → Ty → α) (step : (Ty → α) → Ty → α) : Prop where
  parts {f g : Ty → α} {t : Ty} (h : ∀ x ∈ (D.head t).parts, f x = g x) : step f t = step g t
  term (fuel : Nat) {t : Ty} (ht : t.isNamed = false) : W fuel t = step (W fuel) t
  followed (fuel : Nat) {n : TypeName} {u : Ty} (hn : D.find? n = some u)
    (hmissing : u.isMissing = false)
    (hnamed : u.isNamed = false) : W (fuel + 1) (.named n) = step (W fuel) (.named n)

namespace IsWalk

variable {α : Type*} {W : Nat → Ty → α} {step : (Ty → α) → Ty → α} {fuel : Nat}
  {names : List TypeName} {t : Ty}

/-- A walk takes a step, and what it does below needs no more names than are left. -/
theorem exists_step (hW : D.IsWalk W step) (ht : D.Acyclic t) (hnames : D.NamesAbove fuel names t) :
    ∃ rest names', W fuel t = step (W rest) t ∧
      ∀ x ∈ (D.head t).parts, D.NamesAbove rest names' x := by
  cases hnamed : t.isNamed with
  | false => exact ⟨fuel, names, hW.term fuel hnamed, fun x hx => hnames.part hx⟩
  | true =>
    obtain ⟨n, rfl⟩ : ∃ n, t = .named n := by cases t <;> first | exact ⟨_, rfl⟩ | cases hnamed
    obtain ⟨k, h⟩ := id ht
    cases h with
    | layer hdeclared hlayer hparts =>
      obtain ⟨u, hu⟩ : ∃ u, D.find? n = some u := by
        cases hfind : D.find? n with
        | none => simp [head, hfind, Ty.isMissing] at hdeclared
        | some u => exact ⟨u, rfl⟩
      rw [head_named_eq hu] at hdeclared hlayer
      obtain ⟨rest, rfl, hfollow⟩ := hnames.follow ht (by simp [hu])
      exact ⟨rest, n :: names, hW.followed rest hu hdeclared hlayer, hfollow⟩

/-- The bound has no say. -/
theorem eq_of_namesAbove (hW : D.IsWalk W step) {fuel' : Nat} {names' : List TypeName}
    (ht : D.Acyclic t)
    (hnames : D.NamesAbove fuel names t) (hnames' : D.NamesAbove fuel' names' t) :
    W fuel t = W fuel' t := by
  obtain ⟨k, h⟩ := id ht
  induction h generalizing fuel names fuel' names' with
  | missing =>
    rw [hW.term fuel rfl, hW.term fuel' rfl]
    exact hW.parts fun x hx => nomatch hx
  | layer _ _ _ ih =>
    obtain ⟨rest, above, hstep, hrest⟩ := hW.exists_step ht hnames
    obtain ⟨rest', above', hstep', hrest'⟩ := hW.exists_step ht hnames'
    rw [hstep, hstep']
    exact hW.parts fun x hx => ih x hx (ht.part hx) (hrest x hx) (hrest' x hx)

/-- On acyclic types a walk may be unfolded without a bound. -/
theorem unfold (hW : D.IsWalk W step) (ht : D.Acyclic t) : W D.size t = step (W D.size) t := by
  obtain ⟨rest, names, hstep, hrest⟩ := hW.exists_step ht (.nil t)
  rw [hstep]
  exact hW.parts fun x hx => hW.eq_of_namesAbove (ht.part hx) (hrest x hx) (.nil x)

end IsWalk

/-- A test that walks down the unions of a type and looks for a branch with a property.  It
follows at most so many names in a row. -/
structure IsBranchWalk (D : Decls) (W : Nat → Ty → Prop) (Q : Ty → Prop) : Prop where
  union (fuel : Nat) (bs : List Ty) : W fuel (.union bs) ↔ ∃ b ∈ bs, W fuel b
  followed (fuel : Nat) {n : TypeName} {bs : List Ty} (hn : D.find? n = some (.union bs)) :
    W (fuel + 1) (.named n) ↔ ∃ b ∈ bs, W fuel b
  leaf (fuel : Nat) {t : Ty} (hnamed : t.isNamed = false) (ht : ∀ bs, t ≠ .union bs) :
    W fuel t ↔ Q t
  named (fuel : Nat) {n : TypeName} {t : Ty} (hn : D.find? n = some t)
    (hmissing : t.isMissing = false)
    (hnamed : t.isNamed = false) (ht : ∀ bs, t ≠ .union bs) : W (fuel + 1) (.named n) ↔ Q (.named n)

/-- Goes on to the branches, and asks for the property of a leaf. -/
def branchStep (D : Decls) (Q : Ty → Prop) (f : Ty → Prop) (t : Ty) : Prop :=
  match (D.head t).unionBranches? with
  | some bs => ∃ b ∈ bs, f b
  | none => Q t

theorem branchStep_union {Q f : Ty → Prop} {t : Ty} {bs : List Ty} (ht : D.head t = .union bs) :
    D.branchStep Q f t ↔ ∃ b ∈ bs, f b := by
  rw [branchStep, ht, Ty.unionBranches?]

theorem branchStep_leaf {Q f : Ty → Prop} {t : Ty} (ht : ∀ bs, D.head t ≠ .union bs) :
    D.branchStep Q f t ↔ Q t := by
  rw [branchStep, Ty.unionBranches?_eq_none_iff.2 ht]

theorem IsBranchWalk.isWalk {W : Nat → Ty → Prop} {Q : Ty → Prop} (hW : D.IsBranchWalk W Q) :
    D.IsWalk W (D.branchStep Q) where
  parts {f g t} h := by
    by_cases hunion : ∃ bs, D.head t = .union bs
    · obtain ⟨bs, hbs⟩ := hunion
      rw [branchStep, branchStep, hbs, Ty.unionBranches?]
      exact propext (exists_congr fun b => and_congr_right fun hb => by
        rw [h b (by rw [hbs]; exact hb)])
    · rw [branchStep, branchStep, Ty.unionBranches?_eq_none_iff.2 (not_exists.1 hunion)]
  term fuel t ht := by
    have hhead : D.head t = t := head_of_isNamed_eq_false ht
    by_cases hunion : ∃ bs, t = .union bs
    · obtain ⟨bs, rfl⟩ := hunion
      rw [hW.union, branchStep_union rfl]
    · rw [hW.leaf fuel ht (not_exists.1 hunion), branchStep_leaf (hhead.symm ▸ not_exists.1 hunion)]
  followed fuel n u hn hmissing hnamed := by
    have hhead : D.head (.named n) = u := head_named_eq hn
    by_cases hunion : ∃ bs, u = .union bs
    · obtain ⟨bs, rfl⟩ := hunion
      rw [hW.followed fuel hn, branchStep_union hhead]
    · rw [hW.named fuel hn hmissing hnamed (not_exists.1 hunion),
        branchStep_leaf (hhead.symm ▸ not_exists.1 hunion)]

/-- A walk down an acyclic type finds every branch. -/
theorem IsBranchWalk.iff {W : Nat → Ty → Prop} {Q : Ty → Prop} {t : Ty} (hW : D.IsBranchWalk W Q)
    (ht : D.Acyclic t) : W D.size t ↔ ∃ x, D.HasBranch t x ∧ Q x := by
  obtain ⟨k, h⟩ := id ht
  induction h with
  | missing => simp [hW.leaf D.size (t := .missing) rfl nofun, hasBranch_missing_iff]
  | @layer k t _ _ _ ih =>
    rw [hW.isWalk.unfold ht]
    by_cases hunion : ∃ bs, D.head t = .union bs
    · obtain ⟨bs, hbs⟩ := hunion
      have hbranch (b) (hb : b ∈ bs) : W D.size b ↔ ∃ x, D.HasBranch b x ∧ Q x :=
        ih b (by rw [hbs]; exact hb) (ht.part (by rw [hbs]; exact hb))
      rw [branchStep_union hbs]
      constructor
      · rintro ⟨b, hb, hw⟩
        obtain ⟨x, hx, hq⟩ := (hbranch b hb).1 hw
        exact ⟨x, .union hbs hb hx, hq⟩
      · rintro ⟨x, hx, hq⟩
        obtain ⟨b, hb, hx⟩ := (hasBranch_union_iff hbs).1 hx
        exact ⟨b, hb, (hbranch b hb).2 ⟨x, hx, hq⟩⟩
    · rw [branchStep_leaf (not_exists.1 hunion)]
      simp only [hasBranch_iff_eq (not_exists.1 hunion), exists_eq_left]

/-! ## Leaves -/

section Leaves

variable {t x : Ty}

/-- A type that is no union is a leaf, unless it is missing or `never`. -/
theorem mem_unionLeaves_of_not_union {nameLeaves : TypeName → List Ty} (hnamed : t.isNamed = false)
    (ht : ∀ bs, t ≠ .union bs) :
    x ∈ t.unionLeaves nameLeaves ↔ t = x ∧ x.isMissing = false ∧ D.isNever x = false := by
  have hleaf : t.unionLeaves nameLeaves = if t.isMissing || D.isNever t then [] else [t] := by
    cases t with
    | union bs => exact absurd rfl (ht bs)
    | named n => cases hnamed
    | _ => rfl
  rw [hleaf]
  constructor
  · intro hx
    split at hx
    · cases hx
    · obtain rfl := List.mem_singleton.1 hx
      simp_all
  · rintro ⟨rfl, hmissing, hnever⟩
    simp [hmissing, hnever]

theorem mem_unionNameLeaves_of_not_union {fuel : Nat} {n : TypeName} (hn : D.find? n = some t)
    (hmissing : t.isMissing = false) (hnamed : t.isNamed = false) (ht : ∀ bs, t ≠ .union bs) :
    x ∈ D.unionNameLeaves (fuel + 1) n ↔
      .named n = x ∧ x.isMissing = false ∧ D.isNever x = false := by
  have hnever : D.isNever (.named n) = D.isNever t := by
    rw [isNever, isNever, isKeyword, isKeyword, head_of_isNamed_eq_false hnamed]
    simp [head, hn]
  have hleaf : D.unionNameLeaves (fuel + 1) n =
      if D.isNever (.named n) then [] else [.named n] := by
    rw [unionNameLeaves, hn, hnever]
    cases t with
    | union bs => exact absurd rfl (ht bs)
    | _ => simp [hmissing]
  rw [hleaf]
  constructor
  · intro hx
    split at hx
    · cases hx
    · obtain rfl := List.mem_singleton.1 hx
      simp_all [Ty.isMissing]
  · rintro ⟨rfl, -, hnever⟩
    simp [hnever]

/-- Collecting the leaves is a walk. -/
theorem isBranchWalk_mem_unionLeaves (D : Decls) (x : Ty) :
    D.IsBranchWalk (fun fuel t => x ∈ t.unionLeaves (D.unionNameLeaves fuel))
      (fun t => t = x ∧ x.isMissing = false ∧ D.isNever x = false) where
  union fuel bs := by rw [Ty.unionLeaves, Ty.unionLeavesList_eq_flatMap, List.mem_flatMap]
  followed fuel n bs hn := by
    simp only [Ty.unionLeaves, unionNameLeaves, hn, Ty.unionLeavesList_eq_flatMap, List.mem_flatMap]
  leaf fuel t hnamed ht := mem_unionLeaves_of_not_union hnamed ht
  named fuel n t hn hmissing hnamed ht := mem_unionNameLeaves_of_not_union hn hmissing hnamed ht

/-- The leaves of an acyclic type are its branches, without missing ones and `never`. -/
theorem mem_unionLeaves_iff (ht : D.Acyclic t) :
    x ∈ t.unionLeaves (D.unionNameLeaves D.size) ↔
      D.HasBranch t x ∧ x.isMissing = false ∧ D.isNever x = false := by
  rw [(D.isBranchWalk_mem_unionLeaves x).iff ht]
  constructor
  · rintro ⟨y, hy, rfl, hx⟩
    exact ⟨hy, hx⟩
  · rintro ⟨hbranch, hx⟩
    exact ⟨x, hbranch, rfl, hx⟩

/-- The leaves of joined types are their branches, without missing ones and `never`. -/
theorem mem_leaves_iff {ts : List Ty} (hts : ∀ t ∈ ts, D.Acyclic t) :
    x ∈ D.unionLeaves ts ↔
      (∃ t ∈ ts, D.HasBranch t x) ∧ x.isMissing = false ∧ D.isNever x = false := by
  rw [unionLeaves, Ty.unionLeavesList_eq_flatMap, List.mem_flatMap]
  constructor
  · rintro ⟨t, ht, hx⟩
    have hbranch := (mem_unionLeaves_iff (hts t ht)).1 hx
    exact ⟨⟨t, ht, hbranch.1⟩, hbranch.2⟩
  · rintro ⟨⟨t, ht, hbranch⟩, hx⟩
    exact ⟨t, ht, (mem_unionLeaves_iff (hts t ht)).2 ⟨hbranch, hx⟩⟩

end Leaves

/-! ## Distinct branches -/

section Distinct

variable {ts : List Ty} {x : Ty}

theorem subset_foldl_addBranch (ts kept : List Ty) : kept ⊆ ts.foldl D.addBranch kept := by
  induction ts generalizing kept with
  | nil => exact fun _ h => h
  | cons t ts ih =>
    have hadd : kept ⊆ D.addBranch kept t := by
      rw [addBranch]
      split
      · exact fun _ h => h
      · exact List.subset_append_left _ _
    exact fun _ h => ih _ (hadd h)

theorem mem_of_mem_foldl_addBranch {kept : List Ty} (h : x ∈ ts.foldl D.addBranch kept) :
    x ∈ kept ∨ x ∈ ts := by
  induction ts generalizing kept with
  | nil => exact .inl h
  | cons t ts ih =>
    rcases ih h with h | h
    · rw [addBranch] at h
      split at h
      · exact .inl h
      · rcases List.mem_append.1 h with h | h
        · exact .inl h
        · exact .inr (List.mem_singleton.1 h ▸ .head _)
    · exact .inr (.tail _ h)

theorem exists_mem_foldl_addBranch (kept : List Ty) (h : x ∈ ts) :
    ∃ b ∈ ts.foldl D.addBranch kept, b = x ∨ D.equal b x = true := by
  induction ts generalizing kept with
  | nil => cases h
  | cons t ts ih =>
    rcases List.mem_cons.1 h with rfl | h
    · by_cases hany : kept.any (D.equal · x) = true
      · obtain ⟨b, hb, hequal⟩ := List.any_eq_true.1 hany
        refine ⟨b, subset_foldl_addBranch ts _ ?_, .inr hequal⟩
        rwa [addBranch, if_pos hany]
      · refine ⟨x, subset_foldl_addBranch ts _ ?_, .inl rfl⟩
        rw [addBranch, if_neg hany]
        exact List.mem_append_right _ (.head _)
    · exact ih _ h

/-- What is kept was there. -/
theorem mem_of_mem_distinct (h : x ∈ D.distinct ts) : x ∈ ts :=
  (mem_of_mem_foldl_addBranch h).resolve_left (by simp)

/-- What was there is kept, or an equal type is. -/
theorem exists_mem_distinct (h : x ∈ ts) : ∃ b ∈ D.distinct ts, b = x ∨ D.equal b x = true :=
  exists_mem_foldl_addBranch [] h

end Distinct

end Decls

end StructuralTyping
