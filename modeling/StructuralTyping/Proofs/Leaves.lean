import StructuralTyping.Proofs.Join
import StructuralTyping.Ty.Narrow

/-!
# Leaves in order

`Decls.LeafSequence` says what the leaves of types are, in order and without a walk: nested
branches take the place of the type that holds them, until nothing is nested any more.
Every list of acyclic types has one such sequence (`Decls.exists_leafSequence`,
`Decls.LeafSequence.unique`).

Joining and meeting collect it, except for the leaves that do not count
(`Decls.Collects.eq_filter`).  Narrowing is a walk as well, and is unfolded by the shape at
the head (`Decls.without_eq_narrowStep`).
-/

namespace StructuralTyping

/-- The branches of an intersection. -/
def Ty.interBranches? : Ty → Option (List Ty)
  | .inter bs => some bs
  | _ => none

theorem Ty.interBranches?_eq_some_iff {t : Ty} {bs : List Ty} :
    t.interBranches? = some bs ↔ t = .inter bs := by
  cases t <;> simp [interBranches?]

theorem Ty.interBranches?_eq_none_iff {t : Ty} : t.interBranches? = none ↔ ∀ bs, t ≠ .inter bs := by
  cases t <;> simp [interBranches?]

theorem Ty.interLeavesList_eq_flatMap (nameLeaves : TypeName → List Ty) (ts : List Ty) :
    Ty.interLeavesList nameLeaves ts = ts.flatMap (Ty.interLeaves nameLeaves) := by
  induction ts with
  | nil => rfl
  | cons t ts ih => rw [Ty.interLeavesList, List.flatMap_cons, ih]

theorem Ty.withoutList_eq_map {D : Decls} {nameWithout : TypeName → Ty} {drops : Ty → Bool}
    (ts : List Ty) :
    Ty.withoutList D nameWithout drops ts = ts.map (Ty.without D nameWithout drops) := by
  induction ts with
  | nil => rfl
  | cons t ts ih => rw [Ty.withoutList, List.map_cons, ih]

/-- The branches are among the parts. -/
def AreParts (branches? : Ty → Option (List Ty)) : Prop :=
  ∀ {t : Ty} {bs : List Ty}, branches? t = some bs → bs ⊆ t.parts

theorem areParts_unionBranches? : AreParts Ty.unionBranches? := by
  intro t bs h
  rw [Ty.unionBranches?_eq_some_iff.1 h]
  exact List.Subset.refl _

theorem areParts_interBranches? : AreParts Ty.interBranches? := by
  intro t bs h
  rw [Ty.interBranches?_eq_some_iff.1 h]
  exact List.Subset.refl _

namespace Decls

variable {D : Decls} {t u x : Ty} {ts us bs ls ms : List Ty} {branches? : Ty → Option (List Ty)}
  {counts drops : Ty → Bool}

/-! ## The sequence of leaves -/

/-- The leaves of types from left to right.  What is nested by `branches?` is no leaf. -/
inductive LeafSequence (D : Decls) (branches? : Ty → Option (List Ty)) :
    List Ty → List Ty → Prop where
  | nil : D.LeafSequence branches? [] []
  | nested {t : Ty} {ts bs ls : List Ty} (ht : branches? (D.head t) = some bs)
      (h : D.LeafSequence branches? (bs ++ ts) ls) : D.LeafSequence branches? (t :: ts) ls
  | leaf {t : Ty} {ts ls : List Ty} (ht : branches? (D.head t) = none)
      (h : D.LeafSequence branches? ts ls) : D.LeafSequence branches? (t :: ts) (t :: ls)

namespace LeafSequence

theorem append (h : D.LeafSequence branches? ts ls) (h' : D.LeafSequence branches? us ms) :
    D.LeafSequence branches? (ts ++ us) (ls ++ ms) := by
  induction h with
  | nil => exact h'
  | nested ht _ ih => exact .nested ht (List.append_assoc _ _ us ▸ ih)
  | leaf ht _ ih => exact .leaf ht ih

/-- Types have one sequence of leaves. -/
theorem unique (h : D.LeafSequence branches? ts ls) (h' : D.LeafSequence branches? ts ms) :
    ls = ms := by
  induction h generalizing ms with
  | nil =>
    cases h'
    rfl
  | nested ht _ ih =>
    cases h' with
    | nested ht' h' =>
      obtain rfl := Option.some.inj (ht.symm.trans ht')
      exact ih h'
    | leaf ht' => cases ht.symm.trans ht'
  | leaf ht _ ih =>
    cases h' with
    | nested ht' => cases ht.symm.trans ht'
    | leaf _ h' => rw [ih h']

/-- Leaves are their own leaves. -/
theorem self (h : ∀ x ∈ ls, branches? (D.head x) = none) : D.LeafSequence branches? ls ls := by
  induction ls with
  | nil => exact .nil
  | cons x ls ih =>
    obtain ⟨hx, hls⟩ := List.forall_mem_cons.1 h
    exact .leaf hx (ih hls)

theorem branches?_eq_none (h : D.LeafSequence branches? ts ls) :
    ∀ x ∈ ls, branches? (D.head x) = none := by
  induction h with
  | nil => exact fun x hx => nomatch hx
  | nested _ _ ih => exact ih
  | leaf ht _ ih => exact List.forall_mem_cons.2 ⟨ht, ih⟩

/-- Leaves are not higher than the types. -/
theorem hasHeight (h : D.LeafSequence branches? ts ls) (hparts : AreParts branches?) {n : Nat}
    (hts : ∀ t ∈ ts, D.HasHeight n t) : ∀ x ∈ ls, D.HasHeight n x := by
  induction h with
  | nil => exact fun x hx => nomatch hx
  | nested ht _ ih =>
    obtain ⟨htop, hrest⟩ := List.forall_mem_cons.1 hts
    refine ih (List.forall_mem_append.2 ⟨fun b hb => ?_, hrest⟩)
    obtain ⟨m, rfl, hb⟩ := htop.exists_part (hparts ht hb)
    exact hb.mono (Nat.le_succ m)
  | leaf _ _ ih =>
    obtain ⟨htop, hrest⟩ := List.forall_mem_cons.1 hts
    exact List.forall_mem_cons.2 ⟨htop, ih hrest⟩

theorem acyclic (h : D.LeafSequence branches? ts ls) (hparts : AreParts branches?)
    (hts : ∀ t ∈ ts, D.Acyclic t) : ∀ x ∈ ls, D.Acyclic x := by
  induction h with
  | nil => exact fun x hx => nomatch hx
  | nested ht _ ih =>
    obtain ⟨htop, hrest⟩ := List.forall_mem_cons.1 hts
    exact ih (List.forall_mem_append.2 ⟨fun b hb => htop.part (hparts ht hb), hrest⟩)
  | leaf _ _ ih =>
    obtain ⟨htop, hrest⟩ := List.forall_mem_cons.1 hts
    exact List.forall_mem_cons.2 ⟨htop, ih hrest⟩

end LeafSequence

theorem exists_leafSequence_of_forall (h : ∀ t ∈ ts, ∃ ls, D.LeafSequence branches? [t] ls) :
    ∃ ls, D.LeafSequence branches? ts ls := by
  induction ts with
  | nil => exact ⟨[], .nil⟩
  | cons t ts ih =>
    obtain ⟨htop, hrest⟩ := List.forall_mem_cons.1 h
    obtain ⟨ls, hls⟩ := htop
    obtain ⟨ms, hms⟩ := ih hrest
    exact ⟨ls ++ ms, hls.append hms⟩

/-- Acyclic types have a sequence of leaves. -/
theorem exists_leafSequence (hparts : AreParts branches?) (hts : ∀ t ∈ ts, D.Acyclic t) :
    ∃ ls, D.LeafSequence branches? ts ls := by
  refine exists_leafSequence_of_forall fun t ht => ?_
  obtain ⟨n, h⟩ := hts t ht
  clear ht
  induction h with
  | missing =>
    cases hbranches : branches? .missing with
    | none => exact ⟨_, .leaf hbranches .nil⟩
    | some bs =>
      obtain rfl : bs = [] := List.subset_nil.1 (hparts hbranches)
      exact ⟨[], .nested hbranches .nil⟩
  | @layer n t _ _ _ ih =>
    cases hbranches : branches? (D.head t) with
    | none => exact ⟨_, .leaf hbranches .nil⟩
    | some bs =>
      obtain ⟨ls, hls⟩ := exists_leafSequence_of_forall fun b hb => ih b (hparts hbranches hb)
      exact ⟨ls, .nested hbranches (by rwa [List.append_nil])⟩

/-! ## Collecting leaves -/

/-- A branch of a union that counts is there and is not `never`. -/
def isProper (D : Decls) (x : Ty) : Bool := !x.isMissing && !D.isNever x

theorem isProper_iff : D.isProper x = true ↔ x.isMissing = false ∧ D.isNever x = false := by
  rw [isProper, Bool.and_eq_true, Bool.not_eq_true', Bool.not_eq_true']

/-- A branch of an intersection that counts is there. -/
def isThere (x : Ty) : Bool := !x.isMissing

/-- Goes on to the branches, and keeps a leaf that counts. -/
def leafStep (D : Decls) (branches? : Ty → Option (List Ty)) (counts : Ty → Bool) (f : Ty → List Ty)
    (t : Ty) : List Ty :=
  match branches? (D.head t) with
  | some bs => bs.flatMap f
  | none => if counts t then [t] else []

theorem leafStep_nested {f : Ty → List Ty} (h : branches? (D.head t) = some bs) :
    D.leafStep branches? counts f t = bs.flatMap f := by
  rw [leafStep, h]

theorem leafStep_leaf {f : Ty → List Ty} (h : branches? (D.head t) = none) :
    D.leafStep branches? counts f t = [t].filter counts := by
  simp only [leafStep, h, List.filter_singleton, Bool.cond_eq_ite]

theorem leafStep_congr (hparts : AreParts branches?) {f g : Ty → List Ty}
    (h : ∀ x ∈ (D.head t).parts, f x = g x) :
    D.leafStep branches? counts f t = D.leafStep branches? counts g t := by
  cases hbranches : branches? (D.head t) with
  | none => rw [leafStep_leaf hbranches, leafStep_leaf hbranches]
  | some bs =>
    rw [leafStep_nested hbranches, leafStep_nested hbranches]
    exact List.flatMap_congr fun b hb => h b (hparts hbranches hb)

theorem isMissing_of_mem_leafStep (hparts : AreParts branches?)
    (hcounts : ∀ x, counts x = true → x.isMissing = false) {f : Ty → List Ty}
    (hf : ∀ b ∈ (D.head t).parts, ∀ x ∈ f b, x.isMissing = false) :
    ∀ x ∈ D.leafStep branches? counts f t, x.isMissing = false := by
  intro x hx
  cases hbranches : branches? (D.head t) with
  | none =>
    rw [leafStep_leaf hbranches] at hx
    exact hcounts x (List.of_mem_filter hx)
  | some bs =>
    rw [leafStep_nested hbranches] at hx
    obtain ⟨b, hb, hx⟩ := List.mem_flatMap.1 hx
    exact hf b (hparts hbranches hb) x hx

/-- A walk stops at a name if it has no fuel left, or if the name stands for no type that is
there.  It keeps the name then, or nothing. -/
def StopsAtNames (D : Decls) (W : Nat → Ty → List Ty) : Prop :=
  ∀ (fuel : Nat) (n : TypeName),
    fuel = 0 ∨ (∀ u, D.find? n = some u → u.isMissing = true ∨ u.isNamed = true) →
      W fuel (.named n) ⊆ [.named n]

namespace IsWalk

variable {W : Nat → Ty → List Ty} (hW : D.IsWalk W (D.leafStep branches? counts))
  (hparts : AreParts branches?) (hcounts : ∀ x, counts x = true → x.isMissing = false)
include hW hparts hcounts

theorem isMissing_of_names {fuel : Nat}
    (hnames : ∀ n, ∀ x ∈ W fuel (.named n), x.isMissing = false) (t : Ty) :
    ∀ x ∈ W fuel t, x.isMissing = false := by
  cases hnamed : t.isNamed with
  | false =>
    rw [hW.term fuel hnamed]
    refine isMissing_of_mem_leafStep hparts hcounts fun b hb => ?_
    have hpart : b ∈ t.parts := by rwa [head_of_isNamed_eq_false hnamed] at hb
    exact isMissing_of_names hnames b
  | true =>
    cases t with
    | named n => exact hnames n
    | _ => cases hnamed
termination_by t.height
decreasing_by exact Ty.height_lt_of_mem_parts hpart

/-- What is kept is there, also of types that are not acyclic. -/
theorem isMissing_of_mem (hstops : D.StopsAtNames W) (fuel : Nat) (t : Ty) :
    ∀ x ∈ W fuel t, x.isMissing = false := by
  have hstop {fuel : Nat} {n : TypeName} (h : W fuel (.named n) ⊆ [.named n]) :
      ∀ x ∈ W fuel (.named n), x.isMissing = false := by
    intro x hx
    obtain rfl := List.mem_singleton.1 (h hx)
    rfl
  induction fuel generalizing t with
  | zero => exact hW.isMissing_of_names hparts hcounts (fun n => hstop (hstops 0 n (.inl rfl))) t
  | succ fuel ih =>
    refine hW.isMissing_of_names hparts hcounts (fun n => ?_) t
    by_cases hfollow : ∃ u, D.find? n = some u ∧ u.isMissing = false ∧ u.isNamed = false
    · obtain ⟨u, hu, hmissing, hnamed⟩ := hfollow
      rw [hW.followed fuel hu hmissing hnamed]
      exact isMissing_of_mem_leafStep hparts hcounts fun b _ => ih b
    · refine hstop (hstops _ n (.inr fun u hu => ?_))
      by_contra hthere
      rw [not_or, Bool.not_eq_true, Bool.not_eq_true] at hthere
      exact hfollow ⟨u, hu, hthere⟩

end IsWalk

/-- A function collects the leaves of types that count. -/
structure Collects (D : Decls) (branches? : Ty → Option (List Ty)) (counts : Ty → Bool)
    (collect : List Ty → List Ty) : Prop where
  parts : AreParts branches?
  each (ts : List Ty) : collect ts = ts.flatMap fun t => collect [t]
  step {t : Ty} (ht : D.Acyclic t) : collect [t] =
    D.leafStep branches? counts (fun x => collect [x]) t

/-- Acyclic types that are not nested by `branches?`, and count. -/
structure AreLeaves (D : Decls) (branches? : Ty → Option (List Ty)) (counts : Ty → Bool)
    (ls : List Ty) : Prop where
  leaf : ∀ x ∈ ls, branches? (D.head x) = none
  counted : ∀ x ∈ ls, counts x = true
  acyclic : ∀ x ∈ ls, D.Acyclic x

theorem AreLeaves.of_subset (h : D.AreLeaves branches? counts ls) (hms : ms ⊆ ls) :
    D.AreLeaves branches? counts ms where
  leaf x hx := h.leaf x (hms hx)
  counted x hx := h.counted x (hms hx)
  acyclic x hx := h.acyclic x (hms hx)

namespace Collects

variable {collect : List Ty → List Ty}

theorem append (h : D.Collects branches? counts collect) (ts us : List Ty) :
    collect (ts ++ us) = collect ts ++ collect us := by
  rw [h.each (ts ++ us), List.flatMap_append, ← h.each, ← h.each]

theorem cons (h : D.Collects branches? counts collect) (t : Ty) (ts : List Ty) :
    collect (t :: ts) = collect [t] ++ collect ts := h.append [t] ts

theorem perm (h : D.Collects branches? counts collect) (hperm : us.Perm ts) :
    (collect us).Perm (collect ts) := by
  rw [h.each us, h.each ts]
  exact hperm.flatMap_right _

theorem exists_mem (h : D.Collects branches? counts collect) (hx : x ∈ collect ts) :
    ∃ t ∈ ts, x ∈ collect [t] := by
  rw [h.each ts] at hx
  exact List.mem_flatMap.1 hx

/-- What is collected is the sequence of leaves, without those that do not count. -/
theorem eq_filter (h : D.Collects branches? counts collect) (hts : ∀ t ∈ ts, D.Acyclic t)
    (hls : D.LeafSequence branches? ts ls) : collect ts = ls.filter counts := by
  induction hls with
  | nil => rw [h.each, List.flatMap_nil, List.filter_nil]
  | @nested t ts bs ls ht _ ih =>
    obtain ⟨htop, hrest⟩ := List.forall_mem_cons.1 hts
    have hbs : ∀ b ∈ bs, D.Acyclic b := fun b hb => htop.part (h.parts ht hb)
    rw [h.cons, h.step htop, leafStep_nested ht, ← h.each, ← h.append]
    exact ih (List.forall_mem_append.2 ⟨hbs, hrest⟩)
  | @leaf t ts ls ht _ ih =>
    obtain ⟨htop, hrest⟩ := List.forall_mem_cons.1 hts
    rw [h.cons, h.step htop, leafStep_leaf ht, ih hrest, ← List.filter_append,
      List.singleton_append]

theorem areLeaves (h : D.Collects branches? counts collect) (hts : ∀ t ∈ ts, D.Acyclic t) :
    D.AreLeaves branches? counts (collect ts) := by
  obtain ⟨ls, hls⟩ := exists_leafSequence h.parts hts
  rw [h.eq_filter hts hls]
  refine ⟨fun x hx => ?_, fun x hx => List.of_mem_filter hx, fun x hx => ?_⟩
  · exact hls.branches?_eq_none x (List.mem_of_mem_filter hx)
  · exact hls.acyclic h.parts hts x (List.mem_of_mem_filter hx)

theorem hasHeight (h : D.Collects branches? counts collect) {n : Nat}
    (hts : ∀ t ∈ ts, D.HasHeight n t) : ∀ x ∈ collect ts, D.HasHeight n x := by
  intro x hx
  have hacyclic : ∀ t ∈ ts, D.Acyclic t := fun t ht => (hts t ht).acyclic
  obtain ⟨ls, hls⟩ := exists_leafSequence h.parts hacyclic
  rw [h.eq_filter hacyclic hls] at hx
  exact hls.hasHeight h.parts hts x (List.mem_of_mem_filter hx)

/-- Leaves that count are collected as they are. -/
theorem self (h : D.Collects branches? counts collect) (hls : D.AreLeaves branches? counts ls) :
    collect ls = ls := by
  rw [h.eq_filter hls.acyclic (.self hls.leaf), List.filter_eq_self.2 hls.counted]

/-- A type that is not nested is collected if it counts. -/
theorem of_head (h : D.Collects branches? counts collect) (ht : D.Acyclic t)
    (hleaf : branches? (D.head t) = none) : collect [t] = [t].filter counts :=
  h.eq_filter (List.forall_mem_singleton.2 ht) (.self (List.forall_mem_singleton.2 hleaf))

end Collects

theorem isNever_named {n : TypeName} (hn : D.find? n = some u) (hnamed : u.isNamed = false) :
    D.isNever (.named n) = D.isNever u := by
  rw [isNever, isNever, isKeyword, isKeyword, head_named_eq hn, head_of_isNamed_eq_false hnamed]

theorem isWalk_unionLeaves (D : Decls) :
    D.IsWalk (fun fuel t => t.unionLeaves (D.unionNameLeaves fuel))
      (D.leafStep Ty.unionBranches? D.isProper) where
  parts h := leafStep_congr areParts_unionBranches? h
  term fuel t ht := by
    rw [leafStep, head_of_isNamed_eq_false ht]
    cases t with
    | union bs => exact Ty.unionLeavesList_eq_flatMap _ bs
    | named n => cases ht
    | keyword k =>
      by_cases hk : k = .never <;>
        simp [Ty.unionBranches?, Ty.unionLeaves, isProper, Ty.isMissing, isNever,
          isKeyword, head, hk]
    | _ => rfl
  followed fuel n u hn hmissing hnamed := by
    simp only [Ty.unionLeaves, unionNameLeaves, hn]
    rw [leafStep, head_named_eq hn, isProper, isNever_named hn hnamed]
    cases u with
    | union bs => exact Ty.unionLeavesList_eq_flatMap _ bs
    | missing => cases hmissing
    | named n => cases hnamed
    | keyword k =>
      cases hnever : D.isNever (.keyword k) <;> simp [Ty.unionBranches?, Ty.isMissing, hnever]
    | _ => rfl

theorem isWalk_interLeaves (D : Decls) :
    D.IsWalk (fun fuel t => t.interLeaves (D.interNameLeaves fuel))
      (D.leafStep Ty.interBranches? isThere) where
  parts h := leafStep_congr areParts_interBranches? h
  term fuel t ht := by
    rw [leafStep, head_of_isNamed_eq_false ht]
    cases t with
    | inter bs => exact Ty.interLeavesList_eq_flatMap _ bs
    | named n => cases ht
    | _ => rfl
  followed fuel n u hn hmissing hnamed := by
    simp only [Ty.interLeaves, interNameLeaves, hn]
    rw [leafStep, head_named_eq hn]
    cases u with
    | inter bs => exact Ty.interLeavesList_eq_flatMap _ bs
    | missing => cases hmissing
    | named n => cases hnamed
    | _ => rfl

theorem stopsAtNames_unionLeaves (D : Decls) :
    D.StopsAtNames fun fuel t => t.unionLeaves (D.unionNameLeaves fuel) := by
  intro fuel n h
  cases fuel with
  | zero => exact List.Subset.refl _
  | succ fuel =>
    simp only [Ty.unionLeaves, unionNameLeaves]
    split
    · next bs hn => rcases h.resolve_left (Nat.succ_ne_zero fuel) _ hn with h | h <;> cases h
    · split
      · exact List.nil_subset _
      · exact List.Subset.refl _
    · exact List.nil_subset _

theorem stopsAtNames_interLeaves (D : Decls) :
    D.StopsAtNames fun fuel t => t.interLeaves (D.interNameLeaves fuel) := by
  intro fuel n h
  cases fuel with
  | zero => exact List.Subset.refl _
  | succ fuel =>
    simp only [Ty.interLeaves, interNameLeaves]
    split
    · next bs hn => rcases h.resolve_left (Nat.succ_ne_zero fuel) _ hn with h | h <;> cases h
    · split
      · exact List.nil_subset _
      · exact List.Subset.refl _
    · exact List.nil_subset _

/-- The leaves of a union are there. -/
theorem isMissing_of_mem_unionLeaves (hx : x ∈ D.unionLeaves ts) : x.isMissing = false := by
  rw [unionLeaves, Ty.unionLeavesList_eq_flatMap] at hx
  obtain ⟨t, -, hx⟩ := List.mem_flatMap.1 hx
  exact (isWalk_unionLeaves D).isMissing_of_mem areParts_unionBranches?
    (fun _ h => (isProper_iff.1 h).1) (stopsAtNames_unionLeaves D) _ t x hx

/-- The leaves of an intersection are there. -/
theorem isMissing_of_mem_interLeaves (hx : x ∈ D.interLeaves ts) : x.isMissing = false := by
  rw [interLeaves, Ty.interLeavesList_eq_flatMap] at hx
  obtain ⟨t, -, hx⟩ := List.mem_flatMap.1 hx
  exact (isWalk_interLeaves D).isMissing_of_mem areParts_interBranches?
    (fun y (h : (!y.isMissing) = true) => by rwa [Bool.not_eq_true'] at h)
    (stopsAtNames_interLeaves D) _ t x hx

/-- Joining collects the leaves of unions, except for missing ones and `never`. -/
theorem collects_unionLeaves (D : Decls) :
    D.Collects Ty.unionBranches? D.isProper D.unionLeaves := by
  have hsingle (t : Ty) : D.unionLeaves [t] = t.unionLeaves (D.unionNameLeaves D.size) :=
    List.append_nil _
  refine ⟨areParts_unionBranches?, fun ts => ?_, fun {t} ht => ?_⟩
  · simp only [hsingle]
    exact Ty.unionLeavesList_eq_flatMap _ ts
  · simp only [hsingle]
    exact (isWalk_unionLeaves D).unfold ht

/-- Meeting collects the leaves of intersections, except for missing ones. -/
theorem collects_interLeaves (D : Decls) : D.Collects Ty.interBranches? isThere D.interLeaves := by
  have hsingle (t : Ty) : D.interLeaves [t] = t.interLeaves (D.interNameLeaves D.size) :=
    List.append_nil _
  refine ⟨areParts_interBranches?, fun ts => ?_, fun {t} ht => ?_⟩
  · simp only [hsingle]
    exact Ty.interLeavesList_eq_flatMap _ ts
  · simp only [hsingle]
    exact (isWalk_interLeaves D).unfold ht

/-- The branches of a union are joined in place of it. -/
theorem unionLeaves_union (bs : List Ty) : D.unionLeaves [.union bs] = D.unionLeaves bs :=
  List.append_nil _

/-- The branches of an intersection meet in place of it. -/
theorem interLeaves_inter (bs : List Ty) : D.interLeaves [.inter bs] = D.interLeaves bs :=
  List.append_nil _

/-! ## Narrowing -/

/-- Narrows the branches and puts them together, and drops a leaf or keeps it. -/
def narrowStep (D : Decls) (drops : Ty → Bool) (f : Ty → Ty) (t : Ty) : Ty :=
  match D.head t with
  | .union bs => D.join ((bs.map f).filter fun b => !D.isNever b)
  | .inter bs => if (bs.map f).any D.isNever then .never else D.meet (bs.map f)
  | u => if drops u then .never else t

theorem narrowStep_leaf {f : Ty → Ty} (hunion : ∀ bs, D.head t ≠ .union bs)
    (hinter : ∀ bs, D.head t ≠ .inter bs) :
    D.narrowStep drops f t = if drops (D.head t) then .never else t := by
  rw [narrowStep]
  split
  · next bs h => exact absurd h (hunion bs)
  · next bs h => exact absurd h (hinter bs)
  · rfl

theorem isWalk_without (D : Decls) (drops : Ty → Bool) :
    D.IsWalk (fun fuel t => t.without D (D.nameWithout drops fuel) drops) (D.narrowStep drops) where
  parts {f g t} h := by
    rw [narrowStep, narrowStep]
    split
    · next bs hbs => rw [List.map_congr_left fun b hb => h b (by rw [hbs]; exact hb)]
    · next bs hbs => rw [List.map_congr_left fun b hb => h b (by rw [hbs]; exact hb)]
    · rfl
  term fuel t ht := by
    rw [narrowStep, head_of_isNamed_eq_false ht]
    cases t with
    | union bs => simp only [Ty.without, Ty.withoutList_eq_map]
    | inter bs => simp only [Ty.without, Ty.withoutList_eq_map]
    | named n => cases ht
    | _ => rfl
  followed fuel n u hn hmissing hnamed := by
    simp only [Ty.without, nameWithout, hn]
    rw [narrowStep, head_named_eq hn]
    cases u with
    | union bs => simp only [Ty.withoutList_eq_map]
    | inter bs => simp only [Ty.withoutList_eq_map]
    | _ => rfl

theorem without_eq_narrowStep (ht : D.Acyclic t) :
    D.without drops t = D.narrowStep drops (D.without drops) t :=
  (isWalk_without D drops).unfold ht

theorem without_union (ht : D.Acyclic t) (h : D.head t = .union bs) :
    D.without drops t = D.join ((bs.map (D.without drops)).filter fun b => !D.isNever b) := by
  rw [without_eq_narrowStep ht, narrowStep, h]

theorem without_leaf (ht : D.Acyclic t) (hunion : ∀ bs, D.head t ≠ .union bs)
    (hinter : ∀ bs, D.head t ≠ .inter bs) :
    D.without drops t = if drops (D.head t) then .never else t := by
  rw [without_eq_narrowStep ht, narrowStep_leaf hunion hinter]

end Decls

end StructuralTyping
