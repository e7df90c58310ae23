import Mathlib.Data.Fintype.Basic
import Mathlib.Data.Multiset.MapFold
import StructuralTyping.Ty.Equal

/-!
# Greedy matching

`matchAll` pairs each element with the first unused one that it equals, and never
takes a choice back.  What it accepts is paired by a bijection.  The converse is
true of a comparison that is difunctional: if `x` and `x'` have a partner in
common, then they have all partners in common.  A wrong choice can then always be
mended by an exchange (`rel_of_rel_cons_cons`), so greed loses nothing.

Each step takes one element off either side (`unused_perm_of_useFirst?`).  By the
exchange, what remains is paired by a bijection if what was there before it was
(`matchEach_of_rel`).

Bijections of related elements are `Multiset.Rel`.  Between lists they are bijections
of the positions (`rel_iff_exists_equiv`).  Under an equivalence there is one between
any two choices of representatives (`rel_of_classes`).
-/

namespace StructuralTyping

variable {α β : Type*}

/-- Elements with a partner in common have all partners in common. -/
def Difunctional (R : α → β → Prop) : Prop :=
  ∀ ⦃x x' y y'⦄, R x y → R x' y → R x' y' → R x y'

/-- A relation that is symmetric and transitive is difunctional. -/
theorem Difunctional.of_symm_trans {R : α → α → Prop} (hsymm : ∀ {x y}, R x y → R y x)
    (htrans : ∀ {x y z}, R x y → R y z → R x z) : Difunctional R :=
  fun _ _ _ _ hxy hxy' hxy'' => htrans (htrans hxy (hsymm hxy')) hxy''

theorem Difunctional.of_equivalence {R : α → α → Prop} (h : Equivalence R) : Difunctional R :=
  .of_symm_trans h.symm h.trans

/-! ## Exchange -/

/-- In a pairing a related pair may be taken out, even if it was not paired: the
two partners that are left over go together. -/
theorem rel_of_rel_cons_cons {R : α → β → Prop} (hR : Difunctional R) {x : α} {y : β}
    {s : Multiset α} {t : Multiset β} (hxy : R x y) (h : Multiset.Rel R (x ::ₘ s) (y ::ₘ t)) :
    Multiset.Rel R s t := by
  obtain ⟨y', t', hxy', hst, heq⟩ := Multiset.rel_cons_left.1 h
  rcases Multiset.cons_eq_cons.1 heq with ⟨-, rfl⟩ | ⟨-, u, rfl, rfl⟩
  · exact hst
  · obtain ⟨x', s', hx'y, hrest, rfl⟩ := Multiset.rel_cons_right.1 hst
    exact .cons (hR hx'y hxy hxy') hrest

/-! ## Representatives -/

/-- Lists that hold one representative of each of the same classes are paired by a bijection. -/
theorem rel_of_classes {E : α → α → Prop} (hE : Equivalence E) {xs ys : List α}
    (hxs : xs.Pairwise fun x y => ¬ E x y) (hys : ys.Pairwise fun x y => ¬ E x y)
    (hclasses : ∀ z, (∃ x ∈ xs, E x z) ↔ ∃ y ∈ ys, E y z) :
    Multiset.Rel E (xs : Multiset α) (ys : Multiset α) := by
  let classOf : α → Quotient ⟨E, hE⟩ := Quotient.mk _
  have hnodup {zs : List α} (hzs : zs.Pairwise fun x y => ¬ E x y) : (zs.map classOf).Nodup :=
    List.pairwise_map.2 (hzs.imp fun hne heq => hne (Quotient.exact heq))
  have hmem {zs : List α} (z : α) : classOf z ∈ zs.map classOf ↔ ∃ x ∈ zs, E x z :=
    List.mem_map.trans (exists_congr fun x => and_congr_right fun _ => Quotient.eq)
  have hperm : (xs.map classOf).Perm (ys.map classOf) := by
    refine (List.perm_ext_iff_of_nodup (hnodup hxs) (hnodup hys)).2 fun c => ?_
    induction c using Quotient.inductionOn with
    | h z => exact (hmem z).trans ((hclasses z).trans (hmem z).symm)
  have hrel : Multiset.Rel Eq (Multiset.map classOf xs) (Multiset.map classOf ys) :=
    Multiset.rel_eq.2 (Multiset.coe_eq_coe.2 hperm)
  exact (Multiset.rel_map.1 hrel).mono fun x _ y _ heq => Quotient.exact heq

/-! ## Positions -/

theorem exists_forall₂_perm {R : α → β → Prop} {xs : List α} {ys : List β}
    (h : Multiset.Rel R (xs : Multiset α) (ys : Multiset β)) :
    ∃ zs : List β, List.Forall₂ R xs zs ∧ zs.Perm ys := by
  induction xs generalizing ys with
  | nil =>
    have hys : ys = [] := by simpa using h
    exact ⟨[], .nil, by rw [hys]⟩
  | cons x xs ih =>
    rw [← Multiset.cons_coe] at h
    obtain ⟨y, rest, hxy, hrest, hys⟩ := Multiset.rel_cons_left.1 h
    induction rest using Quotient.inductionOn with
    | h rest =>
      obtain ⟨zs, hzs, hperm⟩ := ih hrest
      exact ⟨y :: zs, .cons hxy hzs, (hperm.cons y).trans (Multiset.coe_eq_coe.1 hys.symm)⟩

/-- Lists are paired by a bijection if and only if their positions are. -/
theorem rel_iff_exists_equiv {R : α → β → Prop} {xs : List α} {ys : List β} :
    Multiset.Rel R (xs : Multiset α) (ys : Multiset β) ↔
      ∃ σ : Fin xs.length ≃ Fin ys.length, ∀ i, R (xs.get i) (ys.get (σ i)) := by
  constructor
  · intro h
    classical
    obtain ⟨zs, hzs, hperm⟩ := exists_forall₂_perm h
    let position : Fin zs.length ≃ Fin ys.length :=
      { toFun := hperm.idxBij
        invFun := hperm.symm.idxBij
        left_inv := hperm.idxBij_rightInverse_idxBij_symm
        right_inv := hperm.idxBij_symm_rightInverse_idxBij }
    have hget : ∀ i, ys.get (position i) = zs.get i := fun i => hperm.getElem_idxBij_eq_getElem i
    refine ⟨(finCongr hzs.length_eq).trans position, fun i => ?_⟩
    rw [Equiv.trans_apply, hget]
    exact hzs.get i.isLt (hzs.length_eq ▸ i.isLt)
  · rintro ⟨σ, hσ⟩
    have hxs : (xs : Multiset α) = Finset.univ.val.map xs.get := by
      rw [Fin.univ_val_map, List.ofFn_get]
    have hys : (ys : Multiset β) = Finset.univ.val.map fun i => ys.get (σ i) :=
      calc (ys : Multiset β) = Finset.univ.val.map ys.get := by rw [Fin.univ_val_map, List.ofFn_get]
        _ = (Finset.univ.val.map σ).map ys.get := by rw [Multiset.map_univ_val_equiv]
        _ = Finset.univ.val.map fun i => ys.get (σ i) := Multiset.map_map _ _ _
    rw [hxs, hys]
    exact Multiset.rel_map.2 (Multiset.rel_refl_of_refl_on fun i _ => hσ i)

/-! ## Unused elements -/

/-- The elements that are not used yet. -/
def unused : List (α × Bool) → List α
  | [] => []
  | (x, used) :: xs => if used then unused xs else x :: unused xs

theorem unused_map_false (xs : List α) : unused (xs.map (·, false)) = xs := by
  induction xs with
  | nil => rfl
  | cons x xs ih => rw [List.map_cons, unused, if_neg Bool.false_ne_true, ih]

/-- An unused element that satisfies the test is found. -/
theorem useFirst?_isSome {p : α → Bool} {xs : List (α × Bool)} (h : ∃ x ∈ unused xs, p x = true) :
    ∃ rest, useFirst? p xs = some rest := by
  induction xs with
  | nil => simp [unused] at h
  | cons x xs ih =>
    obtain ⟨x, used⟩ := x
    rw [useFirst?]
    split
    · exact ⟨_, rfl⟩
    · next hx =>
      have hlater : ∃ y ∈ unused xs, p y = true := by
        cases used with
        | true => simpa [unused] using h
        | false => simpa [unused, show ¬ p x = true by simpa using hx] using h
      obtain ⟨rest, hrest⟩ := ih hlater
      exact ⟨(x, used) :: rest, by rw [hrest, Option.map_some]⟩

/-- What is used satisfies the test, and every other element stays as it was. -/
theorem unused_perm_of_useFirst? {p : α → Bool} {xs rest : List (α × Bool)}
    (h : useFirst? p xs = some rest) : ∃ x, p x = true ∧ (unused xs).Perm (x :: unused rest) := by
  induction xs generalizing rest with
  | nil => simp [useFirst?] at h
  | cons x xs ih =>
    obtain ⟨x, used⟩ := x
    rw [useFirst?] at h
    split at h
    · next hx =>
      obtain ⟨rfl, hpx⟩ : used = false ∧ p x = true := by simpa using hx
      obtain rfl := Option.some.inj h
      exact ⟨x, hpx, .refl _⟩
    · obtain ⟨more, hmore, rfl⟩ := Option.map_eq_some_iff.1 h
      obtain ⟨y, hy, hperm⟩ := ih hmore
      refine ⟨y, hy, ?_⟩
      cases used with
      | true => exact hperm
      | false => exact (hperm.cons x).trans (.swap y x (unused more))

/-! ## Matching -/

/-- What is matched is paired by a bijection, if there are as many unused elements as there are
elements to match. -/
theorem rel_of_matchEach {eq : α → β → Bool} {xs : List α} {ys : List (β × Bool)}
    (hlen : xs.length = (unused ys).length) (h : matchEach eq xs ys = true) :
    Multiset.Rel (fun x y => eq x y = true) (xs : Multiset α) (unused ys : Multiset β) := by
  induction xs generalizing ys with
  | nil =>
    rw [List.eq_nil_of_length_eq_zero hlen.symm]
    exact .zero
  | cons x xs ih =>
    simp only [matchEach] at h
    cases huse : useFirst? (eq x) ys with
    | none => simp [huse] at h
    | some rest =>
      obtain ⟨y, hxy, hys⟩ := unused_perm_of_useFirst? huse
      have hlen' : xs.length = (unused rest).length := by
        rw [List.length_cons, hys.length_eq, List.length_cons] at hlen
        exact Nat.succ.inj hlen
      rw [huse] at h
      rw [Multiset.coe_eq_coe.2 hys, ← Multiset.cons_coe, ← Multiset.cons_coe]
      exact Multiset.Rel.cons (r := fun x y => eq x y = true) hxy (ih hlen' h)

/-- What is paired by a bijection is matched, if the comparison agrees on the
lists with a difunctional relation. -/
theorem matchEach_of_rel {eq : α → β → Bool} {R : α → β → Prop} (hR : Difunctional R)
    {xs : List α} {ys : List (β × Bool)} (heq : ∀ x ∈ xs, ∀ y ∈ unused ys, eq x y = true ↔ R x y)
    (h : Multiset.Rel R (xs : Multiset α) (unused ys : Multiset β)) :
    matchEach eq xs ys = true := by
  induction xs generalizing ys with
  | nil => rfl
  | cons x xs ih =>
    -- The partner that the bijection gives is enough for the search to find some partner.
    obtain ⟨y', hy', hxy'⟩ := Multiset.exists_mem_of_rel_of_mem h (a := x) (by simp)
    obtain ⟨rest, huse⟩ := useFirst?_isSome ⟨y', hy', (heq x (.head _) y' hy').2 hxy'⟩
    obtain ⟨y, hxy, hys⟩ := unused_perm_of_useFirst? huse
    simp only [matchEach, huse]
    refine ih (fun a ha b hb => heq a (.tail _ ha) b (hys.mem_iff.2 (.tail _ hb))) ?_
    have hR' : R x y := (heq x (.head _) y (hys.mem_iff.2 (.head _))).1 hxy
    rw [Multiset.coe_eq_coe.2 hys, ← Multiset.cons_coe, ← Multiset.cons_coe] at h
    exact rel_of_rel_cons_cons hR hR' h

theorem rel_of_matchAll {eq : α → β → Bool} {xs : List α} {ys : List β}
    (h : matchAll eq xs ys = true) :
    Multiset.Rel (fun x y => eq x y = true) (xs : Multiset α) (ys : Multiset β) := by
  simp only [matchAll, Bool.and_eq_true, beq_iff_eq] at h
  have hpaired := rel_of_matchEach (by rw [unused_map_false]; exact h.1) h.2
  rwa [unused_map_false] at hpaired

theorem matchAll_of_rel {eq : α → β → Bool} {R : α → β → Prop} (hR : Difunctional R)
    {xs : List α} {ys : List β} (heq : ∀ x ∈ xs, ∀ y ∈ ys, eq x y = true ↔ R x y)
    (h : Multiset.Rel R (xs : Multiset α) (ys : Multiset β)) : matchAll eq xs ys = true := by
  have hlen : xs.length = ys.length := by simpa using Multiset.card_eq_card_of_rel h
  simp only [matchAll, Bool.and_eq_true, beq_iff_eq]
  rw [← unused_map_false ys] at heq h
  exact ⟨hlen, matchEach_of_rel hR heq h⟩

/-! ## Comparisons that are symmetric and transitive -/

/-- Symmetric and transitive among the elements of a list.  An element need not equal itself. -/
structure IsPartialEquivalenceOn (eq : α → α → Bool) (zs : List α) : Prop where
  symm : ∀ a ∈ zs, ∀ b ∈ zs, eq a b = true → eq b a = true
  trans : ∀ a ∈ zs, ∀ b ∈ zs, ∀ c ∈ zs, eq a b = true → eq b c = true → eq a c = true

namespace IsPartialEquivalenceOn

variable {eq : α → α → Bool} {xs ys zs : List α}

theorem of_subset (h : IsPartialEquivalenceOn eq ys) (hsub : xs ⊆ ys) :
    IsPartialEquivalenceOn eq xs where
  symm a ha b hb := h.symm a (hsub ha) b (hsub hb)
  trans a ha b hb c hc := h.trans a (hsub ha) b (hsub hb) c (hsub hc)

theorem difunctional (h : IsPartialEquivalenceOn eq zs) :
    Difunctional fun a b => a ∈ zs ∧ b ∈ zs ∧ eq a b = true := by
  refine .of_symm_trans ?_ ?_
  · rintro a b ⟨ha, hb, hab⟩
    exact ⟨hb, ha, h.symm a ha b hb hab⟩
  · rintro a b c ⟨ha, hb, hab⟩ ⟨-, hc, hbc⟩
    exact ⟨ha, hc, h.trans a ha b hb c hc hab hbc⟩

/-- Lists are matched if and only if they are paired by a bijection. -/
theorem matchAll_iff_rel (h : IsPartialEquivalenceOn eq (xs ++ ys)) :
    matchAll eq xs ys = true ↔
      Multiset.Rel (fun x y => eq x y = true) (xs : Multiset α) (ys : Multiset α) := by
  refine ⟨rel_of_matchAll, fun hpaired => ?_⟩
  have hxs : ∀ x ∈ xs, x ∈ xs ++ ys := fun x hx => List.mem_append.2 (.inl hx)
  have hys : ∀ y ∈ ys, y ∈ xs ++ ys := fun y hy => List.mem_append.2 (.inr hy)
  refine matchAll_of_rel h.difunctional (fun x hx y hy => ?_) ?_
  · exact ⟨fun hxy => ⟨hxs x hx, hys y hy, hxy⟩, fun hxy => hxy.2.2⟩
  · exact hpaired.mono fun x hx y hy hxy => ⟨hxs x hx, hys y hy, hxy⟩

end IsPartialEquivalenceOn

/-- Greedy matching is complete: it succeeds if and only if a bijection of the positions pairs
equal elements only.  So its answer does not depend on the order of the elements. -/
theorem matchAll_iff_bijection {eq : α → α → Bool} {xs ys : List α}
    (h : IsPartialEquivalenceOn eq (xs ++ ys)) :
    (matchAll eq xs ys = true ↔
      ∃ σ : Fin xs.length ≃ Fin ys.length, ∀ i, eq (xs.get i) (ys.get (σ i)) = true) ∧
    ∀ xs' ys', xs'.Perm xs → ys'.Perm ys → matchAll eq xs' ys' = matchAll eq xs ys := by
  refine ⟨h.matchAll_iff_rel.trans rel_iff_exists_equiv, fun xs' ys' hxs hys => ?_⟩
  have h' : IsPartialEquivalenceOn eq (xs' ++ ys') := h.of_subset (hxs.append hys).subset
  rw [Bool.eq_iff_iff, h'.matchAll_iff_rel, h.matchAll_iff_rel, Multiset.coe_eq_coe.2 hxs,
    Multiset.coe_eq_coe.2 hys]

/-- Three branches of a union, two of them alike.  The bijection that is given pairs each branch
with itself, while greed pairs the first one with the one that is written the other way round. -/
theorem matchAll_iff_bijection_branches :
    let a : Ty := .union [.string, .number]
    let b : Ty := .union [.number, .string]
    IsPartialEquivalenceOn Decls.empty.equal ([a, b, .void] ++ [b, a, .void]) ∧
      ∀ xs ys, xs.Perm [a, b, .void] → ys.Perm [b, a, .void] →
      matchAll Decls.empty.equal xs ys = true := by
  intro a b
  have h : IsPartialEquivalenceOn Decls.empty.equal ([a, b, .void] ++ [b, a, .void]) :=
    ⟨by decide, by decide⟩
  obtain ⟨hiff, horder⟩ := matchAll_iff_bijection h
  have hmatched : matchAll Decls.empty.equal [a, b, .void] [b, a, .void] = true :=
    hiff.2 ⟨(Equiv.swap 0 1 : Equiv.Perm (Fin 3)), by decide⟩
  exact ⟨h, fun xs ys hxs hys => (horder xs ys hxs hys).trans hmatched⟩

/-- A comparison that is not transitive: the first element takes the only partner of the
second one. -/
example : matchAll (fun m n : Nat => m * n == 0) [0, 1] [0, 1] = false ∧
    matchAll (fun m n : Nat => m * n == 0) [0, 1] [1, 0] = true := by decide

end StructuralTyping
