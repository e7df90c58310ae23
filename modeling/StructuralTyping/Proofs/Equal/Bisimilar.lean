import Mathlib.Logic.Relation
import StructuralTyping.Proofs.Equal.Layer
import StructuralTyping.Proofs.Identity

/-!
# Types that unfold alike

Two types are bisimilar if some relation holds of them whose pairs all have heads
that are alike.  This is what equality of cyclic types means.  Bisimilarity is
an equivalence.

The comparison takes a pair that is still open for granted.  `Decls.BisimilarFrom`
is bisimilarity with open pairs taken for granted, and an accepted pair is
bisimilar from the pairs that were open before it.

The converse needs enough depth.  `Decls.Enough` says when a condition on the
questions guarantees it.  As long as all open pairs are bisimilar, the comparison
then gives the right answer for all parts, so that greedy matching succeeds.
-/

namespace StructuralTyping

/-- Types that are alike are both missing or both there. -/
theorem Ty.Alike.isMissing_eq {names : Bool} {R : Ty → Ty → Prop} {a b : Ty}
    (h : a.Alike names R b) :
    a.isMissing = b.isMissing := by
  have hraw : ∀ {t : Ty} {text : String}, t.raw? = some text → t.isMissing = false := by
    intro t text ht
    cases t <;> first | rfl | cases ht
  cases h with
  | raw ha hb => rw [hraw ha, hraw hb]
  | _ => rfl

namespace Decls

variable {D : Decls} {names : Bool}

/-! ## Bisimilarity -/

/-- A relation whose pairs have heads that are alike. -/
def IsBisimulation (D : Decls) (names : Bool) (R : Ty → Ty → Prop) : Prop :=
  ∀ a b, R a b → (D.head a).Alike names R (D.head b)

/-- Types that unfold alike. -/
def Bisimilar (D : Decls) (names : Bool) (a b : Ty) : Prop :=
  ∃ R : Ty → Ty → Prop, D.IsBisimulation names R ∧ R a b

theorem isBisimulation_bisimilar : D.IsBisimulation names (D.Bisimilar names) := by
  rintro a b ⟨R, hR, hab⟩
  exact (hR a b hab).mono fun x _ y _ hxy => ⟨R, hR, hxy⟩

/-- The least equivalence above bisimilarity is a bisimulation as well. -/
theorem isBisimulation_eqvGen : D.IsBisimulation names (Relation.EqvGen (D.Bisimilar names)) := by
  have halike := Ty.alike_equivalence names (Relation.EqvGen.is_equivalence (D.Bisimilar names))
  intro a b h
  induction h with
  | rel a b hab => exact (isBisimulation_bisimilar a b hab).mono fun x _ y _ hxy => .rel x y hxy
  | refl a => exact halike.refl _
  | symm a b _ ih => exact halike.symm ih
  | trans a b c _ _ ih ih' => exact halike.trans ih ih'

theorem bisimilar_equivalence : Equivalence (D.Bisimilar names) where
  refl a := ⟨_, isBisimulation_eqvGen, .refl a⟩
  symm h := ⟨_, isBisimulation_eqvGen, .symm _ _ (.rel _ _ h)⟩
  trans h h' := ⟨_, isBisimulation_eqvGen, .trans _ _ _ (.rel _ _ h) (.rel _ _ h')⟩

/-! ## Acceptance -/

/-- Bisimilarity with open pairs taken for granted. -/
def BisimilarFrom (D : Decls) (names : Bool) (opened : List Pair) (a b : Ty) : Prop :=
  ∃ R : Ty → Ty → Prop,
    (∀ a b, R a b → (D.head a).Alike names (fun x y => R x y ∨ (x, y) ∈ opened) (D.head b)) ∧ R a b

/-- Bisimilar pairs may be taken for granted. -/
theorem bisimilar_of_bisimilarFrom {opened : List Pair} {a b : Ty}
    (hopened : ∀ p ∈ opened, D.Bisimilar names p.1 p.2) (h : D.BisimilarFrom names opened a b) :
    D.Bisimilar names a b := by
  obtain ⟨R, hR, hab⟩ := h
  refine ⟨fun x y => R x y ∨ D.Bisimilar names x y, ?_, .inl hab⟩
  rintro x y (hxy | hxy)
  · exact (hR x y hxy).mono fun u _ v _ huv => huv.imp_right (hopened (u, v))
  · exact (isBisimulation_bisimilar x y hxy).mono fun u _ v _ huv => .inr huv

theorem bisimilarFrom_of_bisimilar {opened : List Pair} {a b : Ty} (h : D.Bisimilar names a b) :
    D.BisimilarFrom names opened a b := by
  obtain ⟨R, hR, hab⟩ := h
  exact ⟨R, fun x y hxy => (hR x y hxy).mono fun u _ v _ huv => .inl huv, hab⟩

/-- A pair whose heads are alike when it is itself taken for granted needs no such
assumption. -/
theorem bisimilarFrom_of_alike {opened : List Pair} {a b : Ty}
    (h : (D.head a).Alike names
      (fun x y => D.BisimilarFrom names ((a, b) :: opened) x y ∨ (x, y) ∈ (a, b) :: opened)
      (D.head b)) :
    D.BisimilarFrom names opened a b := by
  -- The pair joins the relation that stands behind its parts.
  refine ⟨fun x y => D.BisimilarFrom names ((a, b) :: opened) x y ∨ (x, y) = (a, b), ?_, .inr rfl⟩
  rintro x y (⟨R, hR, hxy⟩ | hxy)
  · refine (hR x y hxy).mono fun u _ v _ huv => ?_
    rcases huv with huv | huv
    · exact .inl (.inl ⟨R, hR, huv⟩)
    · exact (List.mem_cons.1 huv).imp_left .inr
  · obtain ⟨rfl, rfl⟩ := Prod.mk.inj hxy
    refine h.mono fun u _ v _ huv => ?_
    rcases huv with huv | huv
    · exact .inl (.inl huv)
    · exact (List.mem_cons.1 huv).imp_left .inr

theorem bisimilar_of_alike {a b : Ty} (h : (D.head a).Alike names (D.Bisimilar names) (D.head b)) :
    D.Bisimilar names a b := by
  have hfrom : D.BisimilarFrom names [] a b :=
    bisimilarFrom_of_alike (h.mono fun _ _ _ _ hxy => .inl (bisimilarFrom_of_bisimilar hxy))
  exact bisimilar_of_bisimilarFrom (by simp) hfrom

theorem eq_of_sameNamed : ∀ {a b : Ty}, a.sameNamed b = true → a = b
  | .named m, .named n, h => by rw [beq_iff_eq.1 h]

theorem eq_missing_of_isMissing : ∀ {a : Ty}, a.isMissing = true → a = .missing
  | .missing, _ => rfl

theorem bisimilarFrom_of_missing {opened : List Pair} {a b : Ty}
    (h : (a.isMissing && b.isMissing) = true) : D.BisimilarFrom names opened a b := by
  obtain ⟨ha, hb⟩ := Bool.and_eq_true_iff.1 h
  rw [eq_missing_of_isMissing ha, eq_missing_of_isMissing hb]
  exact bisimilarFrom_of_bisimilar (bisimilar_equivalence.refl _)

/-- An accepted pair is open, or bisimilar from the open ones. -/
theorem bisimilarFrom_of_equalWithin {fuel : Nat} {opened : List Pair} {a b : Ty}
    (h : D.equalWithin names fuel opened a b = true) :
    D.BisimilarFrom names opened a b ∨ (a, b) ∈ opened := by
  induction fuel generalizing opened a b with
  | zero =>
    rw [equalWithin] at h
    split at h
    · exact .inl (bisimilarFrom_of_missing h)
    · cases h
  | succ fuel ih =>
    rw [equalWithin] at h
    split at h
    · exact .inl (bisimilarFrom_of_missing h)
    · simp only [Bool.or_eq_true] at h
      rcases h with (h | h) | h
      · exact .inl (eq_of_sameNamed h ▸ bisimilarFrom_of_bisimilar (bisimilar_equivalence.refl a))
      · exact .inr (mem_of_isOpen h)
      · exact .inl (bisimilarFrom_of_alike
          ((Ty.alike_of_equalLayer h).mono fun x _ y _ hxy => ih hxy))

/-- Under bisimilar open pairs, an accepted pair is bisimilar. -/
theorem bisimilar_of_equalWithin {fuel : Nat} {opened : List Pair} {a b : Ty}
    (hopened : ∀ p ∈ opened, D.Bisimilar names p.1 p.2)
    (h : D.equalWithin names fuel opened a b = true) : D.Bisimilar names a b := by
  rcases bisimilarFrom_of_equalWithin h with hfrom | hmem
  · exact bisimilar_of_bisimilarFrom hopened hfrom
  · exact hopened _ hmem

/-! ## Rejection -/

/-- A condition on the layers left, the open pairs and the pair in question under
which the depth is enough.  Names that the comparison meets are declared, and a
pair that is not open yet leaves a layer for its parts. -/
structure Enough (D : Decls) (P : Nat → List Pair → Ty → Ty → Prop) : Prop where
  left : ∀ {fuel opened a b}, P fuel opened a b → (D.head a).isMissing = a.isMissing
  right : ∀ {fuel opened a b}, P fuel opened a b → (D.head b).isMissing = b.isMissing
  layer : ∀ {fuel opened a b}, P fuel opened a b → (D.head a).isNamed = false
  step : ∀ {fuel opened a b}, P fuel opened a b → a.isMissing = false → b.isMissing = false →
    ∃ rest, fuel = rest + 1 ∧ (isOpen opened a b = true ∨
      ∀ x ∈ (D.head a).parts, ∀ y ∈ (D.head b).parts, P rest ((a, b) :: opened) x y)

theorem Enough.isMissing_eq {P : Nat → List Pair → Ty → Ty → Prop} (hP : D.Enough P) {fuel : Nat}
    {opened : List Pair} {a b : Ty} (h : P fuel opened a b) (hab : D.Bisimilar names a b) :
    a.isMissing = b.isMissing := by
  rw [← hP.left h, ← hP.right h]
  exact (isBisimulation_bisimilar a b hab).isMissing_eq

/-- With enough depth, bisimilar types are accepted. -/
theorem equalWithin_of_bisimilar {P : Nat → List Pair → Ty → Ty → Prop} (hP : D.Enough P)
    {fuel : Nat} {opened : List Pair} {a b : Ty} (hopened : ∀ p ∈ opened, D.Bisimilar names p.1 p.2)
    (h : P fuel opened a b) (hab : D.Bisimilar names a b) :
    D.equalWithin names fuel opened a b = true := by
  induction fuel generalizing opened a b with
  | zero =>
    have hmissing := hP.isMissing_eq h hab
    cases ha : a.isMissing with
    | true => simp [equalWithin, ← hmissing, ha]
    | false =>
      obtain ⟨_, hfuel, _⟩ := hP.step h ha (hmissing ▸ ha)
      cases hfuel
  | succ fuel ih =>
    have hmissing := hP.isMissing_eq h hab
    rw [equalWithin]
    cases ha : a.isMissing with
    | true => simp [← hmissing, ha]
    | false =>
      obtain ⟨rest, hfuel, hstep⟩ := hP.step h ha (hmissing ▸ ha)
      obtain rfl := Nat.succ.inj hfuel
      rw [← hmissing, ha, if_neg (by simp), Bool.or_eq_true]
      rcases hstep with hopen | hparts
      · exact .inl (by rw [hopen, Bool.or_true])
      · right
        have hopened' : ∀ p ∈ (a, b) :: opened, D.Bisimilar names p.1 p.2 :=
          List.forall_mem_cons.2 ⟨hab, hopened⟩
        -- The open pairs are bisimilar, so the comparison of parts neither rejects nor
        -- accepts wrongly.
        refine Ty.equalLayer_of_alike (.of_equivalence bisimilar_equivalence)
          ?_ ((hP.left h).trans ha) (hP.layer h) (isBisimulation_bisimilar a b hab)
        intro x hx y hy
        exact ⟨bisimilar_of_equalWithin hopened', ih hopened' (hparts x hx y hy)⟩

end Decls

end StructuralTyping
