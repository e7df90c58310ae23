import Mathlib.Data.Finset.Card
import Mathlib.Logic.Relation
import StructuralTyping.Proofs.Yaml.Expand
import StructuralTyping.Yaml.Fields

/-!
# Tags of aliases

An alias without a tag of its own has the tag of its target, which may be such an alias
again.  Looking up a tag goes down a chain of them, and nothing stops it on a loop.

The steps that are counted are enough: a tag that is not found within them comes from
itself (`tagLoops_of_tag`), and then no number of steps finds it (`TagLoops.tagWithin_eq`,
`tagWithin_eq_tag`).  The targets that the chain has passed carry the argument: each of them
has its tag from the next one, so that meeting one of them again closes a loop.
-/

namespace StructuralTyping.Yaml

/-- The target that a node has its tag from. -/
def Node.tagTarget? : Node → Option Nat
  | .alias i _ t => if i.tag?.isNone then t else none
  | _ => none

theorem Node.mem_targets_of_tagTarget? {n : Node} {u : Nat} (h : n.tagTarget? = some u) :
    some u ∈ n.targets := by
  cases n with
  | «alias» i name t =>
    simp only [tagTarget?, Option.ite_none_right_eq_some] at h
    rw [h.2]
    exact .head _
  | _ => cases h

namespace Anchors

open Relation (ReflTransGen TransGen)

variable {A : Anchors} {n m : Node} {t u : Nat} {fuel : Nat}

/-! ## One step -/

theorem tagWithin_succ (hu : n.tagTarget? = some u) (hm : A[u]? = some m) (fuel : Nat) :
    A.tagWithin (fuel + 1) n = A.tagWithin fuel m := by
  cases n with
  | «alias» i name t =>
    simp only [Node.tagTarget?, Option.ite_none_right_eq_some, Option.isNone_iff_eq_none] at hu
    obtain ⟨htag, rfl⟩ := hu
    simp [tagWithin, Node.ownTag?, Node.info, Node.isVoid, htag, target?, hm]
  | _ => cases hu

/-- A node that is no alias has its own tag. -/
theorem tagWithin_of_isAlias (h : n.isAlias = false) (fuel : Nat) :
    A.tagWithin (fuel + 1) n = .ok n.ownTag? := by
  have htarget : A.target? n = none := by
    cases n with
    | «alias» => cases h
    | _ => rfl
  rw [tagWithin, htarget]
  cases n.ownTag? <;> rfl

theorem tag_of_ownTag? {tag : Tag} (h : n.ownTag? = some tag) : A.tag n = .ok (some tag) := by
  rw [Anchors.tag, tagWithin, h]

/-- A node has its tag from a target, or the tag is found at once. -/
theorem tagWithin_cases (A : Anchors) (n : Node) :
    (∃ u m, n.tagTarget? = some u ∧ A[u]? = some m) ∨
      ∃ tag?, ∀ fuel, A.tagWithin (fuel + 1) n = .ok tag? := by
  cases hown : n.ownTag? with
  | some tag => exact .inr ⟨some tag, fun fuel => by rw [tagWithin, hown]⟩
  | none =>
    cases htarget : A.target? n with
    | none => exact .inr ⟨none, fun fuel => by rw [tagWithin, hown, htarget]⟩
    | some m =>
      cases n with
      | «alias» i name t =>
        obtain ⟨u, rfl, hu⟩ := Option.bind_eq_some_iff.1 htarget
        have htag : i.tag? = none := by simpa [Node.ownTag?, Node.isVoid, Node.info] using hown
        exact .inl ⟨u, m, by simp [Node.tagTarget?, htag], hu⟩
      | _ => cases htarget

/-! ## Loops -/

/-- A target has its tag from another one. -/
def TagFrom (A : Anchors) (t u : Nat) : Prop := ∃ n, A[t]? = some n ∧ n.tagTarget? = some u

theorem TagFrom.refers (h : A.TagFrom t u) : A.Refers t u := by
  obtain ⟨n, htarget, hu⟩ := h
  exact ⟨n, htarget, Node.mem_targets_of_tagTarget? hu⟩

/-- The tag of a node comes from a target that has its tag from itself. -/
def TagLoops (A : Anchors) (n : Node) : Prop :=
  ∃ u t, n.tagTarget? = some u ∧ ReflTransGen A.TagFrom u t ∧ TransGen A.TagFrom t t

theorem TagLoops.exists_target (h : A.TagLoops n) :
    ∃ u m, n.tagTarget? = some u ∧ A[u]? = some m ∧ A.TagLoops m := by
  obtain ⟨u, t, hu, hreach, ht⟩ := h
  rcases ReflTransGen.cases_head hreach with rfl | ⟨v, ⟨m, hm, hv⟩, hreach⟩
  · -- The target is on the loop, and so is the one that it asks.
    obtain ⟨v, ⟨m, hm, hv⟩, hback⟩ := TransGen.head'_iff.1 ht
    exact ⟨u, m, hu, hm, v, v, hv, .refl, .tail' hback ⟨m, hm, hv⟩⟩
  · exact ⟨u, m, hu, hm, v, t, hv, hreach, ht⟩

/-- No number of steps finds a tag that comes from itself. -/
theorem TagLoops.tagWithin_eq (h : A.TagLoops n) (fuel : Nat) :
    A.tagWithin fuel n = .error .endless := by
  induction fuel generalizing n with
  | zero => rfl
  | succ fuel ih =>
    obtain ⟨u, m, hu, hm, hloops⟩ := h.exists_target
    rw [tagWithin_succ hu hm, ih hloops]

/-! ## Enough steps -/

/-- The number of targets that are not in a list. -/
def unvisited (A : Anchors) (seen : List Nat) : Nat :=
  (Finset.range A.length \ seen.toFinset).card

theorem unvisited_cons_lt {seen : List Nat} (ht : t < A.length) (hfresh : t ∉ seen) :
    A.unvisited (t :: seen) < A.unvisited seen := by
  rw [unvisited, unvisited, List.toFinset_cons, Finset.sdiff_insert]
  exact Finset.card_erase_lt_of_mem (by simp [ht, hfresh])

@[simp] theorem unvisited_nil (A : Anchors) : A.unvisited [] = A.length := by simp [unvisited]

/-- A tag that is not found comes from itself if there are more steps than targets that the
chain has not passed. -/
theorem tagLoops_of_tagWithin {seen : List Nat} {p : Problem} (hfuel : A.unvisited seen < fuel)
    (hseen : ∀ t ∈ seen, ∀ u, n.tagTarget? = some u → TransGen A.TagFrom t u)
    (h : A.tagWithin fuel n = .error p) : A.TagLoops n := by
  induction fuel generalizing n seen with
  | zero => exact absurd hfuel (Nat.not_lt_zero _)
  | succ fuel ih =>
    rcases A.tagWithin_cases n with ⟨u, m, hu, hm⟩ | ⟨tag?, hfound⟩
    · by_cases hloop : u ∈ seen
      · exact ⟨u, u, hu, .refl, hseen u hloop u hu⟩
      · have hlt := unvisited_cons_lt (List.getElem?_eq_some_iff.1 hm).1 hloop
        have hpassed : ∀ t ∈ u :: seen, ∀ v, m.tagTarget? = some v → TransGen A.TagFrom t v := by
          intro t ht v hv
          rcases List.mem_cons.1 ht with rfl | ht
          · exact .single ⟨m, hm, hv⟩
          · exact (hseen t ht u hu).tail ⟨m, hm, hv⟩
        obtain ⟨v, t, hv, hreach, ht⟩ :=
          ih (by omega) hpassed ((tagWithin_succ hu hm fuel).symm.trans h)
        exact ⟨u, t, hu, .head ⟨m, hm, hv⟩ hreach, ht⟩
    · cases (hfound fuel).symm.trans h

theorem tagLoops_of_tag {p : Problem} (h : A.tag n = .error p) : A.TagLoops n := by
  have hfuel : A.unvisited [] < A.length + 1 := by simp
  exact tagLoops_of_tagWithin hfuel nofun h

theorem tagWithin_of_le {tag? : Option Tag} {fuel' : Nat} (hle : fuel ≤ fuel')
    (h : A.tagWithin fuel n = .ok tag?) : A.tagWithin fuel' n = .ok tag? := by
  induction fuel generalizing n fuel' with
  | zero => cases h
  | succ fuel ih =>
    obtain ⟨fuel', rfl⟩ : ∃ k, fuel' = k + 1 := ⟨fuel' - 1, by omega⟩
    rcases A.tagWithin_cases n with ⟨u, m, hu, hm⟩ | ⟨tag?, hfound⟩
    · rw [tagWithin_succ hu hm] at h ⊢
      exact ih (Nat.le_of_succ_le_succ hle) h
    · rw [hfound] at h ⊢
      exact h

/-- More steps than are counted make no difference. -/
theorem tagWithin_eq_tag (h : A.length < fuel) : A.tagWithin fuel n = A.tag n := by
  cases htag : A.tag n with
  | ok tag? => exact tagWithin_of_le h htag
  | error p =>
    have hloops := tagLoops_of_tag htag
    exact (hloops.tagWithin_eq fuel).trans ((hloops.tagWithin_eq _).symm.trans htag)

end Anchors

end StructuralTyping.Yaml
