import Mathlib.Data.List.Nodup
import Mathlib.Data.List.Perm.Subperm
import Mathlib.Data.Nat.Find
import Mathlib.Logic.Relation
import StructuralTyping.Ty.Build
import StructuralTyping.Ty.Declare
import StructuralTyping.Ty.Members

/-!
# Inherited members

The walk over the bases of a shape is bounded by its depth and keeps no record of where it
has been.  On a hierarchy that is shared or cyclic it enters a shape once for every way that
leads there.  As a set, its result is what is declared by the shapes at the end of a walk that
is not too long (`Decls.mem_membersWithin?_iff`).

A shape that can be reached at all is reached by a walk with fewer steps than there are shapes
(`Walk.exists_lt_length`), since the shapes along a shortest walk are distinct.  So the bound
leaves nothing out of a hierarchy with few shapes (`Decls.allMembers?_reachable`).
-/

namespace StructuralTyping

/-! ## Walks -/

/-- A number of steps of a relation, one after the other. -/
inductive Walk {α : Type} (R : α → α → Prop) : Nat → α → α → Prop where
  | nil (a : α) : Walk R 0 a a
  | snoc {n : Nat} {a b c : α} (h : Walk R n a b) (hbc : R b c) : Walk R (n + 1) a c

namespace Walk

variable {α : Type} {R : α → α → Prop} {n : Nat} {a b c : α}

theorem cons (hab : R a b) (h : Walk R n b c) : Walk R (n + 1) a c := by
  induction h with
  | nil => exact .snoc (.nil a) hab
  | snoc _ hcd ih => exact .snoc (ih hab) hcd

theorem exists_of_succ (h : Walk R (n + 1) a c) : ∃ b, R a b ∧ Walk R n b c := by
  induction n generalizing c with
  | zero =>
    obtain _ | ⟨_ | _, hac⟩ := h
    exact ⟨c, hac, .nil c⟩
  | succ n ih =>
    obtain _ | ⟨h, hdc⟩ := h
    obtain ⟨b, hab, hbd⟩ := ih h
    exact ⟨b, hab, .snoc hbd hdc⟩

theorem reflTransGen_iff : Relation.ReflTransGen R a b ↔ ∃ n, Walk R n a b := by
  constructor
  · intro h
    induction h with
    | refl => exact ⟨0, .nil a⟩
    | tail _ hbc ih =>
      obtain ⟨n, h⟩ := ih
      exact ⟨n + 1, .snoc h hbc⟩
  · rintro ⟨n, h⟩
    induction h with
    | nil => exact .refl
    | snoc _ hbc ih => exact .tail ih hbc

/-- Along a shortest walk every element is another one. -/
theorem exists_nodup (h : Walk R n a b) (hshortest : ∀ k < n, ¬ Walk R k a b) :
    ∃ xs : List α, xs.length = n + 1 ∧ xs.Nodup ∧ ∀ x ∈ xs, ∃ k ≤ n, Walk R k a x := by
  induction h with
  | nil a =>
    exact ⟨[a], rfl, List.nodup_singleton a, List.forall_mem_singleton.2 ⟨0, le_rfl, .nil a⟩⟩
  | @snoc n a b c h hbc ih =>
    obtain ⟨xs, hlength, hnodup, hxs⟩ :=
      ih fun k hk hab => hshortest (k + 1) (by omega) (.snoc hab hbc)
    refine ⟨c :: xs, by rw [List.length_cons, hlength],
      List.nodup_cons.2 ⟨fun hc => ?_, hnodup⟩, ?_⟩
    · obtain ⟨k, hk, hac⟩ := hxs c hc
      exact hshortest k (by omega) hac
    · refine List.forall_mem_cons.2 ⟨⟨n + 1, le_rfl, .snoc h hbc⟩, fun x hx => ?_⟩
      obtain ⟨k, hk, hax⟩ := hxs x hx
      exact ⟨k, by omega, hax⟩

/-- What can be reached among a number of elements is reached in fewer steps. -/
theorem exists_lt_length {xs : List α} (hxs : ∀ x, Relation.ReflTransGen R a x → x ∈ xs)
    (h : Relation.ReflTransGen R a b) : ∃ n < xs.length, Walk R n a b := by
  classical
  have hwalk : ∃ n, Walk R n a b := reflTransGen_iff.1 h
  obtain ⟨ys, hlength, hnodup, hys⟩ :=
    exists_nodup (Nat.find_spec hwalk) fun k hk => Nat.find_min hwalk hk
  have hsub : ys ⊆ xs := fun y hy => by
    obtain ⟨k, -, hk⟩ := hys y hy
    exact hxs y (reflTransGen_iff.2 ⟨k, hk⟩)
  have hle : ys.length ≤ xs.length := (hnodup.subperm hsub).length_le
  exact ⟨Nat.find hwalk, by omega, Nat.find_spec hwalk⟩

end Walk

namespace Decls

variable {D : Decls}

/-! ## Inheritance -/

/-- A shape inherits directly from another shape. -/
def Inherits (D : Decls) (s b : Ty) : Prop :=
  b.ownMembers?.isSome = true ∧ ∃ t ∈ s.bases, D.head t = b

theorem membersWithin?_of_not_isSome {fuel : Nat} {t : Ty} (h : (D.membersOf? t).isSome = false) :
    D.membersWithin? fuel t = none := by
  rw [← Option.not_isSome_iff_eq_none, isSome_membersWithin?, h]
  exact Bool.false_ne_true

/-- Bases that are no object shapes contribute nothing. -/
theorem flatMap_bases (fuel : Nat) (ts : List Ty) :
    (ts.flatMap fun b => (D.membersWithin? fuel b).getD []) =
      (ts.filter fun b => (D.membersOf? b).isSome).flatMap fun b =>
        (D.membersWithin? fuel b).getD [] := by
  induction ts with
  | nil => rfl
  | cons t ts ih =>
    rw [List.flatMap_cons, ih, List.filter_cons]
    cases h : (D.membersOf? t).isSome with
    | true => rw [if_pos rfl, List.flatMap_cons]
    | false =>
      rw [if_neg Bool.false_ne_true, membersWithin?_of_not_isSome h, Option.getD_none,
        List.nil_append]

/-- The members within a depth are those that the shapes within that many steps declare. -/
theorem mem_membersWithin?_iff {fuel : Nat} {t : Ty} (ht : (D.membersOf? t).isSome = true)
    {m : Member} : m ∈ (D.membersWithin? fuel t).getD [] ↔
      ∃ n ≤ fuel, ∃ s ms, Walk D.Inherits n (D.head t) s ∧ s.ownMembers? = some ms ∧ m ∈ ms := by
  obtain ⟨own, hown⟩ := Option.isSome_iff_exists.1 ht
  induction fuel generalizing t own with
  | zero =>
    rw [membersWithin?, hown, Option.getD_some]
    constructor
    · intro hm
      exact ⟨0, le_rfl, _, own, .nil _, hown, hm⟩
    · rintro ⟨n, hn, s, ms, hwalk, hms, hm⟩
      obtain rfl := Nat.le_zero.1 hn
      cases hwalk
      obtain rfl := Option.some.inj (hms.symm.trans hown)
      exact hm
  | succ fuel ih =>
    rw [membersWithin?, hown, Option.map_some, Option.getD_some, List.mem_append, List.mem_flatMap]
    constructor
    · rintro (hm | ⟨b, hb, hm⟩)
      · exact ⟨0, Nat.zero_le _, _, own, .nil _, hown, hm⟩
      · cases hshape : (D.membersOf? b).isSome with
        | false =>
          rw [membersWithin?_of_not_isSome hshape] at hm
          cases hm
        | true =>
          obtain ⟨ownb, hownb⟩ := Option.isSome_iff_exists.1 hshape
          obtain ⟨n, hn, s, ms, hwalk, hms, hm⟩ := (ih hshape ownb hownb).1 hm
          exact ⟨n + 1, by omega, s, ms, hwalk.cons ⟨hshape, b, hb, rfl⟩, hms, hm⟩
    · rintro ⟨n, hn, s, ms, hwalk, hms, hm⟩
      cases n with
      | zero =>
        cases hwalk
        obtain rfl := Option.some.inj (hms.symm.trans hown)
        exact .inl hm
      | succ n =>
        obtain ⟨_, ⟨hshape, b, hb, rfl⟩, hwalk⟩ := hwalk.exists_of_succ
        obtain ⟨ownb, hownb⟩ := Option.isSome_iff_exists.1 hshape
        exact .inr ⟨b, hb, (ih hshape ownb hownb).2 ⟨n, by omega, s, ms, hwalk, hms, hm⟩⟩

/-- The members of a shape are its own ones in order, and then inherited ones.  Together they
are those of all shapes that can be reached in at most 65 steps, and so of all shapes that can
be reached if there are at most 66 of them. -/
theorem allMembers?_reachable (D : Decls) {t : Ty} {own : List Member}
    (hown : D.membersOf? t = some own) : ∃ inherited, D.allMembers? t = some (own ++ inherited) ∧
      (inherited = ((D.head t).bases.filter fun b => (D.membersOf? b).isSome).flatMap fun b =>
        (D.membersWithin? defaultMaxDepth b).getD []) ∧
      (∀ m, m ∈ own ++ inherited ↔
        ∃ n ≤ 65, ∃ s ms, Walk D.Inherits n (D.head t) s ∧ s.ownMembers? = some ms ∧ m ∈ ms) ∧
      ∀ shapes : List Ty, shapes.length ≤ 66 →
        (∀ s, Relation.ReflTransGen D.Inherits (D.head t) s → s ∈ shapes) →
        ∀ m, m ∈ own ++ inherited ↔
          ∃ s ms, Relation.ReflTransGen D.Inherits (D.head t) s ∧
          s.ownMembers? = some ms ∧ m ∈ ms := by
  have hall : D.allMembers? t = some (own ++ (D.head t).bases.flatMap fun b =>
      (D.membersWithin? defaultMaxDepth b).getD []) := by
      rw [allMembers?, membersWithin?, hown]; rfl
  have hmem : ∀ m, m ∈ own ++ (D.head t).bases.flatMap (fun b =>
      (D.membersWithin? defaultMaxDepth b).getD []) ↔
      ∃ n ≤ 65, ∃ s ms, Walk D.Inherits n (D.head t) s ∧ s.ownMembers? = some ms ∧ m ∈ ms := by
    intro m
    have hshape : (D.membersOf? t).isSome = true := Option.isSome_of_eq_some hown
    have hiff : m ∈ (D.membersWithin? (defaultMaxDepth + 1) t).getD [] ↔ _ :=
      mem_membersWithin?_iff hshape
    rw [← allMembers?, hall, Option.getD_some] at hiff
    exact hiff
  refine ⟨_, hall, flatMap_bases _ _, hmem, fun shapes hlength hshapes m => (hmem m).trans ?_⟩
  constructor
  · rintro ⟨n, -, s, ms, hwalk, hms, hm⟩
    exact ⟨s, ms, Walk.reflTransGen_iff.2 ⟨n, hwalk⟩, hms, hm⟩
  · rintro ⟨s, ms, hreach, hms, hm⟩
    obtain ⟨n, hn, hwalk⟩ := Walk.exists_lt_length hshapes hreach
    exact ⟨n, by omega, s, ms, hwalk, hms, hm⟩

/-- Two interfaces that inherit from each other, and one of them from strings as well. -/
def crossed : Decls :=
  .ofDefinitions
    [("Left", .interface "Left" [] [.required "l" .number] [.named (.given "Right"), .string]),
      ("Right", .interface "Right" [] [.required "r" .number] [.named (.given "Left")])]

/-- However often the two are entered, only their own members come out. -/
theorem allMembers?_reachable_crossed :
    crossed.membersOf? (.named (.given "Left")) = some [.required "l" .number] ∧
      ∃ inherited, crossed.allMembers? (.named (.given "Left")) =
        some (.required "l" .number :: inherited) ∧
        ∀ m, m ∈ Member.required "l" .number :: inherited ↔
        m = .required "l" .number ∨ m = .required "r" .number := by
  let left := crossed.head (.named (.given "Left"))
  let right := crossed.head (.named (.given "Right"))
  have hown : crossed.membersOf? (.named (.given "Left")) = some [.required "l" .number] := rfl
  have hright : crossed.Inherits left right := ⟨rfl, _, .head _, rfl⟩
  have hclosed : ∀ s, Relation.ReflTransGen crossed.Inherits left s → s ∈ [left, right] := by
    intro s h
    induction h with
    | refl => exact .head _
    | tail _ hstep ih =>
      obtain ⟨hshape, b, hb, rfl⟩ := hstep
      rcases List.mem_pair.1 ih with rfl | rfl
      · rcases List.mem_pair.1 (show b ∈ [.named (.given "Right"), .string] from hb) with rfl | rfl
        · exact .tail _ (.head _)
        · cases hshape
      · obtain rfl := List.mem_singleton.1 (show b ∈ [.named (.given "Left")] from hb)
        exact .head _
  obtain ⟨inherited, hall, -, -, hmem⟩ := allMembers?_reachable crossed hown
  refine ⟨hown, inherited, hall, fun m => (hmem [left, right] (by decide) hclosed m).trans ?_⟩
  constructor
  · rintro ⟨s, ms, hreach, hms, hm⟩
    rcases List.mem_pair.1 (hclosed s hreach) with rfl | rfl
    · obtain rfl := Option.some.inj hms
      exact .inl (List.mem_singleton.1 hm)
    · obtain rfl := Option.some.inj hms
      exact .inr (List.mem_singleton.1 hm)
  · rintro (rfl | rfl)
    · exact ⟨left, _, .refl, rfl, .head _⟩
    · exact ⟨right, _, .single hright, rfl, .head _⟩

end Decls

end StructuralTyping
