import Mathlib.Data.Set.Card
import StructuralTyping.Proofs.Declare
import StructuralTyping.Proofs.Equal.Height
import StructuralTyping.Ty.Build

/-!
# Comparing type graphs

The nodes of a type graph are the types that can be reached from its root.  A
declared name is a node, and so is a term that is not declared.  The declaration
of a node is one layer over names and leaves, as in every table of definitions.

Along a path of the comparison no pair of nodes comes twice.  A pair of names that
comes again counts as open, and from a term the path only goes down.  So a path is
no longer than the number of pairs of nodes, and with that much depth the
comparison decides bisimilarity (`Decls.equalTypes_decides`).
-/

namespace StructuralTyping

namespace Decls

variable {D : Decls} {names : Bool}

/-! ## Nodes -/

/-- The second type is found below the first one, or is it. -/
def Reaches (D : Decls) : Ty → Ty → Prop := Relation.ReflTransGen fun s t => t ∈ (D.head s).parts

theorem Reaches.tail {a s t : Ty} (h : D.Reaches a s) (ht : t ∈ (D.head s).parts) : D.Reaches a t :=
  Relation.ReflTransGen.tail h ht

/-- The types that can be reached.  A missing annotation is no type. -/
def nodes (D : Decls) (a : Ty) : Set Ty := {t | D.Reaches a t ∧ t.isMissing = false}

/-- A name that is declared as one layer over names and leaves, or a term. -/
structure IsNode (D : Decls) (t : Ty) : Prop where
  declared : (D.head t).isMissing = t.isMissing
  layer : (D.head t).isNamed = false
  flat : t.isNamed = true → ∀ x ∈ (D.head t).parts, x.isLeaf = true

/-- Everything that can be reached is a node. -/
def IsGraph (D : Decls) (a : Ty) : Prop := ∀ t, D.Reaches a t → D.IsNode t

/-- In a table of definitions, a name that is declared as a layer is a node. -/
theorem isNode_ofDefinitions {definitions : List (String × Ty)} {t : Ty}
    (hdeclared : ((ofDefinitions definitions).head t).isMissing = t.isMissing)
    (hlayer : ((ofDefinitions definitions).head t).isNamed = false) :
    (ofDefinitions definitions).IsNode t where
  declared := hdeclared
  layer := hlayer
  flat h := by
    cases t <;> cases h
    exact (isFlat_ofDefinitions definitions).allLeaves_head _

/-- A list of nodes that holds the parts of its nodes holds all nodes of a graph. -/
theorem isGraph_of_closed {S : List Ty} {a : Ty} (ha : a ∈ S) (hnode : ∀ t ∈ S, D.IsNode t)
    (hparts : ∀ t ∈ S, ∀ x ∈ (D.head t).parts, x ∈ S) :
    D.IsGraph a ∧ (D.nodes a).encard ≤ S.length := by
  classical
  have hreach : ∀ t, D.Reaches a t → t ∈ S := by
    intro t h
    induction h with
    | refl => exact ha
    | tail _ hx ih => exact hparts _ ih _ hx
  refine ⟨fun t h => hnode t (hreach t h), ?_⟩
  have hsub : D.nodes a ⊆ (S.toFinset : Set Ty) := by
    intro t ht
    exact List.mem_toFinset.2 (hreach t ht.1)
  calc (D.nodes a).encard
      ≤ (S.toFinset : Set Ty).encard := Set.encard_le_encard hsub
    _ = (S.toFinset.card : ℕ∞) := Set.encard_coe_eq_coe_finsetCard _
    _ ≤ S.length := by exact_mod_cast S.toFinset_card_le

/-! ## Paths -/

/-- A path that comes to the type now and was at the other one before.  It may come
back to a name only. -/
def After (t earlier : Ty) : Prop := earlier.isNamed = true ∨ t.height < earlier.height

theorem isNamed_of_after {t : Ty} (h : After t t) : t.isNamed = true :=
  h.resolve_right (Nat.lt_irrefl _)

theorem after_part {t x : Ty} (hx : x ∈ (D.head t).parts) : After x t := by
  cases hnamed : t.isNamed with
  | true => exact .inl hnamed
  | false =>
    rw [head_of_isNamed_eq_false hnamed] at hx
    exact .inr (Ty.height_lt_of_mem_parts hx)

/-- What comes after stays so one step further. -/
theorem IsNode.after_trans {t x earlier : Ty} (h : D.IsNode t) (hx : x ∈ (D.head t).parts)
    (ht : After t earlier) : After x earlier := by
  refine ht.imp_right fun hlt => ?_
  cases hnamed : t.isNamed with
  | true =>
    have hleaf := Ty.height_le_of_isLeaf (h.flat hnamed x hx)
    have hpos : 0 < t.height := Ty.height_pos (by cases t <;> simp_all [Ty.isNamed, Ty.isMissing])
    omega
  | false =>
    rw [head_of_isNamed_eq_false hnamed] at hx
    exact (Ty.height_lt_of_mem_parts hx).trans hlt

/-- The open pairs are distinct pairs of nodes, and the path came to the pair in
question after all of them. -/
structure OnPath (D : Decls) (a b : Ty) (fuel : Nat) (opened : List Pair) (x y : Ty) : Prop where
  depth : fuel + opened.length = maxEqualDepth + 1
  distinct : opened.Nodup
  nodes : ∀ p ∈ opened, p.1 ∈ D.nodes a ∧ p.2 ∈ D.nodes b
  left : D.Reaches a x
  right : D.Reaches b y
  after : ∀ p ∈ opened, After x p.1 ∧ After y p.2

/-- There are no more open pairs than pairs of nodes. -/
theorem OnPath.length_le {a b x y : Ty} {fuel : Nat} {opened : List Pair}
    (h : D.OnPath a b fuel opened x y) :
    (opened.length : ℕ∞) ≤ (D.nodes a).encard * (D.nodes b).encard := by
  classical
  have hsub : (opened.toFinset : Set Pair) ⊆ D.nodes a ×ˢ D.nodes b := by
    intro p hp
    exact h.nodes p (List.mem_toFinset.1 hp)
  calc (opened.length : ℕ∞)
      = (opened.toFinset : Set Pair).encard := by
        rw [Set.encard_coe_eq_coe_finsetCard, List.toFinset_card_of_nodup h.distinct]
    _ ≤ (D.nodes a ×ˢ D.nodes b).encard := Set.encard_le_encard hsub
    _ = (D.nodes a).encard * (D.nodes b).encard := Set.encard_prod

/-- A path through graphs with few pairs of nodes ends before the depth does. -/
theorem enough_onPath {a b : Ty} (ha : D.IsGraph a) (hb : D.IsGraph b)
    (hnodes : (D.nodes a).encard * (D.nodes b).encard ≤ maxEqualDepth) :
    D.Enough (D.OnPath a b) where
  left h := (ha _ h.left).declared
  right h := (hb _ h.right).declared
  layer h := (ha _ h.left).layer
  step {fuel opened x y} h hx hy := by
    have hlen : opened.length ≤ maxEqualDepth := by exact_mod_cast h.length_le.trans hnodes
    have hdepth := h.depth
    obtain ⟨rest, rfl⟩ : ∃ rest, fuel = rest + 1 := ⟨fuel - 1, by omega⟩
    refine ⟨rest, rfl, ?_⟩
    by_cases hmem : (x, y) ∈ opened
    · -- Only names come again.
      left
      obtain ⟨hafterx, haftery⟩ := h.after _ hmem
      have hnamedx := isNamed_of_after hafterx
      have hnamedy := isNamed_of_after haftery
      cases x <;> cases hnamedx
      cases y <;> cases hnamedy
      exact isOpen_named hmem
    · right
      intro u hu v hv
      have hnodex := ha x h.left
      have hnodey := hb y h.right
      exact {
        depth := by rw [List.length_cons]; omega
        distinct := List.nodup_cons.2 ⟨hmem, h.distinct⟩
        nodes := List.forall_mem_cons.2 ⟨⟨⟨h.left, hx⟩, ⟨h.right, hy⟩⟩, h.nodes⟩
        left := h.left.tail hu
        right := h.right.tail hv
        after := List.forall_mem_cons.2 ⟨⟨after_part hu, after_part hv⟩, fun p hp =>
          ⟨hnodex.after_trans hu (h.after p hp).1, hnodey.after_trans hv (h.after p hp).2⟩⟩ }

/-! ## The comparison -/

/-- Equal types are bisimilar, and bisimilar graphs with few pairs of nodes are
equal, whether names are compared or ignored. -/
theorem equalTypes_decides (D : Decls) (names : Bool) (a b : Ty) :
    (D.equalTypes names a b = true → D.Bisimilar names a b) ∧
      (D.IsGraph a → D.IsGraph b → (D.nodes a).encard * (D.nodes b).encard ≤ maxEqualDepth →
        D.Bisimilar names a b → D.equalTypes names a b = true) := by
  refine ⟨fun h => bisimilar_of_equalWithin (by simp) h, fun ha hb hnodes hab => ?_⟩
  refine equalWithin_of_bisimilar (enough_onPath ha hb hnodes) (by simp) ?_ hab
  exact {
    depth := rfl
    distinct := List.nodup_nil
    nodes := by simp
    left := .refl
    right := .refl
    after := by simp }

/-- Three endless chains.  The second one repeats after two links, and every other
link of the third one has a number. -/
def endless : Decls :=
  .ofDefinitions
    [("One", .object [.required "next" (.named (.given "One"))]),
      ("Two", .object [.required "next" (.object [.required "next" (.named (.given "Two"))])]),
      ("Odd", .object [.required "next"
        (.object [.required "next" (.named (.given "Odd")), .required "value" .number])])]

/-- How often a chain repeats makes no difference, but numbers on its links do. -/
theorem equalTypes_decides_endless :
    endless.Bisimilar true (.named (.given "One")) (.named (.given "Two")) ∧
      ¬ endless.Bisimilar true (.named (.given "One")) (.named (.given "Odd")) := by
  refine ⟨(equalTypes_decides endless true _ _).1 rfl, fun h => ?_⟩
  let one : Ty := .named (.given "One")
  let odd : Ty := .named (.given "Odd")
  have hone : endless.IsGraph one ∧ (endless.nodes one).encard ≤ [one].length := by
    refine isGraph_of_closed (.head _) ?_ ?_
    · exact List.forall_mem_singleton.2 (isNode_ofDefinitions rfl rfl)
    · exact List.forall_mem_singleton.2 fun x hx => hx
  have hodd : endless.IsGraph odd ∧
      (endless.nodes odd).encard ≤ [odd, .named (.part 3), .number].length := by
    refine isGraph_of_closed (.head _) ?_ ?_
    · intro t ht
      simp only [List.mem_cons, List.not_mem_nil, or_false] at ht
      rcases ht with rfl | rfl | rfl <;> exact isNode_ofDefinitions rfl rfl
    · intro t ht
      simp only [List.mem_cons, List.not_mem_nil, or_false] at ht
      rcases ht with rfl | rfl | rfl
      · exact fun x hx => (List.mem_singleton.1 hx) ▸ .tail _ (.head _)
      · intro x hx
        have hx' : x ∈ [odd, .number] := hx
        simp only [List.mem_cons, List.not_mem_nil, or_false] at hx' ⊢
        rcases hx' with rfl | rfl <;> simp
      · exact fun x hx => nomatch hx
  have hnodes : (endless.nodes one).encard * (endless.nodes odd).encard ≤ maxEqualDepth :=
    (mul_le_mul' hone.2 hodd.2).trans (by exact_mod_cast (by decide : 1 * 3 ≤ 256))
  cases (equalTypes_decides endless true one odd).2 hone.1 hodd.1 hnodes h

end Decls

end StructuralTyping
