import StructuralTyping.Proofs.Assign.Search
import StructuralTyping.Proofs.Equal.Graph

/-!
# Assignability of acyclic types

A rule only asks about types that are nested less deeply than the pair that it
decides, taken together.  So on acyclic types no question comes round again, and
the open questions have no say in the search.  What is left is
`Decls.AssignableWithin`, which counts the steps and nothing else.

For the same reason the depth is enough where the two types together are nested
less deeply than that, and then the search decides assignability
(`Decls.assignableWithin_of_assignable`).
-/

namespace StructuralTyping

/-! ## Places for types -/

/-- The signature of a member. -/
def Member.signature? : Member → Option Signature
  | .method _ _ s | .call s | .construct s => some s
  | .property _ _ _ _ | .index _ _ _ _ => none

/-- The places for types in a member.  An absent signature has one for its result. -/
def Member.slots (m : Member) : List Ty := m.parts ++ m.signature?.toList.map (·.result)

/-- The signatures in the outermost layer of a type. -/
def Ty.signatures : Ty → List Signature
  | .function s | .ctor s => [s]
  | t => (t.ownMembers?.getD []).filterMap (·.signature?)

/-- The places for types in the outermost layer of a type. -/
def Ty.slots (t : Ty) : List Ty := t.parts ++ t.signatures.map (·.result)

/-- A result is missing or a part. -/
theorem Signature.result_mem_parts (s : Signature) : s.result = .missing ∨ s.result ∈ s.parts := by
  cases s <;> simp [Signature.result, Signature.parts]

theorem Member.exists_slot (m : Member) : ∃ x, x ∈ m.slots := by
  cases m <;> simp [Member.slots, Member.parts, Member.signature?]

theorem Ty.part_mem_slots {t x : Ty} (h : x ∈ t.parts) : x ∈ t.slots := List.mem_append_left _ h

theorem Ty.mem_parts_of_mem_bases {t b : Ty} (h : b ∈ t.bases) : b ∈ t.parts := by
  cases t <;> simp_all [Ty.bases, Ty.parts]

/-- The places in an own member are places in the layer. -/
theorem Ty.mem_slots_of_own {t x : Ty} {m : Member} {own : List Member}
    (hown : t.ownMembers? = some own) (hm : m ∈ own) (hx : x ∈ m.slots) : x ∈ t.slots := by
  have hparts : ∀ y ∈ m.parts, y ∈ t.parts := by
    intro y hy
    cases t <;> simp only [Ty.ownMembers?, Option.some.injEq, reduceCtorEq] at hown
    all_goals
      subst hown
      simp only [Ty.parts, List.mem_append, List.mem_flatMap]
      grind
  have hsignatures : ∀ s, m.signature? = some s → s ∈ t.signatures := by
    intro s hs
    cases t <;> simp only [Ty.ownMembers?, Option.some.injEq, reduceCtorEq] at hown
    all_goals
      subst hown
      exact List.mem_filterMap.2 ⟨m, hm, hs⟩
  simp only [Member.slots, Ty.slots, List.mem_append, List.mem_map, Option.mem_toList] at hx ⊢
  rcases hx with hx | ⟨s, hs, hresult⟩
  · exact .inl (hparts x hx)
  · exact .inr ⟨s, hsignatures s hs, hresult⟩

/-- What stands in a place is missing or a part. -/
theorem Ty.mem_parts_of_mem_slots {t x : Ty} (h : x ∈ t.slots) : x = .missing ∨ x ∈ t.parts := by
  rcases List.mem_append.1 h with h | h
  · exact .inr h
  · obtain ⟨s, hs, rfl⟩ := List.mem_map.1 h
    refine s.result_mem_parts.imp_right fun hresult => ?_
    cases t with
    | function | ctor => exact List.mem_singleton.1 hs ▸ hresult
    | object | interface | classType =>
      obtain ⟨m, hm, hsignature⟩ := List.mem_filterMap.1 hs
      have hmember : s.result ∈ m.parts := by cases m <;> cases hsignature <;> exact hresult
      simp only [Ty.ownMembers?, Option.getD_some] at hm
      simp only [Ty.parts, List.mem_append, List.mem_flatMap]
      grind
    | _ => cases hs

namespace Decls

variable {D : Decls}

/-! ## Nesting -/

/-- An acyclic type that is nested at most `n` deep.  A missing annotation counts as
`any`, and so a place for a type always counts. -/
inductive HasNesting (D : Decls) : Nat → Ty → Prop where
  | missing {n : Nat} : D.HasNesting n .missing
  | leaf {n : Nat} {t : Ty} (hdeclared : (D.head t).isMissing = false)
      (hlayer : (D.head t).isNamed = false) (hslots : (D.head t).slots = []) : D.HasNesting n t
  | layer {n : Nat} {t : Ty} (hdeclared : (D.head t).isMissing = false)
      (hlayer : (D.head t).isNamed = false) (hslots : ∀ x ∈ (D.head t).slots, D.HasNesting n x) :
      D.HasNesting (n + 1) t

namespace HasNesting

variable {m n : Nat} {t x : Ty}

theorem mono (h : D.HasNesting m t) (hmn : m ≤ n) : D.HasNesting n t := by
  induction h generalizing n with
  | missing => exact .missing
  | leaf hdeclared hlayer hslots => exact .leaf hdeclared hlayer hslots
  | layer hdeclared hlayer _ ih =>
    obtain ⟨n, rfl⟩ : ∃ k, n = k + 1 := ⟨n - 1, by omega⟩
    exact .layer hdeclared hlayer fun x hx => ih x hx (by omega)

/-- What stands in a place is nested less deeply. -/
theorem exists_slot (h : D.HasNesting n t) (hx : x ∈ (D.head t).slots) :
    ∃ k, n = k + 1 ∧ D.HasNesting k x := by
  cases h with
  | missing => cases hx
  | leaf _ _ hslots => simp [hslots] at hx
  | layer _ _ hslots => exact ⟨_, rfl, hslots x hx⟩

theorem exists_part (h : D.HasNesting n t) (hx : x ∈ (D.head t).parts) :
    ∃ k, n = k + 1 ∧ D.HasNesting k x := h.exists_slot (Ty.part_mem_slots hx)

theorem of_reaches (h : D.HasNesting n t) (hx : D.Reaches t x) : D.HasNesting n x := by
  induction hx with
  | refl => exact h
  | tail _ hpart ih =>
    obtain ⟨k, rfl, hx⟩ := ih.exists_part hpart
    exact hx.mono (Nat.le_succ k)

theorem orAny (h : D.HasNesting n t) : D.HasNesting n t.orAny := by
  cases t with
  | missing => exact .leaf rfl rfl rfl
  | _ => exact h

/-- The height counts types and the nesting steps between them. -/
theorem hasHeight (h : D.HasNesting n t) : D.HasHeight (n + 1) t := by
  induction h with
  | missing => exact .missing
  | leaf hdeclared hlayer hslots =>
    refine .layer hdeclared hlayer fun x hx => ?_
    have hslot := Ty.part_mem_slots hx
    simp [hslots] at hslot
  | layer hdeclared hlayer _ ih =>
    exact .layer hdeclared hlayer fun x hx => ih x (Ty.part_mem_slots hx)

theorem acyclic (h : D.HasNesting n t) : D.Acyclic t := h.hasHeight.acyclic

end HasNesting

theorem HasHeight.hasNesting {n : Nat} {t : Ty} (h : D.HasHeight n t) : D.HasNesting n t := by
  induction h with
  | missing => exact .missing
  | layer hdeclared hlayer _ ih =>
    refine .layer hdeclared hlayer fun x hx => ?_
    rcases Ty.mem_parts_of_mem_slots hx with rfl | hpart
    · exact .missing
    · exact ih x hpart

/-! ## Members -/

/-- A member, own or inherited, is declared by a type that is reached. -/
theorem exists_owner {fuel : Nat} {t : Ty} {ms : List Member} {m : Member}
    (h : D.membersWithin? fuel t = some ms) (hm : m ∈ ms) :
    ∃ u own, D.Reaches t u ∧ (D.head u).ownMembers? = some own ∧ m ∈ own := by
  induction fuel generalizing t ms with
  | zero => exact ⟨t, ms, .refl, h, hm⟩
  | succ fuel ih =>
    obtain ⟨own, hown, rfl⟩ := Option.map_eq_some_iff.1 h
    rcases List.mem_append.1 hm with hm | hm
    · exact ⟨t, own, .refl, hown, hm⟩
    · obtain ⟨b, hb, hm⟩ := List.mem_flatMap.1 hm
      cases hbase : D.membersWithin? fuel b with
      | none => simp [hbase] at hm
      | some inherited =>
        obtain ⟨u, own', hu, hown', hm'⟩ := ih hbase (by simpa [hbase] using hm)
        exact ⟨u, own', .head (Ty.mem_parts_of_mem_bases hb) hu, hown', hm'⟩

/-- The places in a member are nested less deeply than the shape. -/
theorem HasNesting.exists_member {n : Nat} {t : Ty} {ms : List Member} {m : Member}
    (h : D.HasNesting n t) (hms : D.allMembers? t = some ms) (hm : m ∈ ms) :
    ∃ k, n = k + 1 ∧ ∀ x ∈ m.slots, D.HasNesting k x := by
  obtain ⟨u, own, hu, hown, hm⟩ := exists_owner hms hm
  have hslots : ∀ x ∈ m.slots, ∃ k, n = k + 1 ∧ D.HasNesting k x := fun x hx =>
    (h.of_reaches hu).exists_slot (Ty.mem_slots_of_own hown hm hx)
  obtain ⟨x, hx⟩ := m.exists_slot
  obtain ⟨k, rfl, -⟩ := hslots x hx
  refine ⟨k, rfl, fun y hy => ?_⟩
  obtain ⟨k', hk, hy⟩ := hslots y hy
  obtain rfl := Nat.succ.inj hk
  exact hy

theorem hasNesting_function {n : Nat} {s : Signature} (hresult : D.HasNesting n s.result)
    (hparts : ∀ x ∈ s.parts, D.HasNesting n x) : D.HasNesting (n + 1) (.function s) := by
  refine .layer rfl rfl fun x hx => ?_
  rcases List.mem_append.1 hx with hx | hx
  · exact hparts x hx
  · exact List.mem_singleton.1 hx ▸ hresult

/-- A pair of members asks about what stands in their places.  A method may be asked
about as a whole. -/
theorem hasNesting_of_memberQuestion? {j k : Nat} {m c : Member} {a b : Ty}
    (h : D.memberQuestion? m c = some (a, b)) (hm : ∀ x ∈ m.slots, D.HasNesting j x)
    (hc : ∀ x ∈ c.slots, D.HasNesting k x) : D.HasNesting j a ∧ D.HasNesting (k + 1) b := by
  have hsucc : ∀ {x}, D.HasNesting k x → D.HasNesting (k + 1) x := fun hx => hx.mono (Nat.le_succ k)
  simp only [Member.slots, List.mem_append] at hm hc
  cases m <;> cases c <;>
    simp only [memberQuestion?, Option.some.injEq, Prod.mk.injEq, reduceCtorEq] at h
  case property.property =>
    obtain ⟨rfl, rfl⟩ := h
    exact ⟨(hm _ (.inl (.head _))).orAny, hsucc (hc _ (.inl (.head _))).orAny⟩
  case property.method =>
    obtain ⟨rfl, rfl⟩ := h
    exact ⟨(hm _ (.inl (.head _))).orAny,
      hasNesting_function (hc _ (.inr (.head _))) fun x hx => hc x (.inl hx)⟩
  case method.method =>
    obtain ⟨rfl, rfl⟩ := h
    exact ⟨hm _ (.inr (.head _)), hsucc (hc _ (.inr (.head _)))⟩
  case method.property u _ _ =>
    split at h
    · next r hr =>
      obtain ⟨rfl, rfl⟩ := Prod.mk.inj (Option.some.inj h)
      have hslot : r.result ∈ (D.head u).slots := by simp [hr, Ty.slots, Ty.signatures]
      obtain ⟨l, rfl, hresult⟩ := (hc u (.inl (.head _))).exists_slot hslot
      exact ⟨hm _ (.inr (.head _)), hresult.mono (by omega)⟩
    · cases h

/-! ## Questions -/

/-- The first question is lower than the second one. -/
def IsLower (D : Decls) (q p : Pair) : Prop :=
  ∀ m n, D.HasNesting m p.1 → D.HasNesting n p.2 →
    ∃ k l, D.HasNesting k q.1 ∧ D.HasNesting l q.2 ∧ k + l < m + n

theorem IsLower.trans {p q r : Pair} (h : D.IsLower r q) (h' : D.IsLower q p) : D.IsLower r p := by
  intro m n hm hn
  obtain ⟨k, l, hk, hl, hlt⟩ := h' m n hm hn
  obtain ⟨i, j, hi, hj, hlt'⟩ := h k l hk hl
  exact ⟨i, j, hi, hj, hlt'.trans hlt⟩

theorem IsLower.orAny {a b : Ty} {p : Pair} (h : D.IsLower (a, b) p) :
    D.IsLower (a.orAny, b.orAny) p := by
  intro m n hm hn
  obtain ⟨k, l, hk, hl, hlt⟩ := h m n hm hn
  exact ⟨k, l, hk.orAny, hl.orAny, hlt⟩

/-- No question about acyclic types is lower than itself. -/
theorem not_isLower_self {p : Pair} {m n : Nat} (hm : D.HasNesting m p.1)
    (hn : D.HasNesting n p.2) : ¬ D.IsLower p p := by
  intro h
  -- A pair of least depths could be undercut.
  induction hsum : m + n using Nat.strong_induction_on generalizing m n with
  | h sum ih =>
    obtain ⟨k, l, hk, hl, hlt⟩ := h m n hm hn
    exact ih (k + l) (hsum ▸ hlt) hk hl rfl

section Lower

variable {t s a b : Ty}

theorem isLower_source (hb : b ∈ (D.head s).parts) : D.IsLower (t, b) (t, s) := by
  intro m n hm hn
  obtain ⟨l, rfl, hl⟩ := hn.exists_part hb
  exact ⟨m, l, hm, hl, by omega⟩

theorem isLower_target (ha : a ∈ (D.head t).parts) : D.IsLower (a, s) (t, s) := by
  intro m n hm hn
  obtain ⟨k, rfl, hk⟩ := hm.exists_part ha
  exact ⟨k, n, hk, hn, by omega⟩

theorem isLower_slots (ha : a ∈ (D.head t).slots) (hb : b ∈ (D.head s).slots) :
    D.IsLower (a, b) (t, s) := by
  intro m n hm hn
  obtain ⟨k, rfl, hk⟩ := hm.exists_slot ha
  obtain ⟨l, rfl, hl⟩ := hn.exists_slot hb
  exact ⟨k, l, hk, hl, by omega⟩

theorem isLower_members {wanted given : List Member} {m c : Member}
    (ht : D.allMembers? t = some wanted)
    (hs : D.allMembers? s = some given) (hm : m ∈ wanted) (hc : c ∈ given)
    (h : D.memberQuestion? m c = some (a, b)) : D.IsLower (a, b) (t, s) := by
  intro i j hi hj
  obtain ⟨k, rfl, hk⟩ := hi.exists_member ht hm
  obtain ⟨l, rfl, hl⟩ := hj.exists_member hs hc
  obtain ⟨ha, hb⟩ := hasNesting_of_memberQuestion? h hk hl
  exact ⟨k, l + 1, ha, hb, by omega⟩

end Lower

section Rules

variable {R : Ty → Ty → Prop} {t s : Ty}

theorem Provides.lower {wanted given : List Member} {m : Member}
    (ht : D.allMembers? t = some wanted)
    (hs : D.allMembers? s = some given) (hm : m ∈ wanted) (h : D.Provides R given m) :
    D.Provides (fun a b => R a b ∧ D.IsLower (a, b) (t, s)) given m := by
  cases h with
  | unnamed hkey hc heq => exact .unnamed hkey hc heq
  | named hkey hfirst h =>
    obtain ⟨c, hc, hask⟩ := List.exists_of_findSome?_eq_some hfirst
    exact .named hkey hfirst ⟨h, isLower_members ht hs hm (mem_findMembers.1 hc).1 hask⟩
  | omitted hkey hnone hoptional => exact .omitted hkey hnone hoptional

theorem FollowsByShape.lower (h : D.FollowsByShape R t s) :
    D.FollowsByShape (fun a b => R a b ∧ D.IsLower (a, b) (t, s)) t s := by
  cases h with
  | array ht hs h =>
    exact .array ht hs
      ⟨h, isLower_slots (by simp [ht, Ty.slots, Ty.parts]) (by simp [hs, Ty.slots, Ty.parts])⟩
  | arrayOfTuple ht hs h =>
    refine .arrayOfTuple ht hs fun b hb => ⟨h b hb, ?_⟩
    exact isLower_slots (by simp [ht, Ty.slots, Ty.parts]) (Ty.part_mem_slots (by rwa [hs]))
  | union ht hb h => exact .union ht hb ⟨h, isLower_target (by rwa [ht])⟩
  | inter ht h => exact .inter ht fun b hb => ⟨h b hb, isLower_target (by rwa [ht])⟩
  | keyword ht h => exact .keyword ht h
  | enum ht hs => exact .enum ht hs
  | function ht hs hf hg h =>
    refine .function ht hs hf hg ⟨h, ?_⟩
    exact isLower_slots (by simp [ht, Ty.slots, Ty.signatures])
      (by simp [hs, Ty.slots, Ty.signatures])
  | ctor ht hs hf hg h =>
    refine .ctor ht hs hf hg ⟨h, ?_⟩
    exact isLower_slots (by simp [ht, Ty.slots, Ty.signatures])
      (by simp [hs, Ty.slots, Ty.signatures])
  | tuple ht hs h =>
    refine .tuple ht hs (forall₂_mono h fun a ha b hb hab => hab.imp_left fun hab => ⟨hab, ?_⟩)
    exact isLower_slots (Ty.part_mem_slots (by rwa [ht])) (Ty.part_mem_slots (by rwa [hs]))
  | members ht hs h => exact .members ht hs fun m hm => (h m hm).lower ht hs hm
  | alike hopen h => exact .alike hopen h

/-- A rule asks lower questions only. -/
theorem Follows.lower (h : D.Follows R t s) :
    D.Follows (fun a b => R a b ∧ D.IsLower (a, b) (t, s)) t s := by
  cases h with
  | top ht => exact .top ht
  | unionSource ht hs h =>
    exact .unionSource ht hs fun b hb => ⟨h b hb, isLower_source (by rwa [hs])⟩
  | sameParam ht hs => exact .sameParam ht hs
  | bound ht hs hb h => exact .bound ht hs hb ⟨h, isLower_source (by simp [hs, Ty.parts])⟩
  | emptyObject ht hs hb => exact .emptyObject ht hs hb
  | bottom ht hs => exact .bottom ht hs
  | unknownSource ht hs => exact .unknownSource ht hs
  | equal ht hs h => exact .equal ht hs h
  | shape ht hs h => exact .shape ht hs h.lower

end Rules

/-! ## Counting steps -/

/-- Assignability by at most `n` steps in a row. -/
def AssignableWithin (D : Decls) : Nat → Ty → Ty → Prop
  | 0, _, _ => False
  | n + 1, t, s => D.Follows (D.AssignableWithin n) t.orAny s.orAny

theorem AssignableWithin.mono {m n : Nat} {t s : Ty} (h : D.AssignableWithin m t s) (hmn : m ≤ n) :
    D.AssignableWithin n t s := by
  induction m generalizing n t s with
  | zero => cases h
  | succ m ih =>
    obtain ⟨n, rfl⟩ : ∃ k, n = k + 1 := ⟨n - 1, by omega⟩
    exact Follows.mono (fun a b hab => ih hab (by omega)) h

theorem assignable_of_assignableWithin {n : Nat} {t s : Ty} (h : D.AssignableWithin n t s) :
    D.Assignable t s := by
  refine ⟨fun a b => ∃ n, D.AssignableWithin n a b, ?_, n, h⟩
  rintro a b ⟨k, hab⟩
  cases k with
  | zero => cases hab
  | succ k => exact Follows.mono (fun x y hxy => ⟨k, hxy⟩) hab

/-- Where all open questions are higher, the search only counts steps. -/
theorem assignWithin_iff_assignableWithin {span : Span} {fuel m n : Nat}
    {opened : List Pair} {t s : Ty} (ht : D.HasNesting m t) (hs : D.HasNesting n s)
    (hopened : ∀ p ∈ opened, D.IsLower (t.orAny, s.orAny) p) :
    D.assignWithin span fuel opened t s = .ok () ↔ D.AssignableWithin fuel t s := by
  induction fuel generalizing m n opened t s with
  | zero => simp [assignWithin, AssignableWithin]
  | succ fuel ih =>
    have hopen : isOpen opened t.orAny s.orAny = false := by
      rw [Bool.eq_false_iff]
      intro hopen
      exact not_isLower_self ht.orAny hs.orAny (hopened _ (mem_of_isOpen hopen))
    have hasked : ∀ a b, D.IsLower (a, b) (t.orAny, s.orAny) →
        (D.assignWithin span fuel ((t.orAny, s.orAny) :: opened) a b = .ok () ↔
          D.AssignableWithin fuel a b) := by
      intro a b hlower
      obtain ⟨k, l, hk, hl, -⟩ := hlower m n ht.orAny hs.orAny
      exact ih hk hl (List.forall_mem_cons.2
        ⟨hlower.orAny, fun p hp => hlower.orAny.trans (hopened p hp)⟩)
    rw [assignWithin, hopen, if_neg (by simp), assignStep_eq_ok_iff, AssignableWithin]
    constructor
    · exact fun h => h.lower.mono fun a b hab => (hasked a b hab.2).1 hab.1
    · exact fun h => h.lower.mono fun a b hab => (hasked a b hab.2).2 hab.1

theorem isAssignable_iff_assignableWithin {t s : Ty} {m n : Nat} (ht : D.HasNesting m t)
    (hs : D.HasNesting n s) :
    D.isAssignable t s = true ↔ D.AssignableWithin (defaultMaxDepth + 1) t s := by
  have hsearch : D.assignWithin Span.none (depthLimit 0 + 1) [] t s = .ok () ↔
      D.AssignableWithin (defaultMaxDepth + 1) t s :=
    assignWithin_iff_assignableWithin ht hs (by simp)
  rw [← hsearch, isAssignable]
  rcases D.assign_cases 0 t s Span.none with ⟨hwithin, hassign⟩ | ⟨d, e, hwithin, hassign, -⟩
  · simp [hassign, hwithin, Except.isOk, Except.toBool]
  · simp [hassign, hwithin, Except.isOk, Except.toBool]

/-- There are enough steps where the nesting of the two types together is less. -/
theorem assignableWithin_of_assignable {fuel m n : Nat} {t s : Ty} (ht : D.HasNesting m t)
    (hs : D.HasNesting n s) (hfuel : m + n < fuel) (h : D.Assignable t s) :
    D.AssignableWithin fuel t s := by
  induction fuel generalizing m n t s with
  | zero => cases hfuel
  | succ fuel ih =>
    refine (D.consistent_assignable t s h).lower.mono fun a b ⟨hab, hlower⟩ => ?_
    obtain ⟨k, l, hk, hl, hlt⟩ := hlower m n ht.orAny hs.orAny
    exact ih hk hl (by omega) hab

/-- The search decides assignability within its depth. -/
theorem isAssignable_iff_assignable {m n : Nat} {t s : Ty} (ht : D.HasNesting m t)
    (hs : D.HasNesting n s) (hdepth : m + n ≤ defaultMaxDepth) :
    D.isAssignable t s = true ↔ D.Assignable t s := by
  rw [isAssignable_iff_assignableWithin ht hs]
  exact ⟨assignable_of_assignableWithin, assignableWithin_of_assignable ht hs (by omega)⟩

end Decls

end StructuralTyping
