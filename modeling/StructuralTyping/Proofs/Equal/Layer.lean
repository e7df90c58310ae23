import StructuralTyping.Proofs.Equal.Alike
import StructuralTyping.Proofs.Equal.Matching

/-!
# One layer of the comparison

`Ty.equalLayer` hands the children to a comparison.  What it accepts is alike in
its outermost layer.  Conversely, layers that are alike up to a relation are
accepted, if the comparison agrees with the relation on the parts of the two
types.  Branches and members are matched greedily, so the relation has to be
difunctional.
-/

namespace StructuralTyping

variable {names : Bool} {eq : Ty → Ty → Bool} {R : Ty → Ty → Prop}

theorem equalEach_iff {α β : Type*} {p : α → β → Bool} :
    ∀ {as : List α} {bs : List β},
      equalEach p as bs = true ↔ List.Forall₂ (fun a b => p a b = true) as bs
  | [], [] => by simp [equalEach]
  | [], _ :: _ => by simp [equalEach]
  | _ :: _, [] => by simp [equalEach]
  | _ :: as, _ :: bs => by simp [equalEach, @equalEach_iff _ _ p as bs]

/-! ## Signatures and members

These hold their types in order, so nothing is matched. -/

theorem equalTypeParams_iff {ts us : List TypeParam} :
    equalTypeParams names eq ts us = true ↔
      List.Forall₂ (TypeParam.Alike names fun a b => eq a b = true) ts us := by
  simp only [equalTypeParams, equalEach_iff, Bool.and_eq_true, equalName_iff]
  exact Iff.rfl

theorem equalParams_iff {ps qs : List Param} :
    equalParams names eq ps qs = true ↔
      List.Forall₂ (Param.Alike names fun a b => eq a b = true) ps qs := by
  simp only [equalParams, equalEach_iff, Bool.and_eq_true, Pattern.equal_iff]
  exact Iff.rfl

theorem Signature.equal_iff {s t : Signature} :
    s.equal names eq t = true ↔ s.Alike names (fun a b => eq a b = true) t := by
  constructor
  · intro h
    cases s <;> cases t <;> simp only [Signature.equal, Bool.and_eq_true, Bool.false_eq_true] at h
    case absent.absent => exact .absent
    case mk.mk =>
      exact .mk (equalTypeParams_iff.1 h.1.1) (equalParams_iff.1 h.1.2) h.2
  · intro h
    cases h with
    | absent => rfl
    | mk htypeParams hparams hresult =>
      simp [Signature.equal, equalTypeParams_iff.2 htypeParams, equalParams_iff.2 hparams, hresult]

theorem Member.equal_iff {m n : Member} :
    m.equal names eq n = true ↔ m.Alike names (fun a b => eq a b = true) n := by
  constructor
  · intro h
    cases m <;> cases n <;>
      simp only [Member.equal, Bool.and_eq_true, beq_iff_eq, Bool.false_eq_true] at h
    case property.property =>
      obtain ⟨⟨⟨hkey, rfl⟩, rfl⟩, htype⟩ := h
      exact .property (PropKey.equal_iff.1 hkey) htype
    case method.method =>
      obtain ⟨⟨hkey, rfl⟩, hsignature⟩ := h
      exact .method (PropKey.equal_iff.1 hkey) (Signature.equal_iff.1 hsignature)
    case call.call => exact .call (Signature.equal_iff.1 h)
    case construct.construct => exact .construct (Signature.equal_iff.1 h)
    case index.index =>
      obtain ⟨⟨⟨hparam, rfl⟩, hkey⟩, htype⟩ := h
      exact .index (equalName_iff.1 hparam) hkey htype
  · intro h
    cases h with
    | property hkey h => simp [Member.equal, PropKey.equal_iff.2 hkey, h]
    | method hkey h => simp [Member.equal, PropKey.equal_iff.2 hkey, Signature.equal_iff.2 h]
    | call h => simp [Member.equal, Signature.equal_iff.2 h]
    | construct h => simp [Member.equal, Signature.equal_iff.2 h]
    | index hparam hkey h => simp [Member.equal, equalName_iff.2 hparam, hkey, h]

/-! ## Types -/

theorem rel_of_equalMembers {ms ns : List Member} (h : equalMembers names eq ms ns = true) :
    Multiset.Rel (Member.Alike names fun a b => eq a b = true) (ms : Multiset Member)
      (ns : Multiset Member) :=
  (rel_of_matchAll h).mono fun _ _ _ _ hmn => Member.equal_iff.1 hmn

theorem equalNames_iff {as bs : List String} :
    equalEach (equalName names) as bs = true ↔ as.map (seen names) = bs.map (seen names) := by
  rw [equalEach_iff, ← List.forall₂_eq_eq_eq, List.forall₂_map_left_iff, List.forall₂_map_right_iff]
  simp only [equalName_iff]

/-- Layers that are accepted are alike. -/
theorem Ty.alike_of_equalLayer {a b : Ty} (h : a.equalLayer names eq b = true) :
    a.Alike names (fun x y => eq x y = true) b := by
  unfold Ty.equalLayer at h
  split at h
  case h_1 => exact beq_iff_eq.1 h ▸ .keyword _
  case h_2 => exact .literal h
  case h_3 => exact .array h
  case h_4 => exact .tuple (equalEach_iff.1 h)
  case h_5 => exact .union (rel_of_matchAll h)
  case h_6 => exact .inter (rel_of_matchAll h)
  case h_7 => exact .object (rel_of_equalMembers h)
  case h_8 =>
    simp only [Bool.and_eq_true] at h
    exact .interface (equalName_iff.1 h.1.1.1) (equalTypeParams_iff.1 h.1.1.2)
      (rel_of_equalMembers h.1.2) (equalEach_iff.1 h.2)
  case h_9 =>
    simp only [Bool.and_eq_true] at h
    exact .classType (equalName_iff.1 h.1.1.1) (equalTypeParams_iff.1 h.1.1.2)
      (rel_of_equalMembers h.1.2) h.2
  case h_10 => exact .function (Signature.equal_iff.1 h)
  case h_11 => exact .ctor (Signature.equal_iff.1 h)
  case h_12 =>
    simp only [Bool.and_eq_true, beq_iff_eq] at h
    obtain ⟨⟨hname, rfl⟩, hmembers⟩ := h
    exact .enum (equalName_iff.1 hname) (equalNames_iff.1 hmembers)
  case h_13 =>
    simp only [Bool.and_eq_true] at h
    exact .variant (equalName_iff.1 h.1) (equalName_iff.1 h.2)
  case h_14 =>
    simp only [Bool.and_eq_true] at h
    exact .param (equalName_iff.1 h.1) h.2
  case h_15 => exact .this
  case h_16 =>
    simp only [Bool.and_eq_true] at h
    exact .indexed h.1 h.2
  case h_17 =>
    split at h
    case h_1 hr hs => exact .raw hr (beq_iff_eq.1 h ▸ hs)
    case h_2 => cases h

section Converse

variable (hR : Difunctional R)
include hR

theorem Member.alike_difunctional : Difunctional (Member.Alike names R) := by
  intro l m n o hln hmn hmo
  refine ((hln.comp hmn.flip).comp hmo).mono ?_
  rintro x - y - ⟨u, ⟨v, hxv, huv⟩, huy⟩
  exact hR hxv huv huy

theorem equalMembers_of_rel {ms ns : List Member}
    (heq : ∀ x ∈ ms.flatMap (·.parts), ∀ y ∈ ns.flatMap (·.parts), eq x y = true ↔ R x y)
    (h : Multiset.Rel (Member.Alike names R) (ms : Multiset Member) (ns : Multiset Member)) :
    equalMembers names eq ms ns = true := by
  refine matchAll_of_rel (Member.alike_difunctional hR) ?_ h
  intro m hm n hn
  rw [Member.equal_iff]
  have heq' : ∀ x ∈ m.parts, ∀ y ∈ n.parts, eq x y = true ↔ R x y := fun x hx y hy =>
    heq x (List.mem_flatMap.2 ⟨m, hm, hx⟩) y (List.mem_flatMap.2 ⟨n, hn, hy⟩)
  exact ⟨fun h => h.mono fun x hx y hy => (heq' x hx y hy).1,
    fun h => h.mono fun x hx y hy => (heq' x hx y hy).2⟩

/-- Layers that are alike are accepted. -/
theorem Ty.equalLayer_of_alike {a b : Ty}
    (heq : ∀ x ∈ a.parts, ∀ y ∈ b.parts, eq x y = true ↔ R x y) (hmissing : a.isMissing = false)
    (hnamed : a.isNamed = false) (h : a.Alike names R b) : a.equalLayer names eq b = true := by
  cases h.mono (S := fun x y => eq x y = true) fun x hx y hy => (heq x hx y hy).2 with
  | missing => cases hmissing
  | named n => cases hnamed
  | keyword k => simp [Ty.equalLayer]
  | literal hvalue => exact hvalue
  | array helement => exact helement
  | tuple helements => exact equalEach_iff.2 helements
  -- What is matched greedily needs the relation itself.
  | union =>
    cases h with
    | union hbranches => exact matchAll_of_rel hR heq hbranches
    | raw hraw => cases hraw
  | inter =>
    cases h with
    | inter hbranches => exact matchAll_of_rel hR heq hbranches
    | raw hraw => cases hraw
  | object =>
    cases h with
    | object hmembers => exact equalMembers_of_rel hR heq hmembers
    | raw hraw => cases hraw
  | interface hname htypeParams _ hbases =>
    cases h with
    | interface _ _ hmembers _ =>
      simp only [Ty.parts, List.mem_append] at heq
      have hmatch := equalMembers_of_rel hR
        (fun x hx y hy => heq x (.inl (.inr hx)) y (.inl (.inr hy))) hmembers
      simp [Ty.equalLayer, equalName_iff.2 hname, equalTypeParams_iff.2 htypeParams, hmatch,
        equalEach_iff.2 hbases]
    | raw hraw => cases hraw
  | classType hname htypeParams _ hbase =>
    cases h with
    | classType _ _ hmembers _ =>
      simp only [Ty.parts, List.mem_append] at heq
      have hmatch := equalMembers_of_rel hR
        (fun x hx y hy => heq x (.inl (.inr hx)) y (.inl (.inr hy))) hmembers
      simp [Ty.equalLayer, equalName_iff.2 hname, equalTypeParams_iff.2 htypeParams, hmatch, hbase]
    | raw hraw => cases hraw
  | function hsignature => exact Signature.equal_iff.2 hsignature
  | ctor hsignature => exact Signature.equal_iff.2 hsignature
  | enum hname hmembers => simp [Ty.equalLayer, equalName_iff.2 hname, equalNames_iff.2 hmembers]
  | variant hname hmember => simp [Ty.equalLayer, equalName_iff.2 hname, equalName_iff.2 hmember]
  | param hname hbound => simp [Ty.equalLayer, equalName_iff.2 hname, hbound]
  | this => rfl
  | indexed hobject hindex => simp [Ty.equalLayer, hobject, hindex]
  | raw ha hb =>
    unfold Ty.equalLayer
    split
    case h_17 => simp [ha, hb]
    all_goals cases ha

end Converse

end StructuralTyping
