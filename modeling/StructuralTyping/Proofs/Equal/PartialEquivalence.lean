import StructuralTyping.Proofs.Equal.Height
import StructuralTyping.Ty.Build

/-!
# Equality as a partial equivalence

A comparison is cut at a depth, so a type that is too deep differs from its own
copy, and equality is not reflexive.  It is symmetric and transitive all the same,
at every depth.

On acyclic types no question comes round again, so the open pairs have no say.
What is left is `Decls.AlikeWithin`, which counts the layers and nothing else.
Each of its levels is symmetric and transitive, and then greedy matching computes
the next level.

A copy of a type is a type that unfolds to the same term.  The unfoldings of
copies go side by side, so copies are bisimilar.
-/

namespace StructuralTyping

namespace Decls

variable {D : Decls} {names : Bool}

/-! ## Alike down to a depth -/

/-- Types that are alike as far as `n` layers show.  A declared name is alike to
itself as long as a layer is left. -/
def AlikeWithin (D : Decls) (names : Bool) : Nat → Ty → Ty → Prop
  | 0, a, b => a = .missing ∧ b = .missing
  | n + 1, a, b =>
    a.sameNamed b = true ∨ (D.head a).Alike names (D.AlikeWithin names n) (D.head b)

namespace AlikeWithin

variable {n : Nat} {a b c : Ty}

theorem symm (h : D.AlikeWithin names n a b) : D.AlikeWithin names n b a := by
  induction n generalizing a b with
  | zero => exact And.symm h
  | succ n ih =>
    rcases h with h | h
    · exact .inl (eq_of_sameNamed h ▸ h)
    · exact .inr (h.flip.mono fun _ _ _ _ hyx => ih hyx)

theorem trans (h : D.AlikeWithin names n a b) (h' : D.AlikeWithin names n b c) :
    D.AlikeWithin names n a c := by
  induction n generalizing a b c with
  | zero => exact ⟨h.1, h'.2⟩
  | succ n ih =>
    rcases h with h | h
    · exact eq_of_sameNamed h ▸ h'
    · rcases h' with h' | h'
      · exact eq_of_sameNamed h' ▸ .inr h
      · exact .inr ((h.comp h').mono fun _ _ _ _ ⟨_, hxy, hyz⟩ => ih hxy hyz)

theorem difunctional : Difunctional (D.AlikeWithin names n) := .of_symm_trans symm trans

theorem isMissing_eq (ha : D.Acyclic a) (hb : D.Acyclic b) (h : D.AlikeWithin names n a b) :
    a.isMissing = b.isMissing := by
  cases n with
  | zero => rw [h.1, h.2]
  | succ n =>
    rcases h with h | h
    · rw [eq_of_sameNamed h]
    · rw [← ha.choose_spec.isMissing_head, ← hb.choose_spec.isMissing_head]
      exact h.isMissing_eq

end AlikeWithin

/-! ## Acyclic types meet no open pair -/

/-- The second type lies strictly below the first one. -/
def LiesAbove (D : Decls) : Ty → Ty → Prop := Relation.TransGen fun s t => t ∈ (D.head s).parts

theorem not_liesAbove_self {t : Ty} (h : D.Acyclic t) : ¬ D.LiesAbove t t := by
  obtain ⟨n, h⟩ := h
  induction h with
  | missing =>
    intro hself
    obtain ⟨x, hx, -⟩ := Relation.TransGen.head'_iff.1 hself
    cases hx
  | layer _ _ _ ih =>
    intro hself
    obtain ⟨x, hx, hback⟩ := Relation.TransGen.head'_iff.1 hself
    exact ih x hx (.tail' hback hx)

/-- Where all open pairs lie above, the comparison only counts layers. -/
theorem equalWithin_iff_alikeWithin {fuel : Nat} {opened : List Pair} {a b : Ty} (ha : D.Acyclic a)
    (hb : D.Acyclic b) (hopened : ∀ p ∈ opened, D.LiesAbove p.1 a) :
    D.equalWithin names fuel opened a b = true ↔ D.AlikeWithin names fuel a b := by
  induction fuel generalizing opened a b with
  | zero =>
    rw [equalWithin, AlikeWithin]
    cases a <;> cases b <;> simp [Ty.isMissing]
  | succ fuel ih =>
    have hopen : isOpen opened a b = false := by
      rw [Bool.eq_false_iff]
      intro hopen
      exact not_liesAbove_self ha (hopened _ (mem_of_isOpen hopen))
    have hopened' : ∀ x ∈ (D.head a).parts, ∀ p ∈ (a, b) :: opened, D.LiesAbove p.1 x := fun x hx =>
      List.forall_mem_cons.2 ⟨.single hx, fun p hp => (hopened p hp).tail hx⟩
    have hparts : ∀ x ∈ (D.head a).parts, ∀ y ∈ (D.head b).parts,
        (D.equalWithin names fuel ((a, b) :: opened) x y = true ↔ D.AlikeWithin names fuel x y) :=
      fun x hx y hy => ih (ha.part hx) (hb.part hy) (hopened' x hx)
    rw [equalWithin, hopen, Bool.or_false]
    cases hamissing : a.isMissing with
    | true =>
      simp only [Bool.true_or, Bool.true_and, if_true]
      refine ⟨fun hbmissing => ?_, fun h => hamissing ▸ (h.isMissing_eq ha hb).symm⟩
      rw [eq_missing_of_isMissing hamissing, eq_missing_of_isMissing hbmissing]
      exact .inr .missing
    | false =>
      cases hbmissing : b.isMissing with
      | true =>
        simp only [Bool.or_true, Bool.false_and, if_true, Bool.false_eq_true, false_iff]
        intro h
        cases hamissing.symm.trans ((h.isMissing_eq ha hb).trans hbmissing)
      | false =>
        simp only [Bool.or_self, Bool.false_eq_true, if_false, Bool.or_eq_true, AlikeWithin]
        refine or_congr_right ⟨fun h => ?_, fun h => ?_⟩
        · exact (Ty.alike_of_equalLayer h).mono fun x hx y hy => (hparts x hx y hy).1
        · exact Ty.equalLayer_of_alike AlikeWithin.difunctional hparts
            (ha.choose_spec.isMissing_head.trans hamissing) ha.choose_spec.isNamed_head h

theorem equalTypes_iff_alikeWithin {a b : Ty} (ha : D.Acyclic a) (hb : D.Acyclic b) :
    D.equalTypes names a b = true ↔ D.AlikeWithin names (maxEqualDepth + 1) a b :=
  equalWithin_iff_alikeWithin ha hb (by simp)

end Decls

/-! ## Copies -/

/-- The type parameter with its bound replaced. -/
def TypeParam.mapParts (f : Ty → Ty) (t : TypeParam) : TypeParam := ⟨t.name, f t.bound⟩

/-- The parameter with its type replaced. -/
def Param.mapParts (f : Ty → Ty) (p : Param) : Param := ⟨p.pattern, f p.type⟩

/-- The signature with its parts replaced. -/
def Signature.mapParts (f : Ty → Ty) : Signature → Signature
  | .absent => .absent
  | .mk ts ps r => .mk (ts.map (·.mapParts f)) (ps.map (·.mapParts f)) (f r)

/-- The member with its parts replaced. -/
def Member.mapParts (f : Ty → Ty) : Member → Member
  | .property k t o r => .property k (f t) o r
  | .method k o s => .method k o (s.mapParts f)
  | .call s => .call (s.mapParts f)
  | .construct s => .construct (s.mapParts f)
  | .index p k t r => .index p (f k) (f t) r

/-- The type with its parts replaced. -/
def Ty.mapParts (f : Ty → Ty) : Ty → Ty
  | .array e => .array (f e)
  | .tuple es => .tuple (es.map f)
  | .union bs => .union (bs.map f)
  | .inter bs => .inter (bs.map f)
  | .object ms => .object (ms.map (·.mapParts f))
  | .interface name ts ms bs =>
    .interface name (ts.map (·.mapParts f)) (ms.map (·.mapParts f)) (bs.map f)
  | .classType name ts ms b =>
    .classType name (ts.map (·.mapParts f)) (ms.map (·.mapParts f)) (f b)
  | .function s => .function (s.mapParts f)
  | .ctor s => .ctor (s.mapParts f)
  | .param name b => .param name (f b)
  | .indexed o i => .indexed (f o) (f i)
  | t => t

section MapParts

variable {names : Bool} {f : Ty → Ty}

theorem Signature.mapParts_alike (s : Signature) :
    (s.mapParts f).Alike names (fun x y => x = f y) s := by
  cases s with
  | absent => exact .absent
  | mk =>
    exact .mk (forall₂_map_self fun _ _ => ⟨rfl, rfl⟩) (forall₂_map_self fun _ _ => ⟨rfl, rfl⟩) rfl

theorem Member.mapParts_alike (m : Member) : (m.mapParts f).Alike names (fun x y => x = f y) m := by
  cases m with
  | property => exact .property rfl rfl
  | method => exact .method rfl (Signature.mapParts_alike _)
  | call => exact .call (Signature.mapParts_alike _)
  | construct => exact .construct (Signature.mapParts_alike _)
  | index => exact .index rfl rfl rfl

/-- Replacing the parts keeps the layer. -/
theorem Ty.mapParts_alike (t : Ty) : (t.mapParts f).Alike names (fun x y => x = f y) t := by
  have htypes (ts : List Ty) : List.Forall₂ (fun x y => x = f y) (ts.map f) ts :=
    forall₂_map_self fun _ _ => rfl
  have htypeParams (ts : List TypeParam) :
      List.Forall₂ (TypeParam.Alike names fun x y => x = f y) (ts.map (·.mapParts f)) ts :=
    forall₂_map_self fun _ _ => ⟨rfl, rfl⟩
  have hmembers (ms : List Member) :
      Multiset.Rel (Member.Alike names fun x y => x = f y)
        (ms.map (·.mapParts f) : Multiset Member) (ms : Multiset Member) :=
    rel_of_forall₂ (forall₂_map_self fun m _ => m.mapParts_alike)
  cases t with
  | missing => exact .missing
  | keyword k => exact .keyword k
  | literal l => exact .literal (Literal.sameValue_equivalence.refl l)
  | array => exact .array rfl
  | tuple => exact .tuple (htypes _)
  | union => exact .union (rel_of_forall₂ (htypes _))
  | inter => exact .inter (rel_of_forall₂ (htypes _))
  | object => exact .object (hmembers _)
  | interface => exact .interface rfl (htypeParams _) (hmembers _) (htypes _)
  | classType => exact .classType rfl (htypeParams _) (hmembers _) rfl
  | function => exact .function (Signature.mapParts_alike _)
  | ctor => exact .ctor (Signature.mapParts_alike _)
  | enum => exact .enum rfl rfl
  | variant => exact .variant rfl rfl
  | param => exact .param rfl rfl
  | this => exact .this
  | indexed => exact .indexed rfl rfl
  | other => exact .raw rfl rfl
  | regExp => exact .raw rfl rfl
  | named n => exact .named n

/-- Layers that become one by replacing the parts are alike. -/
theorem Ty.alike_of_mapParts_eq {a b : Ty} (h : a.mapParts f = b.mapParts f) :
    a.Alike names (fun x y => f x = f y) b := by
  have ha : (a.mapParts f).Alike names (fun x y => x = f y) a := a.mapParts_alike
  have hb : (a.mapParts f).Alike names (fun x y => x = f y) b := h ▸ b.mapParts_alike
  refine (ha.flip.comp hb).mono ?_
  rintro x - y - ⟨z, hx, hy⟩
  exact hx.symm.trans hy

end MapParts

namespace Decls

variable {D : Decls} {names : Bool}

/-- The term that a type unfolds to, cut below `n` types. -/
def unfold (D : Decls) : Nat → Ty → Ty
  | 0, _ => .missing
  | n + 1, t => (D.head t).mapParts (D.unfold n)

/-- Acyclic types that unfold to one term.  Each is a copy of the other, with or
without nodes in common. -/
def IsCopy (D : Decls) (a b : Ty) : Prop :=
  ∃ n, D.HasHeight n a ∧ D.HasHeight n b ∧ D.unfold n a = D.unfold n b

theorem bisimilar_of_isCopy {a b : Ty} (h : D.IsCopy a b) : D.Bisimilar names a b := by
  refine ⟨D.IsCopy, ?_, h⟩
  rintro x y ⟨n, hx, hy, heq⟩
  cases n with
  | zero =>
    cases hx
    cases hy
    exact .missing
  | succ n =>
    exact (Ty.alike_of_mapParts_eq heq).mono fun u hu v hv huv => ⟨n, hx.part hu, hy.part hv, huv⟩

/-! ## The comparison -/

/-- Equality is symmetric and transitive on acyclic types of any depth, and it holds
between a type that is not nested too deeply and its copies, whether names are
compared or ignored. -/
theorem equalTypes_partialEquivalence (D : Decls) (names : Bool) :
    (∀ a b, D.Acyclic a → D.Acyclic b → D.equalTypes names a b = D.equalTypes names b a) ∧
      (∀ a b c, D.Acyclic a → D.Acyclic b → D.Acyclic c → D.equalTypes names a b = true →
        D.equalTypes names b c = true → D.equalTypes names a c = true) ∧
      ∀ a b, D.HasHeight (maxEqualDepth + 1) a → D.IsCopy a b → D.equalTypes names a b = true := by
  refine ⟨fun a b ha hb => ?_, fun a b c ha hb hc hab hbc => ?_, fun a b ha hcopy => ?_⟩
  · rw [Bool.eq_iff_iff, equalTypes_iff_alikeWithin ha hb, equalTypes_iff_alikeWithin hb ha]
    exact ⟨.symm, .symm⟩
  · rw [equalTypes_iff_alikeWithin ha hb] at hab
    rw [equalTypes_iff_alikeWithin hb hc] at hbc
    exact (equalTypes_iff_alikeWithin ha hc).2 (hab.trans hbc)
  · obtain ⟨n, -, hb, -⟩ := id hcopy
    exact (equalTypes_iff_bisimilar ha.acyclic hb.acyclic (.inl ha)).2 (bisimilar_of_isCopy hcopy)

/-- Two shelves that are declared apart, and one that is written the other way round. -/
def shelves : Decls :=
  .ofDefinitions
    [("First", .object
        [.required "size" .number, .required "items" (.array (.union [.string, .number]))]),
      ("Second", .object
        [.required "size" .number, .required "items" (.array (.union [.string, .number]))]),
      ("Turned", .object
        [.required "items" (.array (.union [.number, .string])), .required "size" .number])]

theorem equalTypes_partialEquivalence_shelves :
    let first : Ty := .named (.given "First")
    let second : Ty := .named (.given "Second")
    let turned : Ty := .named (.given "Turned")
    shelves.equalTypes true first second = true ∧ shelves.equalTypes true turned second = true ∧
      shelves.equalTypes true first turned = true := by
  intro first second turned
  obtain ⟨hsymm, htrans, hcopy⟩ := equalTypes_partialEquivalence shelves true
  have hfirst : shelves.HasHeight 4 first := by decide
  have hsecond : shelves.HasHeight 4 second := by decide
  have hturned : shelves.HasHeight 4 turned := by decide
  have hcopies : shelves.equalTypes true first second = true :=
    hcopy first second (hfirst.mono (by decide)) ⟨4, hfirst, hsecond, rfl⟩
  have hsecondTurned : shelves.equalTypes true second turned = true := rfl
  refine ⟨hcopies, ?_, ?_⟩
  · exact (hsymm turned second hturned.acyclic hsecond.acyclic).trans hsecondTurned
  · exact htrans first second turned hfirst.acyclic hsecond.acyclic hturned.acyclic
      hcopies hsecondTurned

end Decls

end StructuralTyping
