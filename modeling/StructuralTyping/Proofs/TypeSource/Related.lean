import StructuralTyping.Proofs.Equal.Height
import StructuralTyping.Proofs.TypeSource.Parsing

/-!
# Type source under related names

If the names in scope stand for related types, then type source is accepted under both, and
as related types, or under none (`TypeSource.rel_parse`).  The relation must hold of types
whose outermost layers are alike (`Ty.LayerClosed`).

The declared types are the same on both sides.  So the relation is needed where a name is a
type parameter, and it is carried through the derivation tree of the text.
-/

namespace StructuralTyping

open TypeSource (Names)

/-! ## Relations between types -/

/-- A relation that holds between each type and itself, and between types whose outermost
layers are alike.  Declared names are left alone. -/
structure Ty.LayerClosed (R : Ty → Ty → Prop) : Prop where
  refl : ∀ t, R t t
  layer : ∀ {a b : Ty}, a.isNamed = false → a.Alike true R b → R a b

namespace Decls

/-- Types that unfold alike and are equally high. -/
def SameUnfolding (D : Decls) (a b : Ty) : Prop :=
  D.Bisimilar true a b ∧ ∀ k, D.HasHeight k a ↔ D.HasHeight k b

variable {D : Decls} {a b : Ty}

theorem hasHeight_of_alike {R : Ty → Ty → Prop} {k : Nat}
    (hR : ∀ k x y, R x y → D.HasHeight k x → D.HasHeight k y)
    (ha : a.isNamed = false) (hb : b.isNamed = false) (h : a.Alike true R b)
    (hheight : D.HasHeight k a) : D.HasHeight k b := by
  cases hheight with
  | missing =>
    rw [eq_missing_of_isMissing h.isMissing_eq.symm]
    exact .missing
  | layer hdeclared _ hparts =>
    rw [head_of_isNamed_eq_false ha] at hdeclared hparts
    have hhead : D.head b = b := head_of_isNamed_eq_false hb
    refine .layer (by rw [hhead, ← h.isMissing_eq, hdeclared]) (by rw [hhead, hb]) fun y hy => ?_
    rw [hhead] at hy
    obtain ⟨x, hx, hxy⟩ := h.flip.exists_part hy
    exact hR _ x y hxy (hparts x hx)

theorem layerClosed_sameUnfolding (D : Decls) : Ty.LayerClosed D.SameUnfolding where
  refl t := ⟨bisimilar_equivalence.refl t, fun _ => .rfl⟩
  layer {a b} ha h := by
    have hb : b.isNamed = false := by
      cases h with
      | raw _ hb => cases b <;> first | rfl | cases hb
      | named => cases ha
      | _ => rfl
    refine ⟨bisimilar_of_alike ?_, fun k => ⟨?_, ?_⟩⟩
    · rw [head_of_isNamed_eq_false ha, head_of_isNamed_eq_false hb]
      exact h.mono fun _ _ _ _ hxy => hxy.1
    · exact hasHeight_of_alike (fun _ _ _ hxy => (hxy.2 _).1) ha hb h
    · exact hasHeight_of_alike (fun _ _ _ hxy => (hxy.2 _).2) hb ha h.flip

theorem SameUnfolding.equal (h : D.SameUnfolding a b) (ha : D.HasHeight (maxEqualDepth + 1) a) :
    D.equal a b = true :=
  (equalTypes_iff_bisimilar ha.acyclic ((h.2 _).1 ha).acyclic (.inl ha)).2 h.1

end Decls

namespace TypeSource

variable {R : Ty → Ty → Prop} {N N' : Names}

/-! ## Names -/

/-- The declared types are the same, and the type parameters in scope stand for related
types. -/
structure Names.Related (R : Ty → Ty → Prop) (N N' : Names) : Prop where
  declared : N.declared = N'.declared
  scopes : List.Forall₂ (List.Forall₂ fun e e' => e.1 = e'.1 ∧ R e.2 e'.2)
    N.typeParams N'.typeParams

theorem rel_lookup {S : α → β → Prop} {xs : List (String × α)} {ys : List (String × β)}
    (h : List.Forall₂ (fun x y => x.1 = y.1 ∧ S x.2 y.2) xs ys) (key : String) :
    Option.Rel S (xs.lookup key) (ys.lookup key) := by
  induction h with
  | nil => exact .none
  | @cons x y xs ys hxy _ ih =>
    obtain ⟨key', a⟩ := x
    obtain ⟨_, b⟩ := y
    obtain ⟨rfl, hab⟩ := hxy
    rw [List.lookup_cons, List.lookup_cons]
    cases key == key' with
    | false => exact ih
    | true => exact .some hab

namespace Names

theorem Related.refl (hR : ∀ t, R t t) (N : Names) : Names.Related R N N where
  declared := rfl
  scopes := List.forall₂_same.2 fun _ _ => List.forall₂_same.2 fun _ _ => ⟨rfl, hR _⟩

theorem Related.eq (h : Names.Related Eq N N') : N = N' := by
  obtain ⟨scopes, declared⟩ := N
  obtain ⟨scopes', declared'⟩ := N'
  obtain ⟨rfl, hscopes⟩ := h
  obtain rfl : scopes = scopes' :=
    eq_of_forall₂ (fun _ _ => eq_of_forall₂ fun _ _ he => Prod.ext he.1 he.2) hscopes
  rfl

theorem Related.enter (hparam : ∀ name {t u}, R t u → R (.param name t) (.param name u))
    (h : Names.Related R N N') {ts us : List TypeParam}
    (hts : List.Forall₂ (TypeParam.Alike true R) ts us) :
    Names.Related R (N.enter ts) (N'.enter us) where
  declared := h.declared
  scopes := by
    refine .cons ?_ h.scopes
    rw [scopeOf, scopeOf, List.forall₂_reverse_iff, List.forall₂_map_left_iff,
      List.forall₂_map_right_iff]
    refine hts.imp fun t u htu => ?_
    obtain ⟨hname, hbound⟩ : t.name = u.name ∧ R t.bound u.bound := htu
    exact ⟨hname, hname ▸ hparam t.name hbound⟩

theorem Related.typeParam? (h : Names.Related R N N') (name : String) :
    Option.Rel R (N.typeParam? name) (N'.typeParam? name) := by
  have hscopes := h.scopes
  rw [Names.typeParam?, Names.typeParam?]
  generalize N.typeParams = scopes at hscopes ⊢
  generalize N'.typeParams = scopes' at hscopes ⊢
  induction hscopes with
  | nil => exact .none
  | @cons scope scope' scopes scopes' hscope _ ih =>
    have hlookup := rel_lookup hscope name
    rw [List.findSome?_cons, List.findSome?_cons]
    generalize scope.lookup name = o at hlookup ⊢
    generalize scope'.lookup name = o' at hlookup ⊢
    cases hlookup with
    | none => exact ih
    | some ht => exact .some ht

theorem rel_self (hR : Ty.LayerClosed R) (o : Option Ty) : Option.Rel R o o := by
  cases o with
  | none => exact .none
  | some t => exact .some (hR.refl t)

theorem Related.resolve (hR : Ty.LayerClosed R) (h : Names.Related R N N') (name : String) :
    Option.Rel R (N.resolve name).toOption (N'.resolve name).toOption := by
  have hmember : N.member name = N'.member name := by rw [Names.member, Names.member, h.declared]
  have hparam := h.typeParam? name
  rw [Names.resolve, Names.resolve, h.declared, hmember]
  generalize N.typeParam? name = o at hparam ⊢
  generalize N'.typeParam? name = o' at hparam ⊢
  cases hparam with
  | some ht => exact .some ht
  | none => exact rel_self hR _

end Names

/-! ## Derivations -/

theorem rel_bind {S : α → β → Prop} {T : γ → δ → Prop} {x : Option α} {y : Option β}
    (h : Option.Rel S x y)
    {f : α → Option γ} {g : β → Option δ} (hfg : ∀ a b, S a b → Option.Rel T (f a) (g b)) :
    Option.Rel T (x >>= f) (y >>= g) := by
  cases h with
  | none => exact .none
  | some h => exact hfg _ _ h

theorem rel_nestArrays (hR : Ty.LayerClosed R) (n : Nat) {t u : Ty} (h : R t u) :
    R (nestArrays n t) (nestArrays n u) := by
  induction n generalizing t u with
  | zero => exact h
  | succ n ih => exact ih (hR.layer rfl (.array h))

theorem rel_built {build : List Ty → Ty} {ts us : List Ty} (hbuild : R (build ts) (build us))
    (h : List.Forall₂ R ts us) : R (built build ts) (built build us) := by
  match h with
  | .nil => exact hbuild
  | .cons h .nil => exact h
  | .cons _ (.cons _ _) => exact hbuild

theorem exists_of_rel_some {S : α → β → Prop} {a : α} {y : Option β} (h : Option.Rel S (some a) y) :
    ∃ b, y = some b ∧ S a b := by
  cases h with
  | some h => exact ⟨_, rfl, h⟩

theorem rel_map {S : α → β → Prop} {T : γ → δ → Prop} {x : Option α} {y : Option β}
    (h : Option.Rel S x y) {f : α → γ} {g : β → δ} (hfg : ∀ a b, S a b → T (f a) (g b)) :
    Option.Rel T (x.map f) (y.map g) := by
  cases h with
  | none => exact .none
  | some h => exact .some (hfg _ _ h)

mutual

theorem UnionTree.rel_type? (hR : Ty.LayerClosed R) (hN : Names.Related R N N') :
    ∀ u : UnionTree, Option.Rel R (u.type? N) (u.type? N')
  | ⟨_, first, more⟩ => by
    refine rel_bind (first.rel_type? hR hN) fun t t' ht =>
      rel_bind (InterTree.rel_types? hR hN more) fun ts ts' hts => ?_
    exact .some (rel_built (hR.layer rfl (.union (rel_of_forall₂ (.cons ht hts)))) (.cons ht hts))
termination_by structural u => u

theorem InterTree.rel_type? (hR : Ty.LayerClosed R) (hN : Names.Related R N N') :
    ∀ i : InterTree, Option.Rel R (i.type? N) (i.type? N')
  | ⟨first, more⟩ => by
    refine rel_bind (first.rel_type? hR hN) fun t t' ht =>
      rel_bind (PostfixTree.rel_types? hR hN more) fun ts ts' hts => ?_
    exact .some (rel_built (hR.layer rfl (.inter (rel_of_forall₂ (.cons ht hts)))) (.cons ht hts))
termination_by structural i => i

theorem PostfixTree.rel_type? (hR : Ty.LayerClosed R) (hN : Names.Related R N N') :
    ∀ p : PostfixTree, Option.Rel R (p.type? N) (p.type? N')
  | ⟨primary, arrays⟩ =>
    rel_map (primary.rel_type? hR hN) fun _ _ ht => rel_nestArrays hR arrays ht
termination_by structural p => p

theorem PrimaryTree.rel_type? (hR : Ty.LayerClosed R) (hN : Names.Related R N N') :
    ∀ p : PrimaryTree, Option.Rel R (p.type? N) (p.type? N')
  | .group inner => inner.rel_type? hR hN
  | .emptyTuple => .some (hR.refl _)
  | .tuple first more _ =>
    rel_bind (first.rel_type? hR hN) fun _ _ ht =>
      rel_bind (UnionTree.rel_types? hR hN more) fun _ _ hts =>
      .some (hR.layer rfl (.tuple (.cons ht hts)))
  | .string _ _ => Names.rel_self hR _
  | .number _ _ _ => Names.rel_self hR _
  | .names _ _ => hN.resolve hR _
termination_by structural p => p

theorem InterTree.rel_types? (hR : Ty.LayerClosed R) (hN : Names.Related R N N') :
    ∀ is : List InterTree,
      Option.Rel (List.Forall₂ R) (InterTree.types? N is) (InterTree.types? N' is)
  | [] => .some .nil
  | i :: is => rel_bind (i.rel_type? hR hN) fun _ _ ht =>
    rel_bind (InterTree.rel_types? hR hN is) fun _ _ hts => .some (.cons ht hts)
termination_by structural is => is

theorem PostfixTree.rel_types? (hR : Ty.LayerClosed R) (hN : Names.Related R N N') :
    ∀ ps : List PostfixTree, Option.Rel (List.Forall₂ R) (PostfixTree.types? N ps)
      (PostfixTree.types? N' ps)
  | [] => .some .nil
  | p :: ps => rel_bind (p.rel_type? hR hN) fun _ _ ht =>
    rel_bind (PostfixTree.rel_types? hR hN ps) fun _ _ hts => .some (.cons ht hts)
termination_by structural ps => ps

theorem UnionTree.rel_types? (hR : Ty.LayerClosed R) (hN : Names.Related R N N') :
    ∀ us : List UnionTree,
      Option.Rel (List.Forall₂ R) (UnionTree.types? N us) (UnionTree.types? N' us)
  | [] => .some .nil
  | u :: us => rel_bind (u.rel_type? hR hN) fun _ _ ht =>
    rel_bind (UnionTree.rel_types? hR hN us) fun _ _ hts => .some (.cons ht hts)
termination_by structural us => us

end

/-- Under related names a text is accepted as related types, or not at all. -/
theorem rel_parse (hR : Ty.LayerClosed R) (hN : Names.Related R N N') (source : String) :
    Option.Rel R (parse N source).toOption (parse N' source).toOption := by
  have hparse {M : Names} {u : UnionTree} {t : Ty}
      (hclean : ∀ k ∈ tokens source, k.complaint? = none)
      (htokens : u.tokens = tokens source) (htype : u.type? M = some t) :
        parse M source = .ok t := by
    rw [parse, ← htokens]
    exact parseTokens_of_derivation htype (htokens ▸ hclean)
  cases h : parse N source with
  | ok t =>
    obtain ⟨hclean, u, htokens, htype⟩ := derivation_of_parse h
    obtain ⟨t', htype', ht⟩ := exists_of_rel_some (htype ▸ u.rel_type? hR hN)
    rw [hparse hclean htokens htype']
    exact .some ht
  | error p =>
    cases h' : parse N' source with
    | error p' => exact .none
    | ok t' =>
      obtain ⟨hclean, u, htokens, htype'⟩ := derivation_of_parse h'
      have hrel := u.rel_type? hR hN
      cases htype : u.type? N with
      | some t => cases h.symm.trans (hparse hclean htokens htype)
      | none =>
        rw [htype, htype'] at hrel
        cases hrel

end TypeSource

end StructuralTyping
