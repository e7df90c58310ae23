import StructuralTyping.Proofs.Yaml.Comparison
import StructuralTyping.Proofs.Yaml.Cycles

/-!
# The order of entries

The entries of a mapping are looked up by their keys, so their order makes no difference to
what a node decodes to (`Anchors.decode_reordered`).  Only the named members of a shape are
read in order, and members are compared as multisets.

`Node.Reordered` permutes the entries of all mappings in a node.  The outcomes are compared
by `Agrees`: both are successes with related values, or both are failures, which may differ.
The relation of types is any one that is closed under layers that are alike
(`Ty.LayerClosed`), and so is the relation of the type parameters in scope, whose bounds may
have reordered members.
-/

namespace StructuralTyping.Yaml

open TypeSource (Names)

/-! ## Reordered nodes -/

/-- Nodes without aliases that only differ in the order of the entries of mappings. -/
inductive Node.Reordered : Node → Node → Prop where
  | scalar (i : Info) (s : ByteText) : Reordered (.scalar i s) (.scalar i s)
  | unknown (i : Info) (s : String) : Reordered (.unknown i s) (.unknown i s)
  | document {i : Info} {cs cs' : List Node} (h : List.Forall₂ Reordered cs cs') :
      Reordered (.document i cs) (.document i cs')
  | sequence {i : Info} {ns ns' : List Node} (h : List.Forall₂ Reordered ns ns') :
      Reordered (.sequence i ns) (.sequence i ns')
  | mapping {i : Info} {es mid es' : List (Node × Node)}
      (hkeys : List.Forall₂ Reordered (es.map (·.1)) (mid.map (·.1)))
      (hvalues : List.Forall₂ Reordered (es.map (·.2)) (mid.map (·.2))) (hperm : mid.Perm es') :
      Reordered (.mapping i es) (.mapping i es')

namespace Node.Reordered

variable {A B : Anchors} {n n' : Node}

theorem bare_eq (h : n.Reordered n') : n.bare = n'.bare := by cases h <;> rfl

theorem text_eq (h : n.Reordered n') : n.text = n'.text := by
  rw [← Node.text_bare, h.bare_eq, Node.text_bare]

theorem value_eq (h : n.Reordered n') : n.value = n'.value := congrArg ByteText.shown h.text_eq

theorem ownTag?_eq (h : n.Reordered n') : n.ownTag? = n'.ownTag? := by
  rw [← Node.ownTag?_bare, h.bare_eq, Node.ownTag?_bare]

theorem isNullScalar_eq (h : n.Reordered n') : n.isNullScalar = n'.isNullScalar := by
  rw [← Node.isNullScalar_bare, h.bare_eq, Node.isNullScalar_bare]

theorem isAlias_eq_false (h : n.Reordered n') : n.isAlias = false ∧ n'.isAlias = false := by
  cases h <;> exact ⟨rfl, rfl⟩

theorem tag_eq (h : n.Reordered n') : A.tag n = B.tag n' := by
  rw [Anchors.tag, Anchors.tag, Anchors.tagWithin_of_isAlias h.isAlias_eq_false.1,
    Anchors.tagWithin_of_isAlias h.isAlias_eq_false.2, h.ownTag?_eq]

theorem wanted_eq (h : n.Reordered n') (g : Scalar → Wanted α) : A.wanted g n = B.wanted g n' := by
  rw [Anchors.wanted, Anchors.wanted, Anchors.follow?_of_isAlias h.isAlias_eq_false.1,
    Anchors.follow?_of_isAlias h.isAlias_eq_false.2]
  dsimp only
  rw [← Node.wantedScalar_bare, h.bare_eq, Node.wantedScalar_bare]

theorem wantedText_eq (h : n.Reordered n') : A.wantedText n = B.wantedText n' := by
  cases h <;> rfl

theorem textsOf?_eq {ns ns' : List Node} (h : List.Forall₂ Node.Reordered ns ns') :
    A.textsOf? ns = B.textsOf? ns' := by
  induction h with
  | nil => rfl
  | cons hn _ ih => rw [Anchors.textsOf?, Anchors.textsOf?, hn.wantedText_eq (B := B), ih]

theorem wantedTexts_eq (h : n.Reordered n') : A.wantedTexts n = B.wantedTexts n' := by
  cases h with
  | sequence h =>
    have htexts := textsOf?_eq (A := A) (B := B) h
    simp only [Anchors.wantedTexts, Anchors.follow?, Anchors.followWithin?, htexts]
  | _ => rfl

end Node.Reordered

/-! ## Outcomes -/

/-- Two successes with related values, or two failures. -/
inductive Agrees (R : α → β → Prop) : Outcome α → Outcome β → Prop where
  | ok {a : α} {b : β} (h : R a b) : Agrees R (.ok a) (.ok b)
  | error (p q : Problem) : Agrees R (.error p) (.error q)

namespace Agrees

variable {R : α → β → Prop} {S : γ → δ → Prop} {x : Outcome α} {y : Outcome β}

theorem refl {R : α → α → Prop} (hR : ∀ a, R a a) (x : Outcome α) : Agrees R x x := by
  cases x with
  | ok a => exact .ok (hR a)
  | error p => exact .error p p

theorem of_ok (h : ∀ a, x = .ok a → ∃ b, y = .ok b ∧ R a b) (h' : ∀ b, y = .ok b → ∃ a, x = .ok a) :
    Agrees R x y := by
  cases x with
  | ok a =>
    obtain ⟨b, rfl, hab⟩ := h a rfl
    exact .ok hab
  | error p =>
    cases y with
    | ok b => exact nomatch h' b rfl
    | error q => exact .error p q

theorem of_toOption (h : Option.Rel R x.toOption y.toOption) : Agrees R x y := by
  cases x with
  | ok a =>
    cases y with
    | ok b =>
      cases h with
      | some h => exact .ok h
    | error q => cases h
  | error p =>
    cases y with
    | ok b => cases h
    | error q => exact .error p q

theorem bind (h : Agrees R x y) {f : α → Outcome γ} {g : β → Outcome δ}
    (hfg : ∀ a b, R a b → Agrees S (f a) (g b)) : Agrees S (x >>= f) (y >>= g) := by
  cases h with
  | ok h => exact hfg _ _ h
  | error p q => exact .error p q

theorem imp {R' : α → β → Prop} (h : Agrees R x y) (hR : ∀ a b, R a b → R' a b) :
    Agrees R' x y := by
  cases h with
  | ok h => exact .ok (hR _ _ h)
  | error p q => exact .error p q

theorem inPart (h : Agrees R x y) (part : Part) (name : String) :
    Agrees R (Yaml.inPart part name x) (Yaml.inPart part name y) := by
  cases h with
  | ok h => exact .ok h
  | error p q => exact .error _ _

theorem trans {T : β → ε → Prop} {z : Outcome ε} (h : Agrees R x y) (h' : Agrees T y z) :
    Agrees (Relation.Comp R T) x z := by
  cases h with
  | ok h =>
    cases h' with
    | ok h' => exact .ok ⟨_, h, h'⟩
  | error p q =>
    cases h' with
    | error _ q' => exact .error p q'

/-- The order of a list decides which problem is reported, and the order of the results. -/
theorem each_perm {xs ys : List γ} (h : xs.Perm ys) (f : γ → Outcome α) :
    Agrees List.Perm (decodeEach f xs) (decodeEach f ys) := by
  induction h with
  | nil => exact .ok .nil
  | @cons x xs ys _ ih =>
    rw [decodeEach, decodeEach]
    generalize decodeEach f xs = r at ih ⊢
    generalize decodeEach f ys = r' at ih ⊢
    cases f x with
    | error p => exact .error p p
    | ok a =>
      cases ih with
      | ok h => exact .ok (h.cons a)
      | error p q => exact .error p q
  | swap x y xs =>
    simp only [decodeEach]
    cases f x with
    | error p => cases f y <;> exact .error _ _
    | ok a =>
      cases f y with
      | error p => exact .error _ _
      | ok b =>
        cases decodeEach f xs with
        | error p => exact .error _ _
        | ok as => exact .ok (.swap _ _ _)
  | trans _ _ ih ih' =>
    refine (ih.trans ih').imp ?_
    rintro _ _ ⟨_, h, h'⟩
    exact h.trans h'

end Agrees

/-- Both readings succeed, or both fail. -/
def OutcomeComparison.agreeing : OutcomeComparison where
  Admits _ := True
  admits _ := trivial
  Holds R x y := Agrees R x y
  ok h := .ok h
  error _ _ _ := .error _ _
  bind h hfg := h.bind hfg
  inPart part name h := h.inPart part name

/-! ## Reordered fields -/

theorem lookup_perm {xs ys : List (String × α)} (h : xs.Perm ys) (hnodup : (xs.map (·.1)).Nodup)
    (key : String) : xs.lookup key = ys.lookup key := by
  induction h with
  | nil => rfl
  | cons x _ ih =>
    rw [List.lookup_cons, List.lookup_cons, ih (List.nodup_cons.1 hnodup).2]
  | swap x y xs =>
    obtain ⟨k, a⟩ := x
    obtain ⟨l, b⟩ := y
    have hne : k ≠ l := by
      rintro rfl
      simp at hnodup
    simp only [List.lookup_cons]
    cases hk : key == k with
    | false => rfl
    | true => rw [beq_iff_eq.1 hk, beq_false_of_ne hne]
  | trans h _ ih ih' => exact (ih hnodup).trans (ih' ((h.map _).nodup_iff.1 hnodup))

/-- The same keys, each once, with reordered values. -/
structure Fields.Reordered (f f' : Fields) : Prop where
  nodup : (f.entries.map (·.1)).Nodup
  entries : ∃ mid : List (String × Node),
    List.Forall₂ (fun e e' => e.1 = e'.1 ∧ e.2.Reordered e'.2) f.entries mid ∧ mid.Perm f'.entries

namespace Fields.Reordered

variable {f f' : Fields}

theorem keys_eq {es es' : List (String × Node)}
    (h : List.Forall₂ (fun e e' => e.1 = e'.1 ∧ e.2.Reordered e'.2) es es') :
    es.map (·.1) = es'.map (·.1) := by
  rw [← List.forall₂_eq_eq_eq, List.forall₂_map_left_iff, List.forall₂_map_right_iff]
  exact h.imp fun _ _ he => he.1

theorem get? (h : f.Reordered f') (key : String) :
    Option.Rel Node.Reordered (f.get? key) (f'.get? key) := by
  obtain ⟨mid, hmid, hperm⟩ := h.entries
  rw [Fields.get?, Fields.get?, ← lookup_perm hperm (keys_eq hmid ▸ h.nodup)]
  exact TypeSource.rel_lookup hmid key

theorem single (h : f.Reordered f') :
    (∃ key v v', f.entries = [(key, v)] ∧ f'.entries = [(key, v')] ∧ v.Reordered v') ∨
      (∀ e, f.entries ≠ [e]) ∧ ∀ e, f'.entries ≠ [e] := by
  obtain ⟨mid, hmid, hperm⟩ := h.entries
  by_cases hone : ∃ e, f.entries = [e]
  · obtain ⟨⟨key, v⟩, hentries⟩ := hone
    rw [hentries] at hmid
    obtain _ | ⟨⟨rfl, hv⟩, ⟨⟩⟩ := hmid
    exact .inl ⟨_, v, _, hentries, List.perm_singleton.1 hperm.symm, hv⟩
  · refine .inr ⟨not_exists.1 hone, fun e hentries' => hone (List.length_eq_one_iff.1 ?_)⟩
    rw [hmid.length_eq, hperm.length_eq, hentries']
    rfl

end Fields.Reordered

namespace Anchors

variable {A B : Anchors} {R : Ty → Ty → Prop} {N N' : Names} {n n' : Node} {f f' : Fields}

theorem agrees_refused {R : α → α → Prop} (p q : String → Problem) :
    Agrees R (A.tagText n >>= fun tag => .error (p tag))
      (B.tagText n' >>= fun tag => .error (q tag)) := by
  cases A.tagText n <;> cases B.tagText n' <;> exact .error _ _

theorem agrees_fields (h : n.Reordered n') :
    Agrees Fields.Reordered (A.fields n) (B.fields n') := by
  cases h with
  | @mapping _ es mid es' hkeys hvalues hperm =>
    have hmid : List.Forall₂ (fun e e' => e.1 = e'.1 ∧ e.2.Reordered e'.2) (es.map Fields.entry)
        (mid.map Fields.entry) := by
      rw [List.forall₂_map_left_iff, List.forall₂_map_right_iff] at hkeys hvalues ⊢
      exact hkeys.mp (fun e e' hkey hvalue => ⟨congrArg trimSpace hkey.value_eq, hvalue⟩) hvalues
    have hperm' := hperm.map Fields.entry
    have hkeys' : ((es.map Fields.entry).map (·.1)).Perm ((es'.map Fields.entry).map (·.1)) := by
      rw [Fields.Reordered.keys_eq hmid]
      exact hperm'.map _
    refine .of_ok (fun ⟨_⟩ hf => ?_) (fun ⟨_⟩ hf' => ?_)
    · obtain ⟨_, _, ⟨⟩, rfl, hnodup⟩ := fields_eq_ok_iff.1 hf
      exact ⟨⟨es'.map Fields.entry⟩, fields_eq_ok_iff.2 ⟨_, _, rfl, rfl, hkeys'.nodup_iff.1 hnodup⟩,
        hnodup, _, hmid, hperm'⟩
    · obtain ⟨_, _, ⟨⟩, rfl, hnodup⟩ := fields_eq_ok_iff.1 hf'
      exact ⟨⟨es.map Fields.entry⟩, fields_eq_ok_iff.2 ⟨_, _, rfl, rfl, hkeys'.nodup_iff.2 hnodup⟩⟩
  | _ => exact agrees_refused _ _

theorem agrees_items (h : n.Reordered n') :
    Agrees (List.Forall₂ Node.Reordered) (A.items n) (B.items n') := by
  cases h with
  | sequence h => exact .ok h
  | _ => exact agrees_refused _ _

theorem agrees_itemsOf (key : String) (h : n.Reordered n') :
    Agrees (List.Forall₂ Node.Reordered) (itemsOf key n) (itemsOf key n') := by
  cases h with
  | sequence h => exact .ok h
  | _ => exact .error _ _

/-! ## Leaves -/

theorem agrees_source (hR : Ty.LayerClosed R) (hN : Names.Related R N N') (source : String) :
    Agrees R (decodeSource N source) (decodeSource N' source) := by
  have hsource (N : Names) : (decodeSource N source).toOption =
      (TypeSource.parse N source).toOption := by
    unfold decodeSource
    cases TypeSource.parse N source <;> rfl
  refine .of_toOption ?_
  rw [hsource, hsource]
  exact TypeSource.rel_parse hR hN source

theorem agrees_bool (hR : Ty.LayerClosed R) (h : n.Reordered n') :
    Agrees R (A.decodeBool n) (B.decodeBool n') := by
  rw [decodeBool, decodeBool, h.wanted_eq (B := B)]
  exact .refl hR.refl _

theorem agrees_number (hR : Ty.LayerClosed R) (h : n.Reordered n') :
    Agrees R (A.decodeNumber n) (B.decodeNumber n') := by
  rw [decodeNumber, decodeNumber, h.wanted_eq (B := B)]
  exact .refl hR.refl _

theorem agrees_literal (hR : Ty.LayerClosed R) (h : n.Reordered n') :
    Agrees R (A.decodeLiteral n) (B.decodeLiteral n') := by
  rw [decodeLiteral, decodeLiteral, h.tag_eq (B := B), h.text_eq]
  split
  · exact .error _ _
  · exact agrees_bool hR h
  · exact agrees_number hR h
  · exact agrees_number hR h
  · exact .ok (hR.refl _)
  · exact .error _ _

theorem agrees_scalar (hR : Ty.LayerClosed R) (hN : Names.Related R N N') (h : n.Reordered n') :
    Agrees R (A.decodeScalar N n) (B.decodeScalar N' n') := by
  rw [decodeScalar, decodeScalar, h.ownTag?_eq, h.text_eq]
  split
  · exact .ok (hR.refl _)
  · exact agrees_bool hR h
  · exact agrees_number hR h
  · exact agrees_number hR h
  · cases n'.text with
    | stray b => exact .error _ _
    | valid s =>
      have hsource := agrees_source hR hN s
      simp only [decodeSourceAt]
      generalize decodeSource N s = x at hsource ⊢
      generalize decodeSource N' s = y at hsource ⊢
      cases hsource with
      | ok ht => exact .ok ht
      | error p q => exact .error _ _

/-! ## The comparison -/

/-- Members that are alike in some order. -/
def AlikeMembers (R : Ty → Ty → Prop) (ms ms' : List Member) : Prop :=
  Multiset.Rel (Member.Alike true R) (ms : Multiset Member) (ms' : Multiset Member)

/-- Types whose layers are alike. -/
def layerwise (hR : Ty.LayerClosed R) : TypeComparison where
  Rel := R
  Members := AlikeMembers R
  refl := hR.refl
  array h := hR.layer rfl (.array h)
  tuple h := hR.layer rfl (.tuple h)
  union h := hR.layer rfl (.union (rel_of_forall₂ h))
  inter h := hR.layer rfl (.inter (rel_of_forall₂ h))
  object h := hR.layer rfl (.object h)
  interface hts hms hbs := hR.layer rfl (.interface rfl hts hms hbs)
  classType hts hms hb := hR.layer rfl (.classType rfl hts hms hb)
  function h := hR.layer rfl (.function h)
  ctor h := hR.layer rfl (.ctor h)
  param _ _ _ h := hR.layer rfl (.param rfl h)
  indexed ho hi := hR.layer rfl (.indexed ho hi)
  noMembers := .zero
  addMembers hms hms' := hms.add (rel_of_forall₂ hms')

/-- Named members are read in the order of their entries. -/
theorem agrees_named (hf : f.Reordered f') {one one' : String × Node → Outcome Member}
    (hone : ∀ raw v v', Node.Reordered v v' →
      Agrees (Member.Alike true R) (one (raw, v)) (one' (raw, v'))) :
    Agrees (AlikeMembers R) (decodeEach one f.entries) (decodeEach one' f'.entries) := by
  obtain ⟨mid, hmid, hperm⟩ := hf.entries
  have heach : Agrees (List.Forall₂ (Member.Alike true R)) (decodeEach one f.entries)
      (decodeEach one' mid) := by
    refine OutcomeComparison.agreeing.each hmid ?_
    rintro ⟨raw, v⟩ ⟨_, v'⟩ ⟨rfl, hv⟩
    exact hone raw v v' hv
  refine (heach.trans (.each_perm hperm _)).imp ?_
  rintro ms ms' ⟨ms'', hms, hperm⟩
  rw [AlikeMembers, ← Multiset.coe_eq_coe.2 hperm]
  exact rel_of_forall₂ hms

/-- Nodes with reordered entries side by side. -/
def reordering (A B : Anchors) (hR : Ty.LayerClosed R) : A.Comparison B where
  toOutcomeComparison := .agreeing
  toTypeComparison := layerwise hR
  Nodes _ n n' := n.Reordered n'
  Entries _ f f' := f.Reordered f'
  bare h := .inl h.bare_eq
  value h := h
  text h := h.value_eq
  literal h := agrees_literal hR h
  flag h := h.wanted_eq (A := A) (B := B) Scalar.toBool ▸ .refl (fun _ => rfl) _
  texts h := h.wantedTexts_eq (A := A) (B := B) ▸ .refl (fun _ => rfl) _
  items h := agrees_items h
  itemsOf key h := agrees_itemsOf key h
  fields h := agrees_fields h
  get? h key := h.get? key
  single h := h.single
  named hf hone := agrees_named hf hone
  source source hN := agrees_source hR hN source

/-! ## The recursion -/

/-- With the same number of steps reordered nodes decode to related types, or to none. -/
theorem agrees_decodeWithin (hR : Ty.LayerClosed R) (fuel : Nat) (expanding expanding' : List Nat)
    (hN : Names.Related R N N') (h : n.Reordered n') :
    Agrees R (A.decodeWithin fuel expanding N n) (B.decodeWithin fuel expanding' N' n') := by
  induction fuel generalizing N N' n n' with
  | zero => exact .error _ _
  | succ fuel ih =>
    let C := reordering A B hR
    have hask : C.Answers (A.decodeWithin fuel expanding) (B.decodeWithin fuel expanding') :=
      ⟨fun hN hn => ih hN hn, fun _ _ hn hbare => absurd hn.bare_eq hbare⟩
    cases h with
    | scalar i s => exact agrees_scalar hR hN (.scalar i s)
    | unknown i s => exact .error _ _
    | sequence hns =>
      exact C.map (C.decodeList hask hN (agrees_items (.sequence hns))) fun _ _ => C.tuple
    | mapping hkeys hvalues hperm =>
      exact C.decodeMapping hask hN rfl (agrees_fields (.mapping hkeys hvalues hperm))
    | document hcs =>
      cases hcs with
      | nil => exact .error _ _
      | cons hc _ => exact ih hN hc

/-- The order of the entries of mappings makes no difference.  Of a node without aliases and
the same node with the entries of its mappings permuted, both decode, and to equal types, or
neither does.  The comparison sees types with up to 257 layers. -/
theorem decode_reordered (D : Decls) (A B : Anchors) (N : Names) {n n' : Node}
    (h : n.Reordered n') :
    Agrees (fun t t' => D.HasHeight (maxEqualDepth + 1) t → D.equal t t' = true) (A.decode N n)
      (B.decode N n') := by
  have hR := D.layerClosed_sameUnfolding
  let fuel := max (A.decodeFuel n) (B.decodeFuel n')
  have hA : A.decode N n = A.decodeWithin fuel [] N n := by
    rw [decode, decodeWithin_eq_answer N (Nat.le_refl _),
      decodeWithin_eq_answer N (Nat.le_max_left _ _)]
  have hB : B.decode N n' = B.decodeWithin fuel [] N n' := by
    rw [decode, decodeWithin_eq_answer N (Nat.le_refl _),
      decodeWithin_eq_answer N (Nat.le_max_right _ _)]
  rw [hA, hB]
  exact (agrees_decodeWithin hR fuel [] [] (.refl hR.refl N) h).imp fun t t' ht => ht.equal

/-- The members of an object in both orders. -/
theorem decode_reordered_members :
    let a : Node × Node := (.scalar {} "a", .sequence {} [])
    let b : Node × Node := (.scalar {} "b", .sequence {} [.sequence {} []])
    let n : Node := .mapping {} [(.scalar {} "object", .mapping {} [a, b])]
    let n' : Node := .mapping {} [(.scalar {} "object", .mapping {} [b, a])]
    let x : Member := .property ⟨"a", false⟩ (.tuple []) false false
    let y : Member := .property ⟨"b", false⟩ (.tuple [.tuple []]) false false
    n.Reordered n' ∧ decode [] {} n = .ok (.object [x, y]) ∧
      decode [] {} n' = .ok (.object [y, x]) ∧
      ({} : Decls).equal (.object [x, y]) (.object [y, x]) = true := by
  intro a b n n' x y
  have hleaf : Node.Reordered (.sequence {} []) (.sequence {} []) := .sequence .nil
  have hmembers : Node.Reordered (.mapping {} [a, b]) (.mapping {} [b, a]) := by
    refine .mapping ?_ ?_ (.swap b a [])
    · exact .cons (.scalar _ _) (.cons (.scalar _ _) .nil)
    · exact .cons hleaf (.cons (.sequence (.cons hleaf .nil)) .nil)
  have hreordered : n.Reordered n' := by
    refine .mapping ?_ ?_ (.refl [((.scalar {} "object", .mapping {} [b, a]) : Node × Node)])
    · exact .cons (.scalar _ _) .nil
    · exact .cons hmembers .nil
  have hdecode : decode [] {} n = .ok (.object [x, y]) := rfl
  have hdecode' : decode [] {} n' = .ok (.object [y, x]) := rfl
  have hagrees := decode_reordered {} [] [] {} hreordered
  rw [hdecode, hdecode'] at hagrees
  cases hagrees with
  | ok hequal => exact ⟨hreordered, hdecode, hdecode', hequal (by decide)⟩

end Anchors

end StructuralTyping.Yaml
