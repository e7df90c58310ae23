import Mathlib.Data.Fintype.Card
import Mathlib.Data.Fintype.EquivFin
import Mathlib.Logic.Relation
import StructuralTyping.Yaml.Decode

/-!
# Expanded documents

An alias stands for its target.  In the expansion of a node every alias at the place of a
value is replaced by a copy of what it leads to, and the copy is expanded in turn
(`Anchors.Expands`).  Keys are left as they are.

A node has an expansion if every alias has a target and no target leads back to itself
(`Anchors.Acyclic.exists_expands`).  The induction is on the targets, which are finitely
many, and inside a target on the node.
-/

namespace StructuralTyping.Yaml

/-! ## Expansions -/

/-- The node is an alias. -/
def Node.isAlias : Node → Bool
  | .alias _ _ _ => true
  | _ => false

namespace Anchors

variable {A : Anchors}

/-- Aliases lead from a node to another one. -/
inductive LeadsTo (A : Anchors) : Node → Node → Prop where
  | refl (n : Node) : LeadsTo A n n
  | step {i : Info} {s : String} {t : Nat} {m n : Node} (htarget : A[t]? = some m)
      (h : LeadsTo A m n) : LeadsTo A (.alias i s (some t)) n

/-- The node with every alias replaced by what it leads to. -/
inductive Expands (A : Anchors) : Node → Node → Prop where
  | scalar {n : Node} {i : Info} {s : ByteText} (h : A.LeadsTo n (.scalar i s)) :
      Expands A n (.scalar i s)
  | unknown {n : Node} {i : Info} {s : String} (h : A.LeadsTo n (.unknown i s)) :
      Expands A n (.unknown i s)
  | document {n : Node} {i : Info} {cs cs' : List Node} (h : A.LeadsTo n (.document i cs))
      (hcs : List.Forall₂ (Expands A) cs cs') : Expands A n (.document i cs')
  | sequence {n : Node} {i : Info} {ns ns' : List Node} (h : A.LeadsTo n (.sequence i ns))
      (hns : List.Forall₂ (Expands A) ns ns') : Expands A n (.sequence i ns')
  | mapping {n : Node} {i : Info} {es es' : List (Node × Node)} (h : A.LeadsTo n (.mapping i es))
      (hkeys : es.map (·.1) = es'.map (·.1))
      (hvalues : List.Forall₂ (Expands A) (es.map (·.2)) (es'.map (·.2))) :
      Expands A n (.mapping i es')

/-- The expansion of an alias is that of its target. -/
theorem Expands.of_target {i : Info} {s : String} {t : Nat} {m n : Node} (htarget : A[t]? = some m)
    (h : A.Expands m n) : A.Expands (.alias i s (some t)) n := by
  cases h with
  | scalar h => exact .scalar (.step htarget h)
  | unknown h => exact .unknown (.step htarget h)
  | document h hcs => exact .document (.step htarget h) hcs
  | sequence h hns => exact .sequence (.step htarget h) hns
  | mapping h hkeys hvalues => exact .mapping (.step htarget h) hkeys hvalues

theorem Expands.target {i : Info} {s : String} {t : Nat} {m n : Node} (htarget : A[t]? = some m)
    (h : A.Expands (.alias i s (some t)) n) : A.Expands m n := by
  have hlead {x : Node} (hlead : A.LeadsTo (.alias i s (some t)) x) (hx : x.isAlias = false) :
      A.LeadsTo m x := by
    cases hlead with
    | refl => cases hx
    | step h' hlead =>
      obtain rfl := Option.some.inj (htarget.symm.trans h')
      exact hlead
  cases h with
  | scalar h => exact .scalar (hlead h rfl)
  | unknown h => exact .unknown (hlead h rfl)
  | document h hcs => exact .document (hlead h rfl) hcs
  | sequence h hns => exact .sequence (hlead h rfl) hns
  | mapping h hkeys hvalues => exact .mapping (hlead h rfl) hkeys hvalues

end Anchors

/-! ## Targets -/

namespace Node

mutual

/-- The targets of the aliases in a node, keys apart. -/
def targets : Node → List (Option Nat)
  | .document _ cs => targetsOf cs
  | .sequence _ ns => targetsOf ns
  | .mapping _ es => entryTargetsOf es
  | .alias _ _ t => [t]
  | .scalar _ _ | .unknown _ _ => []
termination_by structural n => n

/-- The targets of the aliases in a list. -/
def targetsOf : List Node → List (Option Nat)
  | [] => []
  | n :: ns => n.targets ++ targetsOf ns
termination_by structural ns => ns

/-- The targets of the aliases in the values of entries. -/
def entryTargetsOf : List (Node × Node) → List (Option Nat)
  | [] => []
  | e :: es => entryTargets e ++ entryTargetsOf es
termination_by structural es => es

/-- The targets of the aliases in the value of an entry. -/
def entryTargets : Node × Node → List (Option Nat)
  | (_, v) => v.targets
termination_by structural e => e

end

end Node

namespace Anchors

variable {A : Anchors}

/-- A target holds an alias of another one. -/
def Refers (A : Anchors) (t u : Nat) : Prop := ∃ n, A[t]? = some n ∧ some u ∈ n.targets

/-- Every alias has a target, and no target leads back to itself. -/
structure Acyclic (A : Anchors) (root : Node) : Prop where
  linked : ∀ n ∈ root :: A, ∀ t ∈ n.targets, ∃ u < A.length, t = some u
  acyclic : ∀ t, ¬ Relation.TransGen A.Refers t t

mutual

/-- A node has an expansion if the targets of its aliases have. -/
theorem exists_expands_of_targets : ∀ n : Node,
    (∀ t ∈ n.targets, ∃ u m n', t = some u ∧ A[u]? = some m ∧ A.Expands m n') → ∃ n', A.Expands n n'
  | .scalar _ _, _ => ⟨_, .scalar (.refl _)⟩
  | .unknown _ _, _ => ⟨_, .unknown (.refl _)⟩
  | .alias _ _ t, h => by
    obtain ⟨u, m, n', rfl, htarget, hm⟩ := h t (.head _)
    exact ⟨n', .of_target htarget hm⟩
  | .document _ cs, h => by
    obtain ⟨cs', hcs⟩ := exists_expandsAll_of_targets cs h
    exact ⟨_, .document (.refl _) hcs⟩
  | .sequence _ ns, h => by
    obtain ⟨ns', hns⟩ := exists_expandsAll_of_targets ns h
    exact ⟨_, .sequence (.refl _) hns⟩
  | .mapping _ es, h => by
    obtain ⟨es', hkeys, hvalues⟩ := exists_expandsEntries_of_targets es h
    exact ⟨_, .mapping (.refl _) hkeys hvalues⟩
termination_by structural n => n

theorem exists_expandsAll_of_targets : ∀ ns : List Node,
    (∀ t ∈ Node.targetsOf ns, ∃ u m n', t = some u ∧ A[u]? = some m ∧ A.Expands m n') →
      ∃ ns', List.Forall₂ A.Expands ns ns'
  | [], _ => ⟨[], .nil⟩
  | n :: ns, h => by
    obtain ⟨n', hn⟩ := exists_expands_of_targets n fun t ht => h t (List.mem_append_left _ ht)
    obtain ⟨ns', hns⟩ :=
      exists_expandsAll_of_targets ns fun t ht => h t (List.mem_append_right _ ht)
    exact ⟨n' :: ns', .cons hn hns⟩
termination_by structural ns => ns

theorem exists_expandsEntries_of_targets : ∀ es : List (Node × Node),
    (∀ t ∈ Node.entryTargetsOf es, ∃ u m n', t = some u ∧ A[u]? = some m ∧ A.Expands m n') →
      ∃ es' : List (Node × Node), es.map (·.1) = es'.map (·.1) ∧
        List.Forall₂ A.Expands (es.map (·.2)) (es'.map (·.2))
  | [], _ => ⟨[], rfl, .nil⟩
  | e :: es, h => by
    obtain ⟨v', hv⟩ := exists_expandsEntry_of_targets e fun t ht => h t (List.mem_append_left _ ht)
    obtain ⟨es', hkeys, hvalues⟩ :=
      exists_expandsEntries_of_targets es fun t ht => h t (List.mem_append_right _ ht)
    exact ⟨(e.1, v') :: es', by simp [hkeys], .cons hv hvalues⟩
termination_by structural es => es

theorem exists_expandsEntry_of_targets : ∀ e : Node × Node,
    (∀ t ∈ Node.entryTargets e, ∃ u m n', t = some u ∧ A[u]? = some m ∧ A.Expands m n') →
      ∃ v', A.Expands e.2 v'
  | (_, v), h => exists_expands_of_targets v h
termination_by structural e => e

end

/-- Without cycles the reference relation can be followed only finitely often. -/
theorem Acyclic.wellFounded {root : Node} (h : A.Acyclic root) :
    WellFounded fun u t : Fin A.length => A.Refers t u := by
  let below : Fin A.length → Fin A.length → Prop := Relation.TransGen fun u t => A.Refers t u
  have hirrefl : Std.Irrefl below := by
    refine ⟨fun t ht => h.acyclic t ?_⟩
    rw [← Relation.transGen_swap]
    exact ht.lift Fin.val fun _ _ h => h
  have hwf : WellFounded below := Finite.wellFounded_of_trans_of_irrefl below
  exact Subrelation.wf (fun h => .single h) hwf

/-- A node whose aliases are acyclic has an expansion. -/
theorem Acyclic.exists_expands {root : Node} (h : A.Acyclic root) : ∃ n, A.Expands root n := by
  have htargets (t : Fin A.length) : ∃ m n', A[(t : Nat)]? = some m ∧ A.Expands m n' := by
    induction t using h.wellFounded.induction with
    | _ t ih =>
      obtain ⟨m, hm⟩ : ∃ m, A[(t : Nat)]? = some m := ⟨_, List.getElem?_eq_getElem t.2⟩
      obtain ⟨n', hn'⟩ := exists_expands_of_targets m fun u hu => by
        obtain ⟨u, hlt, rfl⟩ := h.linked m (.tail _ (List.mem_of_getElem? hm)) u hu
        obtain ⟨m', n', hm', hn'⟩ := ih ⟨u, hlt⟩ ⟨m, hm, hu⟩
        exact ⟨u, m', n', rfl, hm', hn'⟩
      exact ⟨m, n', hm, hn'⟩
  refine exists_expands_of_targets root fun t ht => ?_
  obtain ⟨u, hlt, rfl⟩ := h.linked root (.head _) t ht
  obtain ⟨m, n', hm, hn'⟩ := htargets ⟨u, hlt⟩
  exact ⟨u, m, n', rfl, hm, hn'⟩

end Anchors

/-! ## What an expansion keeps -/

namespace Node

/-- The node without its parts. -/
def bare : Node → Node
  | .document i _ => .document i []
  | .sequence i _ => .sequence i []
  | .mapping i _ => .mapping i []
  | n => n

@[simp] theorem text_bare (n : Node) : n.bare.text = n.text := by cases n <;> rfl

@[simp] theorem ownTag?_bare (n : Node) : n.bare.ownTag? = n.ownTag? := by cases n <;> rfl

@[simp] theorem isNullScalar_bare (n : Node) : n.bare.isNullScalar = n.isNullScalar := by
    cases n <;> rfl

@[simp] theorem wantedScalar_bare (g : Scalar → Wanted α) (n : Node) :
    Anchors.wantedScalar g n.bare = Anchors.wantedScalar g n := by cases n <;> rfl

end Node

namespace Anchors

variable {A B : Anchors} {n n' : Node}

theorem Expands.scalar_inv {i : Info} {s : ByteText} (h : A.Expands (.scalar i s) n) :
    n = .scalar i s := by
  cases h with
  | scalar h =>
    cases h
    rfl
  | unknown h | document h | sequence h | mapping h => cases h

theorem Expands.unknown_inv {i : Info} {s : String} (h : A.Expands (.unknown i s) n) :
    n = .unknown i s := by
  cases h with
  | unknown h =>
    cases h
    rfl
  | scalar h | document h | sequence h | mapping h => cases h

theorem Expands.document_inv {i : Info} {cs : List Node} (h : A.Expands (.document i cs) n) :
    ∃ cs', n = .document i cs' ∧ List.Forall₂ A.Expands cs cs' := by
  cases h with
  | document h hcs =>
    cases h
    exact ⟨_, rfl, hcs⟩
  | scalar h | unknown h | sequence h | mapping h => cases h

theorem Expands.sequence_inv {i : Info} {ns : List Node} (h : A.Expands (.sequence i ns) n) :
    ∃ ns', n = .sequence i ns' ∧ List.Forall₂ A.Expands ns ns' := by
  cases h with
  | sequence h hns =>
    cases h
    exact ⟨_, rfl, hns⟩
  | scalar h | unknown h | document h | mapping h => cases h

theorem Expands.mapping_inv {i : Info} {es : List (Node × Node)} (h : A.Expands (.mapping i es) n) :
    ∃ es' : List (Node × Node), n = .mapping i es' ∧ es.map (·.1) = es'.map (·.1) ∧
      List.Forall₂ A.Expands (es.map (·.2)) (es'.map (·.2)) := by
  cases h with
  | mapping h hkeys hvalues =>
    cases h
    exact ⟨_, rfl, hkeys, hvalues⟩
  | scalar h | unknown h | document h | sequence h => cases h

theorem LeadsTo.eq_of_isAlias (h : A.LeadsTo n n') (hn : n.isAlias = false) : n = n' := by
  cases h with
  | refl => rfl
  | step => cases hn

theorem Expands.leadsTo (h : A.Expands n n') :
    ∃ x, A.LeadsTo n x ∧ A.Expands x n' ∧ x.isAlias = false := by
  cases h with
  | scalar h => exact ⟨_, h, .scalar (.refl _), rfl⟩
  | unknown h => exact ⟨_, h, .unknown (.refl _), rfl⟩
  | document h hcs => exact ⟨_, h, .document (.refl _) hcs, rfl⟩
  | sequence h hns => exact ⟨_, h, .sequence (.refl _) hns, rfl⟩
  | mapping h hkeys hvalues => exact ⟨_, h, .mapping (.refl _) hkeys hvalues, rfl⟩

theorem Expands.exists_target {i : Info} {s : String} {t : Option Nat}
    (h : A.Expands (.alias i s t) n) : ∃ u m, t = some u ∧ A[u]? = some m := by
  obtain ⟨x, hlead, -, hx⟩ := h.leadsTo
  cases hlead with
  | refl => cases hx
  | step htarget => exact ⟨_, _, rfl, htarget⟩

theorem Expands.isAlias_eq_false (h : A.Expands n n') : n'.isAlias = false := by cases h <;> rfl

/-- Expansion changes only aliases and the parts of a node. -/
theorem Expands.bare_eq (h : A.Expands n n') (hn : n.isAlias = false) : n.bare = n'.bare := by
  cases n with
  | scalar => rw [h.scalar_inv]
  | unknown => rw [h.unknown_inv]
  | document =>
    obtain ⟨_, rfl, _⟩ := h.document_inv
    rfl
  | sequence =>
    obtain ⟨_, rfl, _⟩ := h.sequence_inv
    rfl
  | mapping =>
    obtain ⟨_, rfl, _⟩ := h.mapping_inv
    rfl
  | «alias» => cases hn

theorem Expands.text_eq (h : A.Expands n n') (hn : n.isAlias = false) : n.text = n'.text := by
  rw [← Node.text_bare, h.bare_eq hn, Node.text_bare]

theorem Expands.ownTag?_eq (h : A.Expands n n') (hn : n.isAlias = false) :
    n.ownTag? = n'.ownTag? := by
  rw [← Node.ownTag?_bare, h.bare_eq hn, Node.ownTag?_bare]

theorem Expands.isNullScalar_eq (h : A.Expands n n') (hn : n.isAlias = false) :
    n.isNullScalar = n'.isNullScalar := by
  rw [← Node.isNullScalar_bare, h.bare_eq hn, Node.isNullScalar_bare]

theorem follow?_of_isAlias (h : n.isAlias = false) : A.follow? n = some n := by
  cases n with
  | «alias» => cases h
  | _ => rfl

/-- What is behind a chain of aliases has the same expansion. -/
theorem Expands.followWithin? {fuel : Nat} {m : Node} (h : A.Expands n n')
    (hfollow : A.followWithin? fuel n = some m) : A.Expands m n' ∧ m.isAlias = false := by
  induction fuel generalizing n with
  | zero =>
    cases n with
    | «alias» => cases hfollow
    | _ =>
      cases hfollow
      exact ⟨h, rfl⟩
  | succ fuel ih =>
    cases n with
    | «alias» i s t =>
      rw [Anchors.followWithin?, Option.bind_eq_some_iff] at hfollow
      obtain ⟨x, htarget, hfollow⟩ := hfollow
      obtain ⟨t, rfl, htarget⟩ := Option.bind_eq_some_iff.1 htarget
      exact ih (h.target htarget) hfollow
    | _ =>
      cases hfollow
      exact ⟨h, rfl⟩

theorem Expands.wanted (g : Scalar → Wanted α) (h : A.Expands n n') :
    A.wanted g n = .failed ∨ A.wanted g n = B.wanted g n' := by
  rw [Anchors.wanted, Anchors.wanted, follow?_of_isAlias h.isAlias_eq_false]
  cases hfollow : A.follow? n with
  | none => exact .inl rfl
  | some m =>
    obtain ⟨hm, hne⟩ := h.followWithin? hfollow
    refine .inr ?_
    dsimp only
    rw [← Node.wantedScalar_bare, hm.bare_eq hne, Node.wantedScalar_bare]

theorem Expands.wantedText (h : A.Expands n n') :
    A.wantedText n = .failed ∨ A.wantedText n = B.wantedText n' := by
  rw [Anchors.wantedText, Anchors.wantedText, follow?_of_isAlias h.isAlias_eq_false]
  cases hfollow : A.follow? n with
  | none => exact .inl rfl
  | some m =>
    obtain ⟨hm, hne⟩ := h.followWithin? hfollow
    cases m with
    | scalar =>
      rw [hm.scalar_inv]
      exact .inr rfl
    | unknown =>
      rw [hm.unknown_inv]
      exact .inr rfl
    | «alias» => cases hne
    | _ => exact .inl rfl

theorem textsOf?_expands {ns ns' : List Node} (h : List.Forall₂ A.Expands ns ns') :
    A.textsOf? ns = none ∨ A.textsOf? ns = B.textsOf? ns' := by
  induction h with
  | nil => exact .inr rfl
  | cons hn _ ih =>
    rw [textsOf?, textsOf?]
    rcases hn.wantedText (B := B) with hfailed | heq
    · rw [hfailed]
      exact .inl rfl
    · rw [heq]
      cases B.wantedText _ with
      | found s =>
        rcases ih with hnone | heq
        · exact .inl (by rw [hnone]; rfl)
        · exact .inr (by rw [heq])
      | unset => exact ih
      | failed => exact .inl rfl

theorem Expands.wantedTexts (h : A.Expands n n') :
    A.wantedTexts n = .failed ∨ A.wantedTexts n = B.wantedTexts n' := by
  rw [Anchors.wantedTexts, Anchors.wantedTexts, follow?_of_isAlias h.isAlias_eq_false]
  cases hfollow : A.follow? n with
  | none => exact .inl rfl
  | some m =>
    obtain ⟨hm, hne⟩ := h.followWithin? hfollow
    cases m with
    | sequence i ns =>
      obtain ⟨ns', rfl, hns⟩ := hm.sequence_inv
      rcases textsOf?_expands (B := B) hns with hnone | heq
      · exact .inl (by simp only [hnone])
      · exact .inr (by simp only [heq])
    | scalar =>
      rw [hm.scalar_inv]
      exact .inr rfl
    | unknown =>
      rw [hm.unknown_inv]
      exact .inr rfl
    | «alias» => cases hne
    | _ => exact .inl rfl

end Anchors

end StructuralTyping.Yaml
