import StructuralTyping.Proofs.Assign.Acyclic
import StructuralTyping.Proofs.Equal.Erase

/-!
# Assignability respects equality

Equality does not look at the order of branches and members, nor at which types
are declared and which are written out.  The rules look at both.  A member of a
target asks about the first candidate of its key, so the order of candidates
could matter.  It does not, if no shape lists a key twice among its own members.
What is inherited comes in the order of the bases, which equality keeps.

`Decls.Interchangeable` are acyclic types that unfold alike.  With `keys` on, they
also list their keys once, which is only needed of sources.  Each rule that applies
to types applies to interchangeable ones as well, with interchangeable questions
(`Decls.Follows.respect`).  So the answer is the same after every number of steps.
-/

namespace StructuralTyping

/-! ## Lists that are paired -/

section Pairing

variable {α β : Type*} {R : α → β → Prop} {as : List α} {bs : List β}
  (h : Multiset.Rel R (as : Multiset α) (bs : Multiset β))
include h

theorem exists_of_rel_left {a : α} (ha : a ∈ as) : ∃ b ∈ bs, R a b :=
  Multiset.exists_mem_of_rel_of_mem h (Multiset.mem_coe.2 ha)

theorem exists_of_rel_right {b : β} (hb : b ∈ bs) : ∃ a ∈ as, R a b :=
  Multiset.exists_mem_of_rel_of_mem (Multiset.rel_flip.2 h) (Multiset.mem_coe.2 hb)

end Pairing

/-! ## Layers that are alike pass the same tests

The tests of the rules look at the constructor of a layer, its keyword and the kind
of its literal, and not at its parts. -/

theorem Literal.keyword_eq_of_sameValue :
    ∀ {a b : Literal}, a.sameValue b = true → a.keyword = b.keyword
  | .bool _, .bool _, _ | .number _, .number _, _ | .string _, .string _, _ => rfl

theorem Signature.Alike.typeParams_eq_nil_iff {names : Bool} {R : Ty → Ty → Prop} {s t : Signature}
    (h : s.Alike names R t) : s.typeParams = [] ↔ t.typeParams = [] := by
  cases h with
  | absent => rfl
  | mk htypeParams => cases htypeParams <;> simp [Signature.typeParams]

namespace Ty.Alike

variable {names : Bool} {R : Ty → Ty → Prop} {a b c d : Ty}

theorem isTop_eq (h : a.Alike names R b) : a.isTop = b.isTop := by
  cases h with
  | raw ha hb => cases a <;> cases ha <;> cases b <;> cases hb <;> rfl
  | _ => rfl

theorem isCompared_eq (h : a.Alike names R b) : a.isCompared = b.isCompared := by
  cases h with
  | raw ha hb => cases a <;> cases ha <;> cases b <;> cases hb <;> rfl
  | _ => rfl

theorem isMemberless_eq (h : a.Alike names R b) : a.isMemberless = b.isMemberless := by
  cases h with
  | raw ha hb => cases a <;> cases ha <;> cases b <;> cases hb <;> rfl
  | _ => rfl

theorem objectAccepts_eq (h : a.Alike names R b) :
    Decls.objectAccepts a = Decls.objectAccepts b := by
  cases h with
  | raw ha hb => cases a <;> cases ha <;> cases b <;> cases hb <;> rfl
  | _ => rfl

theorem ne_this (h : a.Alike names R b) (ha : a ≠ .this) : b ≠ .this := by
  rintro rfl
  cases h with
  | this => exact ha rfl
  | raw _ hb => cases hb

theorem keywordAccepts_eq (h : a.Alike names R b) (k : Keyword) :
    Decls.keywordAccepts k a = Decls.keywordAccepts k b := by
  have hobject := h.objectAccepts_eq
  cases h with
  | keyword l => rfl
  | literal hvalue =>
    cases k <;> simp [Decls.keywordAccepts, Literal.keyword_eq_of_sameValue hvalue, hobject]
  | raw ha hb => cases a <;> cases ha <;> cases b <;> cases hb <;> cases k <;> rfl
  | _ => cases k <;> rfl

theorem ownMembers? (h : a.Alike names R b) :
    Option.Rel (fun ms ns : List Member =>
      Multiset.Rel (Member.Alike names R) (ms : Multiset Member) (ns : Multiset Member))
      a.ownMembers? b.ownMembers? := by
  cases h with
  | object hmembers => exact .some hmembers
  | interface _ _ hmembers _ => exact .some hmembers
  | classType _ _ hmembers _ => exact .some hmembers
  | raw ha hb => cases a <;> cases ha <;> cases b <;> cases hb <;> exact .none
  | _ => exact .none

theorem bases (hR : ∀ x y, R x y → x.isMissing = y.isMissing) (h : a.Alike names R b) :
    List.Forall₂ R a.bases b.bases := by
  cases h with
  | interface _ _ _ hbases => exact hbases
  | @classType _ _ _ _ _ _ s t _ _ _ hbase =>
    have hmissing := hR s t hbase
    cases hs : s.isMissing <;> simp [Ty.bases, ← hmissing, hs, hbase]
  | raw ha hb => cases a <;> cases ha <;> cases b <;> cases hb <;> exact .nil
  | _ => exact .nil

theorem leavesOpen_eq {S : Ty → Ty → Prop} (h : a.Alike names R b) (h' : c.Alike names S d) :
    a.leavesOpen c = b.leavesOpen d := by
  have hown : c.ownMembers?.isNone = d.ownMembers?.isNone := by
    have hmembers := h'.ownMembers?
    generalize c.ownMembers? = ms, d.ownMembers? = ns at hmembers ⊢
    cases hmembers <;> rfl
  have hshape : (!c.isMemberless && c.ownMembers?.isNone) =
      (!d.isMemberless && d.ownMembers?.isNone) := by
    rw [h'.isMemberless_eq, hown]
  cases h with
  | object | interface | classType => exact hshape
  | function hsignature | ctor hsignature =>
    rw [Bool.eq_iff_iff]
    simp [Ty.leavesOpen, hsignature.typeParams_eq_nil_iff]
  | raw ha hb => cases a <;> cases ha <;> cases b <;> cases hb <;> rfl
  | _ => rfl

/-! ## What is alike to a given layer -/

theorem exists_array (h : (Ty.array a).Alike names R b) : ∃ b', b = .array b' ∧ R a b' := by
  cases h with
  | array h => exact ⟨_, rfl, h⟩
  | raw hraw => cases hraw

theorem exists_tuple {as : List Ty} (h : (Ty.tuple as).Alike names R b) :
    ∃ bs, b = .tuple bs ∧ List.Forall₂ R as bs := by
  cases h with
  | tuple h => exact ⟨_, rfl, h⟩
  | raw hraw => cases hraw

theorem exists_union {as : List Ty} (h : (Ty.union as).Alike names R b) :
    ∃ bs : List Ty, b = .union bs ∧ Multiset.Rel R (as : Multiset Ty) (bs : Multiset Ty) := by
  cases h with
  | union h => exact ⟨_, rfl, h⟩
  | raw hraw => cases hraw

theorem exists_inter {as : List Ty} (h : (Ty.inter as).Alike names R b) :
    ∃ bs : List Ty, b = .inter bs ∧ Multiset.Rel R (as : Multiset Ty) (bs : Multiset Ty) := by
  cases h with
  | inter h => exact ⟨_, rfl, h⟩
  | raw hraw => cases hraw

theorem eq_keyword {k : Keyword} (h : (Ty.keyword k).Alike names R b) : b = .keyword k := by
  cases h with
  | keyword => rfl
  | raw hraw => cases hraw

theorem eq_emptyObject (h : (Ty.object []).Alike names R b) : b = .object [] := by
  cases h with
  | object h => rw [(Multiset.coe_eq_zero _).1 (Multiset.rel_zero_left.1 h)]
  | raw hraw => cases hraw

theorem exists_enum {name : String} {members : List String} {isConst : Bool}
    (h : (Ty.enum name members isConst).Alike true R b) :
    ∃ members', b = .enum name members' isConst := by
  cases h with
  | enum hname => exact ⟨_, congrArg (Ty.enum · _ _) hname.symm⟩
  | raw hraw => cases hraw

theorem exists_variant {name member : String} (h : (Ty.variant name member).Alike true R b) :
    ∃ member', b = .variant name member' := by
  cases h with
  | variant hname => exact ⟨_, congrArg (Ty.variant · _) hname.symm⟩
  | raw hraw => cases hraw

theorem exists_param {name : String} (h : (Ty.param name a).Alike true R b) :
    ∃ b', b = .param name b' ∧ R a b' := by
  cases h with
  | param hname h => exact ⟨_, congrArg (Ty.param · _) hname.symm, h⟩
  | raw hraw => cases hraw

theorem exists_function {f : Signature} (h : (Ty.function f).Alike names R b) :
    ∃ g, b = .function g ∧ f.Alike names R g := by
  cases h with
  | function h => exact ⟨_, rfl, h⟩
  | raw hraw => cases hraw

theorem exists_ctor {f : Signature} (h : (Ty.ctor f).Alike names R b) :
    ∃ g, b = .ctor g ∧ f.Alike names R g := by
  cases h with
  | ctor h => exact ⟨_, rfl, h⟩
  | raw hraw => cases hraw

end Ty.Alike

theorem Signature.Alike.result {names : Bool} {R : Ty → Ty → Prop} (hmissing : R .missing .missing)
    {s t : Signature} (h : s.Alike names R t) : R s.result t.result := by
  cases h with
  | absent => exact hmissing
  | mk _ _ hresult => exact hresult

theorem Member.Alike.key?_eq {R : Ty → Ty → Prop} {m n : Member} (h : m.Alike true R n) :
    m.key? = n.key? := by
  cases h with
  | property hkey | method hkey => exact congrArg some hkey
  | _ => rfl

theorem Member.Alike.isOptional_eq {names : Bool} {R : Ty → Ty → Prop} {m n : Member}
    (h : m.Alike names R n) : m.isOptional = n.isOptional := by
  cases h <;> rfl

/-! ## Members that are alike -/

/-- Keys that are listed once have at most one candidate. -/
theorem length_findMembers_le {ms : List Member} (h : (ms.filterMap (·.key?)).Nodup)
    (key : PropKey) : (findMembers ms key).length ≤ 1 := by
  have hdistinct : (findMembers ms key).Pairwise fun _ _ => False := by
    have hpair :=
      (List.pairwise_filterMap.1 h).sublist (List.filter_sublist (p := (·.key? == some key)))
    refine hpair.imp_of_mem fun {m n} hm hn hne => ?_
    exact hne key (mem_findMembers.1 hm).2 key (mem_findMembers.1 hn).2 rfl
  match hms : findMembers ms key with
  | [] | [_] => simp
  | m :: n :: _ =>
    rw [hms] at hdistinct
    exact ((List.pairwise_cons.1 hdistinct).1 n (.head _)).elim

/-- Members that are alike up to their order, and with `keys` on in order among those
of one key. -/
structure MembersAlike (keys : Bool) (R : Ty → Ty → Prop) (ms ns : List Member) : Prop where
  left : ∀ m ∈ ms, ∃ n ∈ ns, m.Alike true R n
  right : ∀ n ∈ ns, ∃ m ∈ ms, m.Alike true R n
  named : keys = true → ∀ key,
    List.Forall₂ (Member.Alike true R) (findMembers ms key) (findMembers ns key)

namespace MembersAlike

variable {keys : Bool} {R : Ty → Ty → Prop} {ms ns ms' ns' : List Member}

theorem nil : MembersAlike keys R [] [] where
  left := by simp
  right := by simp
  named _ _ := .nil

theorem append (h : MembersAlike keys R ms ns) (h' : MembersAlike keys R ms' ns') :
    MembersAlike keys R (ms ++ ms') (ns ++ ns') where
  left m hm := by
    rcases List.mem_append.1 hm with hm | hm
    · obtain ⟨n, hn, hmn⟩ := h.left m hm
      exact ⟨n, List.mem_append_left _ hn, hmn⟩
    · obtain ⟨n, hn, hmn⟩ := h'.left m hm
      exact ⟨n, List.mem_append_right _ hn, hmn⟩
  right n hn := by
    rcases List.mem_append.1 hn with hn | hn
    · obtain ⟨m, hm, hmn⟩ := h.right n hn
      exact ⟨m, List.mem_append_left _ hm, hmn⟩
    · obtain ⟨m, hm, hmn⟩ := h'.right n hn
      exact ⟨m, List.mem_append_right _ hm, hmn⟩
  named hkeys key := by
    simp only [findMembers, List.filter_append]
    exact List.rel_append (h.named hkeys key) (h'.named hkeys key)

/-- Members that are paired in any way are in order among those of one key, if keys
are listed once. -/
theorem of_rel (hms : keys = true → (ms.filterMap (·.key?)).Nodup)
    (hns : keys = true → (ns.filterMap (·.key?)).Nodup)
    (h : Multiset.Rel (Member.Alike true R) (ms : Multiset Member) (ns : Multiset Member)) :
    MembersAlike keys R ms ns := by
  have hleft : ∀ m ∈ ms, ∃ n ∈ ns, m.Alike true R n := fun m hm => exists_of_rel_left h hm
  have hright : ∀ n ∈ ns, ∃ m ∈ ms, m.Alike true R n := fun n hn => exists_of_rel_right h hn
  refine ⟨hleft, hright, fun hkeys key => ?_⟩
  have hm := length_findMembers_le (hms hkeys) key
  have hn := length_findMembers_le (hns hkeys) key
  have hto : ∀ m ∈ findMembers ms key, ∃ n ∈ findMembers ns key, m.Alike true R n := by
    intro m hm
    obtain ⟨hmem, hkey⟩ := mem_findMembers.1 hm
    obtain ⟨n, hn, hmn⟩ := hleft m hmem
    exact ⟨n, mem_findMembers.2 ⟨hn, hmn.key?_eq ▸ hkey⟩, hmn⟩
  have hfrom : ∀ n ∈ findMembers ns key, ∃ m ∈ findMembers ms key, m.Alike true R n := by
    intro n hn
    obtain ⟨hmem, hkey⟩ := mem_findMembers.1 hn
    obtain ⟨m, hm, hmn⟩ := hright n hmem
    exact ⟨m, mem_findMembers.2 ⟨hm, hmn.key?_eq ▸ hkey⟩, hmn⟩
  generalize findMembers ms key = found, findMembers ns key = found' at *
  match found, found', hm, hn with
  | [], [], _, _ => exact .nil
  | [], _ :: _, _, _ => simpa using hfrom _ (.head _)
  | _ :: _, [], _, _ => simpa using hto _ (.head _)
  | [m], [n], _, _ => exact .cons (by simpa using hto m (.head _)) .nil

theorem flatMap {S : Ty → Ty → Prop} {f : Ty → List Member} {as bs : List Ty}
    (hf : ∀ a b, S a b → MembersAlike keys R (f a) (f b)) (h : List.Forall₂ S as bs) :
    MembersAlike keys R (as.flatMap f) (bs.flatMap f) := by
  induction h with
  | nil => exact .nil
  | cons hab _ ih => exact (hf _ _ hab).append ih

end MembersAlike

namespace Decls

variable {D : Decls}

/-! ## Interchangeable types -/

/-- No shape that is reached lists a key twice among its own members. -/
def DistinctKeys (D : Decls) (t : Ty) : Prop :=
  ∀ u, D.Reaches t u → ∀ own, (D.head u).ownMembers? = some own → (own.filterMap (·.key?)).Nodup

theorem DistinctKeys.of_reaches {t x : Ty} (h : D.DistinctKeys t) (hx : D.Reaches t x) :
    D.DistinctKeys x := fun u hu => h u (hx.trans hu)

theorem DistinctKeys.part {t x : Ty} (h : D.DistinctKeys t) (hx : x ∈ (D.head t).parts) :
    D.DistinctKeys x := h.of_reaches (.single hx)

theorem distinctKeys_of_parts {t : Ty}
    (hown : ∀ own, (D.head t).ownMembers? = some own → (own.filterMap (·.key?)).Nodup)
    (hparts : ∀ x ∈ (D.head t).parts, D.DistinctKeys x) : D.DistinctKeys t := by
  intro u hu
  rcases Relation.ReflTransGen.cases_head hu with rfl | ⟨x, hx, hu⟩
  · exact hown
  · exact hparts x hx u hu

theorem distinctKeys_missing : D.DistinctKeys .missing :=
  distinctKeys_of_parts (by simp [head, Ty.ownMembers?]) (by simp [head, Ty.parts])

/-- An acyclic type of a height.  With `keys` on, its shapes list their keys once. -/
structure IsPlain (D : Decls) (keys : Bool) (n : Nat) (t : Ty) : Prop where
  height : D.HasHeight n t
  distinct : keys = true → D.DistinctKeys t

namespace IsPlain

variable {keys : Bool} {m n : Nat} {t x : Ty}

theorem mono (h : D.IsPlain keys m t) (hmn : m ≤ n) : D.IsPlain keys n t :=
  ⟨h.height.mono hmn, h.distinct⟩

theorem part (h : D.IsPlain keys (n + 1) t) (hx : x ∈ (D.head t).parts) : D.IsPlain keys n x :=
  ⟨h.height.part hx, fun hkeys => (h.distinct hkeys).part hx⟩

theorem of_parts (hdeclared : (D.head t).isMissing = false) (hlayer : (D.head t).isNamed = false)
    (hown : (D.head t).ownMembers? = none) (hparts : ∀ x ∈ (D.head t).parts, D.IsPlain keys n x) :
    D.IsPlain keys (n + 1) t where
  height := .layer hdeclared hlayer fun x hx => (hparts x hx).height
  distinct hkeys := distinctKeys_of_parts (by simp [hown]) fun x hx => (hparts x hx).distinct hkeys

end IsPlain

/-- The keys of shapes are listed once as far as `n` types down. -/
def testKeys (D : Decls) : Nat → Ty → Bool
  | 0, _ => true
  | n + 1, t =>
    decide (((D.head t).ownMembers?.getD []).filterMap (·.key?)).Nodup
      && (D.head t).parts.all (D.testKeys n)

theorem testKeys_iff {n : Nat} {t : Ty} (h : D.HasHeight n t) :
    D.testKeys n t = true ↔ D.DistinctKeys t := by
  induction n generalizing t with
  | zero =>
    cases h
    exact ⟨fun _ => distinctKeys_missing, fun _ => rfl⟩
  | succ n ih =>
    simp only [testKeys, Bool.and_eq_true, decide_eq_true_eq, List.all_eq_true]
    constructor
    · rintro ⟨hown, hparts⟩
      refine distinctKeys_of_parts (fun own h => by rwa [h] at hown) fun x hx => ?_
      exact (ih (h.part hx)).1 (hparts x hx)
    · intro hkeys
      refine ⟨?_, fun x hx => (ih (h.part hx)).2 (hkeys.part hx)⟩
      cases hown : (D.head t).ownMembers? with
      | none => simp
      | some own => exact hkeys t .refl own hown

/-- Plain types that unfold alike. -/
structure Interchangeable (D : Decls) (keys : Bool) (n : Nat) (a b : Ty) : Prop where
  left : D.IsPlain keys n a
  right : D.IsPlain keys n b
  bisimilar : D.Bisimilar true a b

namespace Interchangeable

variable {keys : Bool} {m n : Nat} {a b c d : Ty}

theorem mono (h : D.Interchangeable keys m a b) (hmn : m ≤ n) : D.Interchangeable keys n a b :=
  ⟨h.left.mono hmn, h.right.mono hmn, h.bisimilar⟩

theorem succ (h : D.Interchangeable keys n a b) : D.Interchangeable keys (n + 1) a b :=
  h.mono (Nat.le_succ n)

theorem symm (h : D.Interchangeable keys n a b) : D.Interchangeable keys n b a :=
  ⟨h.right, h.left, bisimilar_equivalence.symm h.bisimilar⟩

theorem isMissing_eq (h : D.Interchangeable keys n a b) : a.isMissing = b.isMissing := by
  rw [← h.left.height.isMissing_head, ← h.right.height.isMissing_head]
  exact (isBisimulation_bisimilar a b h.bisimilar).isMissing_eq

/-- The heads are alike, with interchangeable parts. -/
theorem alike (h : D.Interchangeable keys (n + 1) a b) :
    (D.head a).Alike true (D.Interchangeable keys n) (D.head b) :=
  (isBisimulation_bisimilar a b h.bisimilar).mono fun _ hx _ hy hxy =>
    ⟨h.left.part hx, h.right.part hy, hxy⟩

theorem missing : D.Interchangeable keys n .missing .missing :=
  have hplain : D.IsPlain keys n .missing := ⟨.missing, fun _ => distinctKeys_missing⟩
  ⟨hplain, hplain, bisimilar_equivalence.refl _⟩

theorem any : D.Interchangeable keys (n + 1) .any .any :=
  have hplain : D.IsPlain keys (n + 1) .any := .of_parts rfl rfl rfl (by simp [head, Ty.parts])
  ⟨hplain, hplain, bisimilar_equivalence.refl _⟩

theorem orAny (h : D.Interchangeable keys (n + 1) a b) :
    D.Interchangeable keys (n + 1) a.orAny b.orAny := by
  have hmissing := h.isMissing_eq
  cases a <;> cases b <;> first | exact .any | exact h | cases hmissing

theorem function {s t : Signature} (h : s.Alike true (D.Interchangeable keys n) t) :
    D.Interchangeable keys (n + 1) (.function s) (.function t) where
  left := .of_parts rfl rfl rfl fun _ hx =>
    have ⟨_, _, hxy⟩ := h.exists_part hx
    hxy.left
  right := .of_parts rfl rfl rfl fun _ hy =>
    have ⟨_, _, hxy⟩ := h.flip.exists_part hy
    hxy.right
  bisimilar := bisimilar_of_alike (.function (h.mono fun _ _ _ _ hxy => hxy.bisimilar))

theorem bisimilar_names (h : D.Interchangeable keys n a b) (names : Bool) :
    D.Bisimilar names a b := by
  cases names with
  | true => exact h.bisimilar
  | false => exact bisimilar_ignoringNames h.bisimilar

theorem equalTypes {keys' names : Bool} (hn : n ≤ maxEqualDepth + 1)
    (hac : D.Interchangeable keys n a c)
    (hbd : D.Interchangeable keys' n b d) (h : D.equalTypes names a b = true) :
    D.equalTypes names c d = true := by
  have hab : D.Bisimilar names a b := bisimilar_of_equalWithin (by simp) h
  refine (equalTypes_iff_bisimilar hac.right.height.acyclic hbd.right.height.acyclic
    (.inl (hac.right.height.mono hn))).2 ?_
  exact bisimilar_equivalence.trans (hac.symm.bisimilar_names names)
    (bisimilar_equivalence.trans hab (hbd.bisimilar_names names))

end Interchangeable

/-! ## Members -/

section Members

variable {keys : Bool} {n : Nat} {m m' c c' : Member}

theorem membersOf?_rel {a b : Ty} (h : D.Interchangeable keys (n + 1) a b) :
    Option.Rel (MembersAlike keys (D.Interchangeable keys n)) (D.membersOf? a)
      (D.membersOf? b) := by
  have hmembers := h.alike.ownMembers?
  have hleft := fun hkeys => h.left.distinct hkeys a .refl
  have hright := fun hkeys => h.right.distinct hkeys b .refl
  simp only [membersOf?]
  generalize (D.head a).ownMembers? = own, (D.head b).ownMembers? = own' at hmembers hleft hright ⊢
  cases hmembers with
  | none => exact .none
  | some hmembers => exact .some (.of_rel (hleft · _ rfl) (hright · _ rfl) hmembers)

/-- Interchangeable types have members alike, own and inherited ones. -/
theorem membersWithin?_rel {fuel : Nat} {a b : Ty} (h : D.Interchangeable keys (n + 1) a b) :
    Option.Rel (MembersAlike keys (D.Interchangeable keys n)) (D.membersWithin? fuel a)
      (D.membersWithin? fuel b) := by
  induction fuel generalizing a b with
  | zero => exact membersOf?_rel h
  | succ fuel ih =>
    have hinherited : ∀ x y, D.Interchangeable keys n x y →
        MembersAlike keys (D.Interchangeable keys n)
        ((D.membersWithin? fuel x).getD []) ((D.membersWithin? fuel y).getD []) := by
      intro x y hxy
      have hmembers := ih hxy.succ
      generalize D.membersWithin? fuel x = ms, D.membersWithin? fuel y = ns at hmembers ⊢
      cases hmembers with
      | none => exact .nil
      | some hmembers => exact hmembers
    have hbases := MembersAlike.flatMap hinherited (h.alike.bases fun x y hxy => hxy.isMissing_eq)
    have hown := membersOf?_rel h
    simp only [membersWithin?]
    generalize D.membersOf? a = own, D.membersOf? b = own' at hown ⊢
    cases hown with
    | none => exact .none
    | some hown => exact .some (hown.append hbases)

theorem allMembers?_rel {a b : Ty} (h : D.Interchangeable keys (n + 1) a b) :
    Option.Rel (MembersAlike keys (D.Interchangeable keys n)) (D.allMembers? a) (D.allMembers? b) :=
  membersWithin?_rel h

/-- Questions with interchangeable sides.  The keys of sources are listed once. -/
def InterchangeableQuestions (D : Decls) (n : Nat) (p q : Pair) : Prop :=
  D.Interchangeable false n p.1 q.1 ∧ D.Interchangeable true n p.2 q.2

/-- Members that are alike ask interchangeable questions. -/
theorem memberQuestion?_rel (hm : m.Alike true (D.Interchangeable false n) m')
    (hc : c.Alike true (D.Interchangeable true n) c') :
    Option.Rel (D.InterchangeableQuestions (n + 1))
      (D.memberQuestion? m c) (D.memberQuestion? m' c') := by
  cases hm with
  | property hkey h =>
    cases hc with
    | property _ h' => exact .some ⟨h.succ.orAny, h'.succ.orAny⟩
    | method _ h' => exact .some ⟨h.succ.orAny, .function h'⟩
    | _ => exact .none
  | method hkey h =>
    cases hc with
    | @property _ _ u u' _ _ _ h' =>
      have hlayer := h'.succ.alike
      simp only [memberQuestion?]
      generalize D.head u = source, D.head u' = source' at hlayer ⊢
      cases hlayer with
      | function hsignature =>
        exact .some ⟨(h.result .missing).succ, (hsignature.result .missing).succ⟩
      | raw hraw hraw' =>
        cases source <;> cases hraw <;> cases source' <;> cases hraw' <;> exact .none
      | _ => exact .none
    | method _ h' => exact .some ⟨(h.result .missing).succ, (h'.result .missing).succ⟩
    | _ => exact .none
  | _ => cases hc <;> exact .none

theorem findSome?_memberQuestion?_rel (hm : m.Alike true (D.Interchangeable false n) m')
    {cs cs' : List Member}
    (hcs : List.Forall₂ (Member.Alike true (D.Interchangeable true n)) cs cs') :
    Option.Rel (D.InterchangeableQuestions (n + 1))
      (cs.findSome? (D.memberQuestion? m)) (cs'.findSome? (D.memberQuestion? m')) := by
  induction hcs with
  | nil => exact .none
  | @cons c c' _ _ hc _ ih =>
    have hquestion := memberQuestion?_rel hm hc
    simp only [List.findSome?_cons]
    generalize D.memberQuestion? m c = q, D.memberQuestion? m' c' = q' at hquestion ⊢
    cases hquestion with
    | none => exact ih
    | some h => exact .some h

end Members

/-! ## Rules -/

/-- Questions that are interchangeable with questions of a relation. -/
def Carried (D : Decls) (n : Nat) (R : Ty → Ty → Prop) (c d : Ty) : Prop :=
  ∃ a b, D.InterchangeableQuestions n (a, b) (c, d) ∧ R a b

section Rules

variable {R : Ty → Ty → Prop} {n : Nat} {t t' s s' : Ty}

theorem Provides.respect (hn : n ≤ maxEqualDepth) {given given' : List Member} {m m' : Member}
    (hm : m.Alike true (D.Interchangeable false n) m')
    (hgiven : MembersAlike true (D.Interchangeable true n) given given')
    (h : D.Provides R given m) : D.Provides (D.Carried (n + 1) R) given' m' := by
  cases h with
  | unnamed hkey hc heq =>
    obtain ⟨c', hc', hcc⟩ := hgiven.left _ hc
    refine .unnamed (hm.key?_eq ▸ hkey) hc' ?_
    rw [memberEqualIgnoringNames, Member.equal_iff] at heq ⊢
    refine ((hm.ignoringNames.flip.comp heq).comp hcc.ignoringNames).mono ?_
    rintro x - y - ⟨v, ⟨u, hu, huv⟩, hv⟩
    exact hu.equalTypes (by omega) hv huv
  | @named key _ _ hkey hfirst h =>
    have hquestion := findSome?_memberQuestion?_rel hm (hgiven.named rfl key)
    rw [hfirst] at hquestion
    generalize hfirst' : (findMembers given' key).findSome? (D.memberQuestion? m') =
      question at hquestion
    cases hquestion with
    | some hq => exact .named (hm.key?_eq ▸ hkey) hfirst' ⟨_, _, hq, h⟩
  | @omitted key hkey hnone hoptional =>
    have hquestion := findSome?_memberQuestion?_rel hm (hgiven.named rfl key)
    rw [hnone] at hquestion
    generalize hnone' : (findMembers given' key).findSome? (D.memberQuestion? m') =
      question at hquestion
    cases hquestion
    exact .omitted (hm.key?_eq ▸ hkey) hnone' (hm.isOptional_eq ▸ hoptional)

theorem isKeyword_eq {keys : Bool} {a b : Ty} (h : D.Interchangeable keys (n + 1) a b)
    (k : Keyword) : D.isKeyword a k = D.isKeyword b k := by
  have hlayer := h.alike
  simp only [isKeyword]
  generalize D.head a = x, D.head b = y at hlayer
  cases hlayer with
  | raw hx hy => cases x <;> cases hx <;> cases y <;> cases hy <;> rfl
  | _ => rfl

theorem FollowsByShape.respect (hn : n ≤ maxEqualDepth) (ht : D.Interchangeable false (n + 1) t t')
    (hs : D.Interchangeable true (n + 1) s s') (h : D.FollowsByShape R t s) :
    D.FollowsByShape (D.Carried (n + 1) R) t' s' := by
  have hpart : ∀ {a b c d}, D.Interchangeable false n a c → D.Interchangeable true n b d → R a b →
      D.Carried (n + 1) R c d := fun hac hbd hab => ⟨_, _, ⟨hac.succ, hbd.succ⟩, hab⟩
  have htarget := ht.alike
  have hsource := hs.alike
  cases h with
  | array hta hsb h =>
    rw [hta] at htarget
    rw [hsb] at hsource
    obtain ⟨a', hta', ha⟩ := htarget.exists_array
    obtain ⟨b', hsb', hb⟩ := hsource.exists_array
    exact .array hta' hsb' (hpart ha hb h)
  | arrayOfTuple hta hsb h =>
    rw [hta] at htarget
    rw [hsb] at hsource
    obtain ⟨a', hta', ha⟩ := htarget.exists_array
    obtain ⟨bs', hsb', hbs⟩ := hsource.exists_tuple
    refine .arrayOfTuple hta' hsb' fun b' hb' => ?_
    obtain ⟨b, hmem, hb⟩ := exists_of_forall₂ hbs.flip hb'
    exact hpart ha hb (h b hmem)
  | @union b _ hta hmem h =>
    rw [hta] at htarget
    obtain ⟨bs', hta', hbs⟩ := htarget.exists_union
    obtain ⟨b', hmem', hb⟩ := exists_of_rel_left hbs hmem
    exact .union hta' hmem' ⟨b, s, ⟨hb.succ, hs⟩, h⟩
  | inter hta h =>
    rw [hta] at htarget
    obtain ⟨bs', hta', hbs⟩ := htarget.exists_inter
    refine .inter hta' fun b' hmem' => ?_
    obtain ⟨b, hmem, hb⟩ := exists_of_rel_right hbs hmem'
    exact ⟨b, s, ⟨hb.succ, hs⟩, h b hmem⟩
  | keyword hta h =>
    rw [hta] at htarget
    exact .keyword htarget.eq_keyword (hsource.keywordAccepts_eq _ ▸ h)
  | enum hta hsb =>
    rw [hta] at htarget
    rw [hsb] at hsource
    obtain ⟨members', hta'⟩ := htarget.exists_enum
    obtain ⟨member', hsb'⟩ := hsource.exists_variant
    exact .enum hta' hsb'
  | function hta hsb hf hg h =>
    rw [hta] at htarget
    rw [hsb] at hsource
    obtain ⟨f', hta', hff⟩ := htarget.exists_function
    obtain ⟨g', hsb', hgg⟩ := hsource.exists_function
    exact .function hta' hsb' (hff.typeParams_eq_nil_iff.1 hf) (hgg.typeParams_eq_nil_iff.1 hg)
      (hpart (hff.result .missing) (hgg.result .missing) h)
  | ctor hta hsb hf hg h =>
    rw [hta] at htarget
    rw [hsb] at hsource
    obtain ⟨f', hta', hff⟩ := htarget.exists_ctor
    obtain ⟨g', hsb', hgg⟩ := hsource.exists_ctor
    exact .ctor hta' hsb' (hff.typeParams_eq_nil_iff.1 hf) (hgg.typeParams_eq_nil_iff.1 hg)
      (hpart (hff.result .missing) (hgg.result .missing) h)
  | tuple hta hsb h =>
    rw [hta] at htarget
    rw [hsb] at hsource
    obtain ⟨as', hta', has⟩ := htarget.exists_tuple
    obtain ⟨bs', hsb', hbs⟩ := hsource.exists_tuple
    refine .tuple hta' hsb' ((forall₂_comp (forall₂_comp has.flip h) hbs).imp ?_)
    rintro a' b' ⟨b, ⟨a, ha, hab⟩, hb⟩
    refine hab.imp (hpart ha hb) fun hundefined => ?_
    rwa [← isKeyword_eq hb.succ]
  | members hwanted hgiven h =>
    have hwanted' := allMembers?_rel ht
    have hgiven' := allMembers?_rel hs
    rw [hwanted] at hwanted'
    rw [hgiven] at hgiven'
    generalize hta' : D.allMembers? t' = members at hwanted'
    generalize hsb' : D.allMembers? s' = members' at hgiven'
    cases hwanted' with
    | some hwanted' =>
      cases hgiven' with
      | some hgiven' =>
        refine .members hta' hsb' fun m' hm' => ?_
        obtain ⟨m, hm, hmm⟩ := hwanted'.right m' hm'
        exact (h m hm).respect hn hmm hgiven'
  | alike hopen h =>
    exact .alike (htarget.leavesOpen_eq hsource ▸ hopen) (ht.equalTypes (by omega) hs h)

/-- A rule that applies to types applies to interchangeable ones. -/
theorem Follows.respect (hn : n ≤ maxEqualDepth) (ht : D.Interchangeable false (n + 1) t t')
    (hs : D.Interchangeable true (n + 1) s s') (h : D.Follows R t s) :
    D.Follows (D.Carried (n + 1) R) t' s' := by
  have htarget := ht.alike
  have hsource := hs.alike
  cases h with
  | top htop => exact .top (htarget.isTop_eq ▸ htop)
  | unionSource hthis hsb h =>
    rw [hsb] at hsource
    obtain ⟨bs', hsb', hbs⟩ := hsource.exists_union
    refine .unionSource (htarget.ne_this hthis) hsb' fun b' hmem' => ?_
    obtain ⟨b, hmem, hb⟩ := exists_of_rel_right hbs hmem'
    exact ⟨t, b, ⟨ht, hb.succ⟩, h b hmem⟩
  | sameParam hta hsb =>
    rw [hta] at htarget
    rw [hsb] at hsource
    obtain ⟨_, hta', -⟩ := htarget.exists_param
    obtain ⟨_, hsb', -⟩ := hsource.exists_param
    exact .sameParam hta' hsb'
  | bound hthis hsb hb h =>
    rw [hsb] at hsource
    obtain ⟨b', hsb', hbb⟩ := hsource.exists_param
    exact .bound (htarget.ne_this hthis) hsb' (hbb.isMissing_eq ▸ hb) ⟨t, _, ⟨ht, hbb.succ⟩, h⟩
  | emptyObject hta hsb hb =>
    rw [hta] at htarget
    rw [hsb] at hsource
    obtain ⟨b', hsb', hbb⟩ := hsource.exists_param
    exact .emptyObject htarget.eq_emptyObject hsb' (hbb.isMissing_eq ▸ hb)
  | bottom hthis hsb =>
    refine .bottom (htarget.ne_this hthis) (hsb.imp (fun hsb => ?_) fun hsb => ?_)
    all_goals
      rw [hsb] at hsource
      exact hsource.eq_keyword
  | unknownSource hta hsb =>
    rw [hta] at htarget
    rw [hsb] at hsource
    exact .unknownSource htarget.eq_keyword hsource.eq_keyword
  | equal hthis hcompared h =>
    exact .equal (htarget.ne_this hthis) (hsource.isCompared_eq ▸ hcompared)
      (ht.equalTypes (by omega) hs h)
  | shape hthis hcompared h =>
    exact .shape (htarget.ne_this hthis) (hsource.isCompared_eq ▸ hcompared) (h.respect hn ht hs)

end Rules

/-! ## Answers -/

/-- The number of steps that an answer takes is the same for interchangeable types. -/
theorem AssignableWithin.respect {fuel n : Nat} {t t' s s' : Ty} (hn : n ≤ maxEqualDepth)
    (ht : D.Interchangeable false (n + 1) t t') (hs : D.Interchangeable true (n + 1) s s')
    (h : D.AssignableWithin fuel t s) : D.AssignableWithin fuel t' s' := by
  induction fuel generalizing t t' s s' with
  | zero => cases h
  | succ fuel ih =>
    refine (Follows.respect hn ht.orAny hs.orAny h).mono ?_
    rintro c d ⟨a, b, ⟨hac, hbd⟩, hab⟩
    exact ih hac hbd hab

theorem isAssignable_eq_of_interchangeable {n : Nat} {t t' s s' : Ty} (hn : n ≤ maxEqualDepth)
    (ht : D.Interchangeable false (n + 1) t t') (hs : D.Interchangeable true (n + 1) s s') :
    D.isAssignable t s = D.isAssignable t' s' := by
  rw [Bool.eq_iff_iff,
    isAssignable_iff_assignableWithin ht.left.height.hasNesting hs.left.height.hasNesting,
    isAssignable_iff_assignableWithin ht.right.height.hasNesting hs.right.height.hasNesting]
  exact ⟨.respect hn ht hs, .respect hn ht.symm hs.symm⟩

/-- Equal types get the same answers.  So do types that unfold alike, however their
branches and members are ordered and whichever of their parts are shared. -/
theorem isAssignable_congr {t t' s s' : Ty} (ht : D.HasHeight (maxEqualDepth + 1) t)
    (ht' : D.HasHeight (maxEqualDepth + 1) t') (hs : D.HasHeight (maxEqualDepth + 1) s)
    (hs' : D.HasHeight (maxEqualDepth + 1) s') (hkeys : D.DistinctKeys s)
    (hkeys' : D.DistinctKeys s') :
    (D.equal t t' = true → D.equal s s' = true → D.isAssignable t s = D.isAssignable t' s') ∧
      (D.Bisimilar true t t' → D.Bisimilar true s s' →
        D.isAssignable t s = D.isAssignable t' s') := by
  have hbisimilar : D.Bisimilar true t t' → D.Bisimilar true s s' →
      D.isAssignable t s = D.isAssignable t' s' := by
    intro htt hss
    have htarget : D.Interchangeable false (maxEqualDepth + 1) t t' :=
      ⟨⟨ht, by simp⟩, ⟨ht', by simp⟩, htt⟩
    have hsource : D.Interchangeable true (maxEqualDepth + 1) s s' :=
      ⟨⟨hs, fun _ => hkeys⟩, ⟨hs', fun _ => hkeys'⟩, hss⟩
    exact isAssignable_eq_of_interchangeable le_rfl htarget hsource
  refine ⟨fun htt hss => hbisimilar ?_ ?_, hbisimilar⟩
  · exact bisimilar_of_equalWithin (by simp) htt
  · exact bisimilar_of_equalWithin (by simp) hss

/-- A box whose parts share the type of a tag. -/
def boxes : Decls :=
  .ofDefinitions
    [("Tag", .union [.string, .number]),
      ("Box", .object
        [.required "tags" (.array (.named (.given "Tag"))),
          .required "first" (.named (.given "Tag"))])]

/-- A box that is written out, with its members and branches turned round, accepts
what the declared one accepts. -/
theorem isAssignable_congr_boxes :
    let box : Ty := .named (.given "Box")
    let written : Ty := .object
      [.required "first" (.union [.number, .string]),
        .required "tags" (.array (.union [.number, .string]))]
    let given : Ty :=
      .object [.required "first" .string, .required "tags" (.tuple [.number, .string])]
    let turned : Ty :=
      .object [.required "tags" (.tuple [.number, .string]), .required "first" .string]
    boxes.isAssignable box given = true ∧ boxes.isAssignable written turned = true := by
  intro box written given turned
  have hbox : boxes.HasHeight 4 box := by decide
  have hwritten : boxes.HasHeight 4 written := by decide
  have hgiven : boxes.HasHeight 4 given := by decide
  have hturned : boxes.HasHeight 4 turned := by decide
  have hdepth : 4 ≤ maxEqualDepth + 1 := by decide
  have haccepted : boxes.isAssignable box given = true := rfl
  refine ⟨haccepted, ?_⟩
  rw [← haccepted]
  exact ((isAssignable_congr (hbox.mono hdepth) (hwritten.mono hdepth) (hgiven.mono hdepth)
    (hturned.mono hdepth) ((testKeys_iff hgiven).1 rfl)
      ((testKeys_iff hturned).1 rfl)).1 rfl rfl).symm

end Decls

end StructuralTyping
