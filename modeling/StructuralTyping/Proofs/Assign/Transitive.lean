import StructuralTyping.Proofs.Assign.Union

/-!
# Assignability of records is transitive

Records are built from keywords other than `any`, `unknown` and `object`, literals,
arrays, unions and object types whose members are required properties with distinct
keys.  On records each pair of shapes has one rule, `Decls.RecordRule`, and equality
is not one of them.  Equal records follow from the rules by shape
(`Decls.assignable_of_bisimilar`), because they have the same branches and members up
to their order.

A source is taken apart into its branches before it is compared.  So transitivity is
shown for a branch in the third place.  There the type in the middle gives way to one
of its branches, and then both rules are for the same shape.
-/

namespace StructuralTyping

/-! ## Records -/

/-- The keywords that only accept values of their own. -/
def Keyword.isPlain : Keyword → Bool
  | .string | .number | .boolean | .bigint | .symbol | .void | .null | .undefined | .never => true
  | _ => false

/-- A property that may not be left out. -/
def Member.isRequired : Member → Bool
  | .property _ _ isOptional _ => !isOptional
  | _ => false

/-- The layers that records are built from. -/
def Ty.isRecordLayer : Ty → Bool
  | .keyword k => k.isPlain
  | .literal _ | .array _ | .union _ => true
  | .object ms => ms.all (·.isRequired) && decide (ms.filterMap (·.key?)).Nodup
  | _ => false

namespace Decls

variable {D : Decls}

/-- A finite type of record layers.  No annotation in it is missing. -/
inductive IsRecord (D : Decls) : Ty → Prop where
  | intro {t : Ty} (hlayer : (D.head t).isRecordLayer = true)
      (hparts : ∀ x ∈ (D.head t).parts, D.IsRecord x) : D.IsRecord t

/-- Records as a test that goes `n` types down. -/
def testRecord (D : Decls) : Nat → Ty → Bool
  | 0, _ => false
  | n + 1, t => (D.head t).isRecordLayer && (D.head t).parts.all (D.testRecord n)

theorem isRecord_of_testRecord {n : Nat} {t : Ty} (h : D.testRecord n t = true) : D.IsRecord t := by
  induction n generalizing t with
  | zero => cases h
  | succ n ih =>
    simp only [testRecord, Bool.and_eq_true, List.all_eq_true] at h
    exact .intro h.1 fun x hx => ih (h.2 x hx)

/-- A member list has a required property. -/
def HasProperty (ms : List Member) (key : PropKey) (a : Ty) : Prop :=
  ∃ isReadonly, Member.property key a false isReadonly ∈ ms

theorem mem_parts_of_property {t a : Ty} {ms : List Member} {key : PropKey}
    (ht : D.head t = .object ms) (ha : HasProperty ms key a) : a ∈ (D.head t).parts := by
  obtain ⟨isReadonly, hm⟩ := ha
  rw [ht]
  exact List.mem_flatMap.2 ⟨_, hm, .head _⟩

/-- A finite list of acyclic types has a height. -/
theorem exists_hasHeight {ts : List Ty} (h : ∀ t ∈ ts, D.Acyclic t) :
    ∃ n, ∀ t ∈ ts, D.HasHeight n t := by
  induction ts with
  | nil => exact ⟨0, by simp⟩
  | cons t ts ih =>
    obtain ⟨m, hm⟩ := h t (.head _)
    obtain ⟨n, hn⟩ := ih fun x hx => h x (.tail _ hx)
    refine ⟨max m n, List.forall_mem_cons.2 ⟨hm.mono (le_max_left m n), fun x hx => ?_⟩⟩
    exact (hn x hx).mono (le_max_right m n)

namespace IsRecord

variable {t x : Ty}

theorem layer (h : D.IsRecord t) : (D.head t).isRecordLayer = true := by
  cases h with
  | intro hlayer _ => exact hlayer

theorem part (h : D.IsRecord t) (hx : x ∈ (D.head t).parts) : D.IsRecord x := by
  cases h with
  | intro _ hparts => exact hparts x hx

theorem of_branch (h : D.IsRecord t) (hx : D.HasBranch t x) : D.IsRecord x := by
  induction hx with
  | self => exact h
  | union ht hb _ ih => exact ih (h.part (by rw [ht]; exact hb))

theorem isMissing_eq_false (h : D.IsRecord t) : t.isMissing = false := by
  have hlayer := h.layer
  cases t <;> first | rfl | cases hlayer

theorem orAny_eq (h : D.IsRecord t) : t.orAny = t :=
  Ty.orAny_of_isMissing_eq_false h.isMissing_eq_false

theorem isMissing_head (h : D.IsRecord t) : (D.head t).isMissing = false := by
  have hlayer := h.layer
  generalize D.head t = layer at hlayer ⊢
  cases layer <;> first | rfl | cases hlayer

theorem isNamed_head (h : D.IsRecord t) : (D.head t).isNamed = false := by
  have hlayer := h.layer
  generalize D.head t = layer at hlayer ⊢
  cases layer <;> first | rfl | cases hlayer

theorem ne_this (h : D.IsRecord t) : D.head t ≠ .this := by
  intro hthis
  have hlayer := h.layer
  rw [hthis] at hlayer
  cases hlayer

theorem acyclic (h : D.IsRecord t) : D.Acyclic t := by
  induction h with
  | @intro t hlayer hparts ih =>
    obtain ⟨n, hn⟩ := exists_hasHeight ih
    have ht : D.IsRecord t := .intro hlayer hparts
    exact ⟨n + 1, .layer ht.isMissing_head ht.isNamed_head hn⟩

/-- A record is a union or `never`, or it is compared with the target. -/
theorem isCompared (h : D.IsRecord t) (hunion : ∀ bs, D.head t ≠ .union bs)
    (hnever : D.head t ≠ .never) : (D.head t).isCompared = true := by
  have hlayer := h.layer
  cases hhead : D.head t with
  | union bs => exact absurd hhead (hunion bs)
  | keyword k =>
    rw [hhead] at hlayer hnever
    cases k <;> first | rfl | exact absurd rfl hnever | cases hlayer
  | param => simp [hhead, Ty.isRecordLayer] at hlayer
  | _ => rfl

section Object

variable {ms : List Member}

theorem distinctKeys (h : D.IsRecord t) (ht : D.head t = .object ms) :
    (ms.filterMap (·.key?)).Nodup := by
  have hlayer := h.layer
  simp only [ht, Ty.isRecordLayer, Bool.and_eq_true, decide_eq_true_eq] at hlayer
  exact hlayer.2

/-- The members of an object type are required properties. -/
theorem exists_property {m : Member} (h : D.IsRecord t) (ht : D.head t = .object ms) (hm : m ∈ ms) :
    ∃ key a isReadonly, m = .property key a false isReadonly := by
  have hlayer := h.layer
  simp only [ht, Ty.isRecordLayer, Bool.and_eq_true, List.all_eq_true] at hlayer
  have hrequired := hlayer.1 m hm
  cases m with
  | property key a isOptional isReadonly =>
    obtain rfl : isOptional = false := by simpa [Member.isRequired] using hrequired
    exact ⟨key, a, isReadonly, rfl⟩
  | _ => cases hrequired

theorem property {key : PropKey} {a : Ty} (h : D.IsRecord t) (ht : D.head t = .object ms)
    (ha : HasProperty ms key a) : D.IsRecord a := h.part (mem_parts_of_property ht ha)

/-- The one candidate of a key is the property that has it. -/
theorem findMembers_eq {key : PropKey} {a : Ty} {isReadonly : Bool} (h : D.IsRecord t)
    (ht : D.head t = .object ms) (hm : .property key a false isReadonly ∈ ms) :
    findMembers ms key = [.property key a false isReadonly] := by
  have hfound : .property key a false isReadonly ∈ findMembers ms key := mem_findMembers.2 ⟨hm, rfl⟩
  have hlength := length_findMembers_le (h.distinctKeys ht) key
  obtain ⟨m, hfind⟩ :=
    List.length_eq_one_iff.1 (le_antisymm hlength (List.length_pos_of_mem hfound))
  rw [hfind] at hfound ⊢
  rw [List.mem_singleton.1 hfound]

/-- A record with members is an object type and inherits nothing. -/
theorem head_of_allMembers? (h : D.IsRecord t) (ht : D.allMembers? t = some ms) :
    D.head t = .object ms := by
  have hlayer := h.layer
  cases hhead : D.head t with
  | object own =>
    rw [allMembers?_of_object hhead] at ht
    rw [Option.some.inj ht]
  | interface | classType => simp [hhead, Ty.isRecordLayer] at hlayer
  | _ => simp [allMembers?, membersWithin?, membersOf?, hhead, Ty.ownMembers?] at ht

end Object

end IsRecord

/-! ## The rules for records -/

/-- The rules for records whose source is compared, by the shape of the target. -/
inductive RecordRule (D : Decls) (R : Ty → Ty → Prop) (t s : Ty) : Prop where
  | union {b : Ty} {bs : List Ty} (ht : D.head t = .union bs) (hb : b ∈ bs) (h : R b s)
  | keyword {k : Keyword} (ht : D.head t = .keyword k) (hs : D.head s = .keyword k)
  | widened {l : Literal} (ht : D.head t = .keyword l.keyword) (hs : D.head s = .literal l)
  | void (ht : D.head t = .void) (hs : D.head s = .undefined)
  | literal {l l' : Literal} (ht : D.head t = .literal l) (hs : D.head s = .literal l')
      (h : l.sameValue l' = true)
  | array {a b : Ty} (ht : D.head t = .array a) (hs : D.head s = .array b) (h : R a b)
  | object {ms ns : List Member} (ht : D.head t = .object ms) (hs : D.head s = .object ns)
      (h : ∀ key a, HasProperty ms key a → ∃ b, HasProperty ns key b ∧ R a b)

/-! ### Rules by the shape of the target -/

namespace RecordRule

variable {R : Ty → Ty → Prop} {t u s : Ty} (h : D.RecordRule R t s)
include h

/-- The rules see no more of the target than its head. -/
theorem of_head_eq (htu : D.head t = D.head u) : D.RecordRule R u s := by
  cases h with
  | union ht hb h => exact .union (htu ▸ ht) hb h
  | keyword ht hs => exact .keyword (htu ▸ ht) hs
  | widened ht hs => exact .widened (htu ▸ ht) hs
  | void ht hs => exact .void (htu ▸ ht) hs
  | literal ht hs h => exact .literal (htu ▸ ht) hs h
  | array ht hs h => exact .array (htu ▸ ht) hs h
  | object ht hs h => exact .object (htu ▸ ht) hs h

theorem exists_branch {bs : List Ty} (ht : D.head t = .union bs) : ∃ b ∈ bs, R b s := by
  cases h with
  | union ht' hb h =>
    obtain rfl := Ty.union.inj (ht.symm.trans ht')
    exact ⟨_, hb, h⟩
  | keyword ht' | widened ht' | void ht' | literal ht' | array ht' | object ht' =>
    cases ht.symm.trans ht'

theorem not_never (hs : (D.head s).isCompared = true) : D.head t ≠ .never := by
  intro ht
  cases h with
  | keyword ht' hs' =>
    obtain rfl := Ty.keyword.inj (ht.symm.trans ht')
    rw [hs'] at hs
    cases hs
  | @widened l ht' => cases l <;> cases ht.symm.trans ht'
  | union ht' | void ht' | literal ht' | array ht' | object ht' => cases ht.symm.trans ht'

theorem head_of_undefined (ht : D.head t = .undefined) : D.head s = .undefined := by
  cases h with
  | keyword ht' hs' => exact hs'.trans (ht'.symm.trans ht)
  | @widened l ht' => cases l <;> cases ht.symm.trans ht'
  | union ht' | void ht' | literal ht' | array ht' | object ht' => cases ht.symm.trans ht'

theorem exists_literal {l : Literal} (ht : D.head t = .literal l) :
    ∃ l', D.head s = .literal l' ∧ l.sameValue l' = true := by
  cases h with
  | literal ht' hs' h =>
    obtain rfl := Ty.literal.inj (ht.symm.trans ht')
    exact ⟨_, hs', h⟩
  | union ht' | keyword ht' | widened ht' | void ht' | array ht' | object ht' =>
    cases ht.symm.trans ht'

theorem exists_array {a : Ty} (ht : D.head t = .array a) : ∃ b, D.head s = .array b ∧ R a b := by
  cases h with
  | array ht' hs' h =>
    obtain rfl := Ty.array.inj (ht.symm.trans ht')
    exact ⟨_, hs', h⟩
  | union ht' | keyword ht' | widened ht' | void ht' | literal ht' | object ht' =>
    cases ht.symm.trans ht'

theorem exists_object {ms : List Member} (ht : D.head t = .object ms) :
    ∃ ns, D.head s = .object ns ∧ ∀ key a, HasProperty ms key a →
      ∃ b, HasProperty ns key b ∧ R a b := by
  cases h with
  | object ht' hs' h =>
    obtain rfl := Ty.object.inj (ht.symm.trans ht')
    exact ⟨_, hs', h⟩
  | union ht' | keyword ht' | widened ht' | void ht' | literal ht' | array ht' =>
    cases ht.symm.trans ht'

end RecordRule

/-! ### Rules for all types and rules for records -/

section Rules

variable {R : Ty → Ty → Prop} {t s : Ty}

/-- A plain keyword accepts the literals that widen to it, and `void` accepts `undefined`. -/
theorem recordRule_of_keywordAccepts {k : Keyword} (hk : k.isPlain = true)
    (ht : D.head t = .keyword k) (h : keywordAccepts k (D.head s) = true) : D.RecordRule R t s := by
  unfold keywordAccepts at h
  split at h
  case h_1 => cases hk
  case h_2 hs => exact .void ht hs
  case h_3 l _ hs => exact .widened (ht.trans (congrArg _ (beq_iff_eq.1 h).symm)) hs
  case h_4 => cases h

/-- Heads that are alike follow by their shape. -/
theorem recordRule_of_alike (ht : D.IsRecord t) (hs : (D.head s).isCompared = true)
    (h : (D.head t).Alike true R (D.head s)) : D.RecordRule R t s := by
  have hlayer := ht.layer
  generalize htarget : D.head t = target, hsource : D.head s = source at h hlayer hs
  cases h with
  | keyword k => exact .keyword htarget hsource
  | literal h => exact .literal htarget hsource h
  | array h => exact .array htarget hsource h
  | union => cases hs
  | object h =>
    refine .object htarget hsource fun key a ⟨isReadonly, hm⟩ => ?_
    obtain ⟨n, hn, hmn⟩ := exists_of_rel_left h hm
    cases hmn with
    | @property _ l _ b _ _ hkey h =>
      obtain rfl : key = l := hkey
      exact ⟨b, ⟨isReadonly, hn⟩, h⟩
  | raw hraw => cases target <;> first | (cases hlayer; done) | cases hraw
  | _ => cases hlayer

theorem recordRule_of_members {wanted given : List Member} (ht : D.IsRecord t) (hs : D.IsRecord s)
    (hwanted : D.allMembers? t = some wanted) (hgiven : D.allMembers? s = some given)
    (h : ∀ m ∈ wanted, D.Provides R given m) : D.RecordRule R t s := by
  have htarget := ht.head_of_allMembers? hwanted
  have hsource := hs.head_of_allMembers? hgiven
  refine .object htarget hsource fun key a ha => ?_
  have hthere := (ht.property htarget ha).orAny_eq
  obtain ⟨isReadonly, hm⟩ := ha
  cases h _ hm with
  | unnamed hkey => cases hkey
  | named hkey hfirst hask =>
    obtain rfl : key = _ := Option.some.inj hkey
    obtain ⟨c, hc, hquestion⟩ := List.exists_of_findSome?_eq_some hfirst
    obtain ⟨hgiven, hckey⟩ := mem_findMembers.1 hc
    obtain ⟨key', b, isReadonly', rfl⟩ := hs.exists_property hsource hgiven
    obtain rfl : key' = key := Option.some.inj hckey
    have hb : HasProperty given key' b := ⟨isReadonly', hgiven⟩
    have hpair : (a.orAny, b.orAny) = _ := Option.some.inj hquestion
    obtain ⟨rfl, rfl⟩ := Prod.mk.inj hpair
    rw [hthere, (hs.property hsource hb).orAny_eq] at hask
    exact ⟨b, hb, hask⟩
  | omitted _ _ hoptional => cases hoptional

theorem recordRule_of_followsByShape (ht : D.IsRecord t) (hs : D.IsRecord s)
    (h : D.FollowsByShape R t s) : D.RecordRule R t s := by
  have hlayer := ht.layer
  cases h with
  | array ht' hs' h => exact .array ht' hs' h
  | union ht' hb h => exact .union ht' hb h
  | keyword ht' h => exact recordRule_of_keywordAccepts (by rwa [ht'] at hlayer) ht' h
  | members ht' hs' h => exact recordRule_of_members ht hs ht' hs' h
  | alike hopen h =>
    -- A shape and a source without members are not equal, not even up to names.
    have hbisimilar : D.Bisimilar false t s := bisimilar_of_equalWithin (by simp) h
    have hmembers := (isBisimulation_bisimilar t s hbisimilar).ownMembers?
    generalize D.head t = target, D.head s = source at hlayer hmembers hopen
    cases target with
    | object =>
      simp only [Ty.leavesOpen, Bool.and_eq_true, Option.isNone_iff_eq_none] at hopen
      rw [hopen.2] at hmembers
      cases hmembers
    | _ => first | (cases hlayer; done) | cases hopen
  | arrayOfTuple _ hs' =>
    have hlayer' := hs.layer
    rw [hs'] at hlayer'
    cases hlayer'
  | inter ht' | enum ht' | function ht' | ctor ht' | tuple ht' =>
    rw [ht'] at hlayer
    cases hlayer

theorem recordRule_of_follows (ht : D.IsRecord t) (hs : D.IsRecord s)
    (hcompared : (D.head s).isCompared = true)
    (hequal : ∀ x ∈ (D.head t).parts, ∀ y ∈ (D.head s).parts, D.Bisimilar true x y → R x y)
    (h : D.Follows R t s) : D.RecordRule R t s := by
  have hlayer := ht.layer
  cases h with
  | equal _ _ h =>
    have hbisimilar : D.Bisimilar true t s := bisimilar_of_equalWithin (by simp) h
    refine recordRule_of_alike ht hcompared ?_
    exact (isBisimulation_bisimilar t s hbisimilar).mono fun x hx y hy hxy => hequal x hx y hy hxy
  | shape _ _ h => exact recordRule_of_followsByShape ht hs h
  | top ht' =>
    generalize D.head t = target at ht' hlayer
    unfold Ty.isTop at ht'
    split at ht' <;> first | cases hlayer | cases ht'
  | unionSource _ hs' | bound _ hs' | emptyObject _ hs' | unknownSource _ hs' | sameParam _ hs' =>
    rw [hs'] at hcompared
    cases hcompared
  | bottom _ hs' => rcases hs' with hs' | hs' <;> (rw [hs'] at hcompared; cases hcompared)

theorem keywordAccepts_literal (l : Literal) : keywordAccepts l.keyword (.literal l) = true := by
  cases l <;> rfl

theorem follows_of_recordRule (ht : D.IsRecord t) (hs : D.IsRecord s)
    (hcompared : (D.head s).isCompared = true) (h : D.RecordRule R t s) : D.Follows R t s := by
  have hshape (h : D.FollowsByShape R t s) : D.Follows R t s := .shape ht.ne_this hcompared h
  have hleaf (h : (D.head t).Alike true (D.Bisimilar true) (D.head s))
      (hleaf : (D.head t).parts = []) : D.Follows R t s := by
    refine .equal ht.ne_this hcompared ?_
    have hheight : D.HasHeight 1 t := .layer ht.isMissing_head ht.isNamed_head (by simp [hleaf])
    exact (equalTypes_iff_bisimilar ht.acyclic hs.acyclic (.inl (hheight.mono (by decide)))).2
      (bisimilar_of_alike h)
  cases h with
  | union ht' hb h => exact hshape (.union ht' hb h)
  | keyword ht' hs' => exact hleaf (by rw [ht', hs']; exact .keyword _) (by rw [ht']; rfl)
  | widened ht' hs' => exact hshape (.keyword ht' (by rw [hs']; exact keywordAccepts_literal _))
  | void ht' hs' => exact hshape (.keyword ht' (by rw [hs']; rfl))
  | literal ht' hs' h => exact hleaf (by rw [ht', hs']; exact .literal h) (by rw [ht']; rfl)
  | array ht' hs' h => exact hshape (.array ht' hs' h)
  | object ht' hs' h =>
    refine hshape (.members (allMembers?_of_object ht') (allMembers?_of_object hs') fun m hm => ?_)
    obtain ⟨key, a, isReadonly, rfl⟩ := ht.exists_property ht' hm
    obtain ⟨b, hb, hab⟩ := h key a ⟨isReadonly, hm⟩
    rw [← (ht.property ht' ⟨isReadonly, hm⟩).orAny_eq, ← (hs.property hs' hb).orAny_eq] at hab
    obtain ⟨isReadonly', hn⟩ := hb
    exact .named rfl (by rw [hs.findMembers_eq hs' hn]; rfl) hab

end Rules

/-! ## Sources by their branches -/

section Branches

variable {u t s a b c : Ty}

/-- A record may be used where those of its branches may be used that are compared. -/
theorem assignable_of_branches (hu : D.head u ≠ .this) (hs : D.IsRecord s)
    (h : ∀ x, D.HasBranch s x → (D.head x).isCompared = true → D.Assignable u x) :
    D.Assignable u s := by
  obtain ⟨n, hheight⟩ := hs.acyclic
  refine (assignable_iff_forall_branch hu hheight).2 fun x hx => ?_
  by_cases hnever : D.head x = .never
  · exact assignable_of_bottom hu (.inr (isNever_iff.2 hnever))
  · exact h x hx ((hs.of_branch hx).isCompared (fun _ => hx.not_union) hnever)

/-- A union accepts what one of its branches accepts. -/
theorem assignable_of_mem_union {bs : List Ty} (ht : D.IsRecord t) (hs : D.IsRecord s)
    (hbs : D.head t = .union bs) (hb : b ∈ bs) (h : D.Assignable b s) : D.Assignable t s := by
  have hbranch : D.IsRecord b := ht.part (by rw [hbs]; exact hb)
  obtain ⟨n, hheight⟩ := hs.acyclic
  refine assignable_of_branches ht.ne_this hs fun x hx hcompared => assignable_iff_follows.2 ?_
  have hbx := (assignable_iff_forall_branch hbranch.ne_this hheight).1 h x hx
  rw [ht.orAny_eq, (hs.of_branch hx).orAny_eq]
  exact .shape ht.ne_this hcompared (.union hbs hb hbx)

theorem assignable_of_recordRule (ht : D.IsRecord t) (hs : D.IsRecord s)
    (hcompared : (D.head s).isCompared = true) (h : D.RecordRule D.Assignable t s) :
    D.Assignable t s := by
  rw [assignable_iff_follows, ht.orAny_eq, hs.orAny_eq]
  exact follows_of_recordRule ht hs hcompared h

/-- Records that unfold alike may be used for each other. -/
theorem assignable_of_bisimilar (ht : D.IsRecord t) (hs : D.IsRecord s) (h : D.Bisimilar true t s) :
    D.Assignable t s := by
  induction ht generalizing s with
  | @intro t hlayer hparts ih =>
    have ht : D.IsRecord t := .intro hlayer hparts
    have halike : (D.head t).Alike true D.Assignable (D.head s) :=
      (isBisimulation_bisimilar t s h).mono fun x hx y hy hxy => ih x hx (hs.part hy) hxy
    by_cases hunion : ∃ bs, D.head s = .union bs
    · obtain ⟨bs, hbs⟩ := hunion
      rw [hbs] at halike
      generalize has : D.head t = target at halike
      cases halike with
      | union hbranches =>
        refine (assignable_union_iff ht.ne_this hbs).2 fun b hb => ?_
        obtain ⟨a, ha, hab⟩ := exists_of_rel_right hbranches hb
        exact assignable_of_mem_union ht (hs.part (by rw [hbs]; exact hb)) has ha hab
      | raw _ hraw => cases hraw
    · by_cases hnever : D.head s = .never
      · exact assignable_of_bottom ht.ne_this (.inr (isNever_iff.2 hnever))
      · have hcompared := hs.isCompared (not_exists.1 hunion) hnever
        exact assignable_of_recordRule ht hs hcompared (recordRule_of_alike ht hcompared halike)

/-- Assignability of a record is decided by the rules for records. -/
theorem assignable_iff_recordRule (ht : D.IsRecord t) (hs : D.IsRecord s)
    (hcompared : (D.head s).isCompared = true) :
    D.Assignable t s ↔ D.RecordRule D.Assignable t s := by
  refine ⟨fun h => ?_, assignable_of_recordRule ht hs hcompared⟩
  rw [assignable_iff_follows, ht.orAny_eq, hs.orAny_eq] at h
  refine recordRule_of_follows ht hs hcompared (fun x hx y hy hxy => ?_) h
  exact assignable_of_bisimilar (ht.part hx) (hs.part hy) hxy

/-! ## Transitivity -/

/-- Transitivity where the second and the third type are compared, and where it holds
below the second. -/
theorem assignable_trans_of_parts (ha : D.IsRecord a) (hb : D.IsRecord b) (hc : D.IsRecord c)
    (hcompared : (D.head b).isCompared = true) (hcompared' : (D.head c).isCompared = true)
    (hbelow : ∀ y ∈ (D.head b).parts, ∀ {x z}, D.IsRecord x → D.IsRecord z → D.Assignable x y →
      D.Assignable y z → D.Assignable x z)
    (hab : D.Assignable a b) (hbc : D.Assignable b c) : D.Assignable a c := by
  induction ha with
  | @intro a hlayer hparts ih =>
    have ha : D.IsRecord a := .intro hlayer hparts
    have hrule : D.RecordRule D.Assignable a c → D.Assignable a c :=
      assignable_of_recordRule ha hc hcompared'
    have hsecond := (assignable_iff_recordRule hb hc hcompared').1 hbc
    cases (assignable_iff_recordRule ha hb hcompared).1 hab with
    | union hta hx hxb =>
      exact assignable_of_mem_union ha hc hta hx (ih _ (by rw [hta]; exact hx) hxb)
    | keyword hta htb => exact hrule (hsecond.of_head_eq (htb.trans hta.symm))
    | widened hta htb =>
      obtain ⟨l', htc, hvalue⟩ := hsecond.exists_literal htb
      exact hrule (.widened (Literal.keyword_eq_of_sameValue hvalue ▸ hta) htc)
    | void hta htb => exact hrule (.void hta (hsecond.head_of_undefined htb))
    | literal hta htb hvalue =>
      obtain ⟨l', htc, hvalue'⟩ := hsecond.exists_literal htb
      exact hrule (.literal hta htc (Literal.sameValue_equivalence.trans hvalue hvalue'))
    | @array x y hta htb hxy =>
      obtain ⟨z, htc, hyz⟩ := hsecond.exists_array htb
      have hx : D.IsRecord x := ha.part (by rw [hta]; exact .head _)
      have hz : D.IsRecord z := hc.part (by rw [htc]; exact .head _)
      exact hrule (.array hta htc (hbelow y (by rw [htb]; exact .head _) hx hz hxy hyz))
    | object hta htb hmembers =>
      obtain ⟨ns, htc, hmembers'⟩ := hsecond.exists_object htb
      refine hrule (.object hta htc fun key x hx => ?_)
      obtain ⟨y, hy, hxy⟩ := hmembers key x hx
      obtain ⟨z, hz, hyz⟩ := hmembers' key y hy
      exact ⟨z, hz, hbelow y (mem_parts_of_property htb hy) (ha.property hta hx)
        (hc.property htc hz) hxy hyz⟩

/-- Assignability of records is transitive. -/
theorem assignable_trans (ha : D.IsRecord a) (hb : D.IsRecord b) (hc : D.IsRecord c)
    (hab : D.Assignable a b) (hbc : D.Assignable b c) : D.Assignable a c := by
  induction hb generalizing a c with
  | @intro b hlayer hparts ih =>
    have hb : D.IsRecord b := .intro hlayer hparts
    obtain ⟨n, hheight⟩ := hc.acyclic
    refine assignable_of_branches ha.ne_this hc fun x hx hcompared => ?_
    have hbx := (assignable_iff_forall_branch hb.ne_this hheight).1 hbc x hx
    have hrecord := hc.of_branch hx
    have hrule := (assignable_iff_recordRule hb hrecord hcompared).1 hbx
    by_cases hunion : ∃ bs, D.head b = .union bs
    · obtain ⟨bs, hbs⟩ := hunion
      obtain ⟨y, hy, hyx⟩ := hrule.exists_branch hbs
      exact ih y (by rw [hbs]; exact hy) ha hrecord
        ((assignable_union_iff ha.ne_this hbs).1 hab y hy) hyx
    · have hcompared' := hb.isCompared (not_exists.1 hunion) (hrule.not_never hcompared)
      exact assignable_trans_of_parts ha hb hrecord hcompared' hcompared
        (fun y hy _ _ hx hz hxy hyz => ih y hy hx hz hxy hyz) hab hbx

end Branches

/-- Assignability is transitive on records.  The search is cut at a depth, and only the
nesting of the outer types matters there. -/
theorem isAssignable_trans {a b c : Ty} {m n : Nat} (ha : D.IsRecord a) (hb : D.IsRecord b)
    (hc : D.IsRecord c) (hm : D.HasNesting m a) (hn : D.HasNesting n c)
    (hdepth : m + n ≤ defaultMaxDepth) (hab : D.isAssignable a b = true)
    (hbc : D.isAssignable b c = true) : D.isAssignable a c = true := by
  obtain ⟨k, hk⟩ := hb.acyclic
  have hfirst : D.Assignable a b :=
    assignable_of_assignableWithin ((isAssignable_iff_assignableWithin hm hk.hasNesting).1 hab)
  have hsecond : D.Assignable b c :=
    assignable_of_assignableWithin ((isAssignable_iff_assignableWithin hk.hasNesting hn).1 hbc)
  exact (isAssignable_iff_assignable hm hn hdepth).2 (assignable_trans ha hb hc hfirst hsecond)

/-- A list of results is widened in two steps, with a union nested in another one and
members that are left behind. -/
theorem isAssignable_trans_results :
    let wide : Ty :=
      .object [.required "items" (.array (.union [.number, .union [.string, .void]]))]
    let middle : Ty := .object
      [.required "done" .boolean, .required "items" (.array (.union [.void, .string, .never]))]
    let narrow : Ty := .object
      [.required "items" (.array (.union [.literal (.string "first"), .undefined])),
        .required "error" (.union []), .required "done" (.literal (.bool true))]
    empty.isAssignable wide middle = true ∧ empty.isAssignable middle narrow = true ∧
      empty.isAssignable wide narrow = true := by
  intro wide middle narrow
  have hwide : empty.HasHeight 5 wide := by decide
  have hnarrow : empty.HasHeight 4 narrow := by decide
  refine ⟨rfl, rfl, ?_⟩
  exact isAssignable_trans (b := middle) (isRecord_of_testRecord (n := 5) (by decide))
    (isRecord_of_testRecord (n := 4) (by decide)) (isRecord_of_testRecord (n := 4) (by decide))
    hwide.hasNesting hnarrow.hasNesting (by decide) rfl rfl

end Decls

end StructuralTyping
