import Mathlib.Data.List.Forall2
import Mathlib.Data.Multiset.ZeroCons
import Mathlib.Logic.Relation
import StructuralTyping.Ty.Equal

/-!
# Types that are alike in their outermost layer

`Ty.Alike names R` compares the outermost layers of two types.  The constructors
are the same and the names and scalar data agree.  Ordered children are related
by `R` in order, and branches and members are paired by some bijection.  With
`names` off, names are not looked at.

The relation is monotone in `R`, and more precisely it only looks at the parts of
the two types.  It commutes with the converse and with the composition of
relations.  So it is an equivalence if `R` is one.
-/

namespace StructuralTyping

/-! ## Names and patterns -/

/-- What a comparison sees of a name. -/
def seen (names : Bool) (s : String) : String := if names then s else ""

theorem equalName_iff {names : Bool} {a b : String} :
    equalName names a b = true ↔ seen names a = seen names b := by
  cases names <;> simp [equalName, seen]

/-- What a comparison sees of a key. -/
def PropKey.seen (names : Bool) (k : PropKey) : PropKey :=
  ⟨StructuralTyping.seen names k.name, k.computed⟩

theorem PropKey.seen_true (k : PropKey) : k.seen true = k := rfl

theorem PropKey.equal_iff {names : Bool} {k l : PropKey} :
    k.equal names l = true ↔ k.seen names = l.seen names := by
  simp only [PropKey.equal, PropKey.seen, Bool.and_eq_true, beq_iff_eq, equalName_iff,
    PropKey.mk.injEq]
  exact and_comm

mutual

/-- What a comparison sees of a pattern. -/
def Pattern.seen (names : Bool) : Pattern → Pattern
  | .hole => .hole
  | .ident a o => .ident (StructuralTyping.seen names a) o
  | .array ps => .array (Pattern.seenList names ps)
  | .object es r => .object (Pattern.seenEntries names es) (r.seen names)
  | .rest p => .rest (p.seen names)
termination_by structural p => p

/-- What a comparison sees of patterns. -/
def Pattern.seenList (names : Bool) : List Pattern → List Pattern
  | [] => []
  | p :: ps => p.seen names :: Pattern.seenList names ps
termination_by structural ps => ps

/-- What a comparison sees of entries. -/
def Pattern.seenEntries (names : Bool) : List (PropKey × Pattern) → List (PropKey × Pattern)
  | [] => []
  | e :: es => Pattern.seenEntry names e :: Pattern.seenEntries names es
termination_by structural es => es

/-- What a comparison sees of an entry. -/
def Pattern.seenEntry (names : Bool) : PropKey × Pattern → PropKey × Pattern
  | (k, p) => (k.seen names, p.seen names)
termination_by structural e => e

end

mutual

/-- With names a comparison sees all of a pattern. -/
theorem Pattern.seen_true : ∀ p : Pattern, p.seen true = p
  | .hole => rfl
  | .ident _ _ => rfl
  | .array ps => congrArg _ (Pattern.seenList_true ps)
  | .object es r => by rw [Pattern.seen, Pattern.seenEntries_true es, r.seen_true]
  | .rest p => congrArg _ p.seen_true
termination_by structural p => p

theorem Pattern.seenList_true : ∀ ps : List Pattern, Pattern.seenList true ps = ps
  | [] => rfl
  | p :: ps => by rw [Pattern.seenList, p.seen_true, Pattern.seenList_true ps]
termination_by structural ps => ps

theorem Pattern.seenEntries_true : ∀ es : List (PropKey × Pattern), Pattern.seenEntries true es = es
  | [] => rfl
  | e :: es => by rw [Pattern.seenEntries, Pattern.seenEntry_true e, Pattern.seenEntries_true es]
termination_by structural es => es

theorem Pattern.seenEntry_true : ∀ e : PropKey × Pattern, Pattern.seenEntry true e = e
  | (k, p) => by rw [Pattern.seenEntry, k.seen_true, p.seen_true]
termination_by structural e => e

end

mutual

theorem Pattern.equal_iff {names : Bool} :
    ∀ {p q : Pattern}, p.equal names q = true ↔ p.seen names = q.seen names
  | .hole, q => by cases q <;> simp [Pattern.equal, Pattern.seen]
  | .ident _ _, q => by
      cases q with
      | ident =>
          simp only [Pattern.equal, Pattern.seen, Bool.and_eq_true, beq_iff_eq, equalName_iff,
            Pattern.ident.injEq]
          exact and_comm
      | _ => simp [Pattern.equal, Pattern.seen]
  | .array ps, q => by
      cases q with
      | array qs => simp [Pattern.equal, Pattern.seen, @Pattern.equalList_iff names ps qs]
      | _ => simp [Pattern.equal, Pattern.seen]
  | .object es r, q => by
      cases q with
      | object fs s =>
          simp only [Pattern.equal, Pattern.seen, Bool.and_eq_true, Pattern.object.injEq,
            Pattern.equal_iff (p := r) (q := s), @Pattern.equalEntries_iff names es fs]
          exact and_comm
      | _ => simp [Pattern.equal, Pattern.seen]
  | .rest p, q => by
      cases q with
      | rest q => simp [Pattern.equal, Pattern.seen, Pattern.equal_iff (p := p) (q := q)]
      | _ => simp [Pattern.equal, Pattern.seen]
termination_by structural p => p

theorem Pattern.equalList_iff {names : Bool} :
    ∀ {ps qs : List Pattern},
      Pattern.equalList names ps qs = true ↔ Pattern.seenList names ps = Pattern.seenList names qs
  | [], qs => by cases qs <;> simp [Pattern.equalList, Pattern.seenList]
  | p :: ps, qs => by
      cases qs with
      | nil => simp [Pattern.equalList, Pattern.seenList]
      | cons q qs =>
          simp [Pattern.equalList, Pattern.seenList, Pattern.equal_iff (p := p) (q := q),
            @Pattern.equalList_iff names ps qs]
termination_by structural ps => ps

theorem Pattern.equalEntries_iff {names : Bool} :
    ∀ {es fs : List (PropKey × Pattern)},
      Pattern.equalEntries names es fs = true ↔
        Pattern.seenEntries names es = Pattern.seenEntries names fs
  | [], fs => by cases fs <;> simp [Pattern.equalEntries, Pattern.seenEntries]
  | e :: es, fs => by
      cases fs with
      | nil => simp [Pattern.equalEntries, Pattern.seenEntries]
      | cons f fs =>
          simp [Pattern.equalEntries, Pattern.seenEntries, Pattern.equalEntry_iff (e := e) (f := f),
            @Pattern.equalEntries_iff names es fs]
termination_by structural es => es

theorem Pattern.equalEntry_iff {names : Bool} :
    ∀ {e f : PropKey × Pattern},
      Pattern.equalEntry names e f = true ↔ Pattern.seenEntry names e = Pattern.seenEntry names f
  | (k, p), (l, q) => by
      simp [Pattern.equalEntry, Pattern.seenEntry, PropKey.equal_iff,
        Pattern.equal_iff (p := p) (q := q)]
termination_by structural e => e

end

/-! ## Parts -/

/-- The types that a signature is made of. -/
def Signature.parts : Signature → List Ty
  | .absent => []
  | .mk ts ps r => ts.map (·.bound) ++ ps.map (·.type) ++ [r]

/-- The types that a member is made of. -/
def Member.parts : Member → List Ty
  | .property _ t _ _ => [t]
  | .method _ _ s => s.parts
  | .call s => s.parts
  | .construct s => s.parts
  | .index _ k t _ => [k, t]

/-- The types that a type is made of. -/
def Ty.parts : Ty → List Ty
  | .array e => [e]
  | .tuple es => es
  | .union bs => bs
  | .inter bs => bs
  | .object ms => ms.flatMap (·.parts)
  | .interface _ ts ms bs => ts.map (·.bound) ++ ms.flatMap (·.parts) ++ bs
  | .classType _ ts ms b => ts.map (·.bound) ++ ms.flatMap (·.parts) ++ [b]
  | .function s => s.parts
  | .ctor s => s.parts
  | .param _ b => [b]
  | .indexed o i => [o, i]
  | _ => []

/-! ## Layers -/

/-- Type parameters that are alike. -/
def TypeParam.Alike (names : Bool) (R : Ty → Ty → Prop) (a b : TypeParam) : Prop :=
  seen names a.name = seen names b.name ∧ R a.bound b.bound

/-- Parameters that are alike. -/
def Param.Alike (names : Bool) (R : Ty → Ty → Prop) (p q : Param) : Prop :=
  p.pattern.seen names = q.pattern.seen names ∧ R p.type q.type

/-- Signatures that are alike. -/
inductive Signature.Alike (names : Bool) (R : Ty → Ty → Prop) : Signature → Signature → Prop where
  | absent : Alike names R .absent .absent
  | mk {ts us : List TypeParam} {ps qs : List Param} {r s : Ty}
      (htypeParams : List.Forall₂ (TypeParam.Alike names R) ts us)
      (hparams : List.Forall₂ (Param.Alike names R) ps qs) (hresult : R r s) :
      Alike names R (.mk ts ps r) (.mk us qs s)

/-- Members that are alike. -/
inductive Member.Alike (names : Bool) (R : Ty → Ty → Prop) : Member → Member → Prop where
  | property {k l : PropKey} {a b : Ty} {o r : Bool} (hkey : k.seen names =
    l.seen names) (h : R a b) :
      Alike names R (.property k a o r) (.property l b o r)
  | method {k l : PropKey} {o : Bool} {s t : Signature} (hkey : k.seen names = l.seen names)
      (h : s.Alike names R t) : Alike names R (.method k o s) (.method l o t)
  | call {s t : Signature} (h : s.Alike names R t) : Alike names R (.call s) (.call t)
  | construct {s t : Signature} (h : s.Alike names R t) :
      Alike names R (.construct s) (.construct t)
  | index {p q : String} {k l a b : Ty} {r : Bool} (hparam : seen names p = seen names q)
      (hkey : R k l) (h : R a b) : Alike names R (.index p k a r) (.index q l b r)

/-- Types whose outermost layers are alike, with the children related by `R`. -/
inductive Ty.Alike (names : Bool) (R : Ty → Ty → Prop) : Ty → Ty → Prop where
  | missing : Alike names R .missing .missing
  | keyword (k : Keyword) : Alike names R (.keyword k) (.keyword k)
  | literal {a b : Literal} (h : a.sameValue b = true) : Alike names R (.literal a) (.literal b)
  | array {a b : Ty} (h : R a b) : Alike names R (.array a) (.array b)
  | tuple {as bs : List Ty} (h : List.Forall₂ R as bs) : Alike names R (.tuple as) (.tuple bs)
  | union {as bs : List Ty} (h : Multiset.Rel R (as : Multiset Ty) (bs : Multiset Ty)) :
      Alike names R (.union as) (.union bs)
  | inter {as bs : List Ty} (h : Multiset.Rel R (as : Multiset Ty) (bs : Multiset Ty)) :
      Alike names R (.inter as) (.inter bs)
  | object {ms ns : List Member}
      (h : Multiset.Rel (Member.Alike names R) (ms : Multiset Member) (ns : Multiset Member)) :
      Alike names R (.object ms) (.object ns)
  | interface {a b : String} {ts us : List TypeParam} {ms ns : List Member} {as bs : List Ty}
      (hname : seen names a = seen names b)
      (htypeParams : List.Forall₂ (TypeParam.Alike names R) ts us)
      (hmembers : Multiset.Rel (Member.Alike names R) (ms : Multiset Member) (ns : Multiset Member))
      (hbases : List.Forall₂ R as bs) : Alike names R (.interface a ts ms as)
      (.interface b us ns bs)
  | classType {a b : String} {ts us : List TypeParam} {ms ns : List Member} {s t : Ty}
      (hname : seen names a = seen names b)
      (htypeParams : List.Forall₂ (TypeParam.Alike names R) ts us)
      (hmembers : Multiset.Rel (Member.Alike names R) (ms : Multiset Member) (ns : Multiset Member))
      (hbase : R s t) : Alike names R (.classType a ts ms s) (.classType b us ns t)
  | function {s t : Signature} (h : s.Alike names R t) : Alike names R (.function s) (.function t)
  | ctor {s t : Signature} (h : s.Alike names R t) : Alike names R (.ctor s) (.ctor t)
  | enum {a b : String} {ms ns : List String} {c : Bool} (hname : seen names a = seen names b)
      (hmembers : ms.map (seen names) = ns.map (seen names)) : Alike names R (.enum a ms c)
      (.enum b ns c)
  | variant {a b m n : String} (hname : seen names a = seen names b)
      (hmember : seen names m = seen names n) : Alike names R (.variant a m) (.variant b n)
  | param {a b : String} {s t : Ty} (hname : seen names a = seen names b) (h : R s t) :
      Alike names R (.param a s) (.param b t)
  | this : Alike names R .this .this
  | indexed {a b i j : Ty} (hobject : R a b) (hindex : R i j) :
      Alike names R (.indexed a i) (.indexed b j)
  | raw {a b : Ty} {text : String} (ha : a.raw? = some text) (hb : b.raw? = some text) :
      Alike names R a b
  | named (n : TypeName) : Alike names R (.named n) (.named n)

/-! ## Equal parts -/

theorem eq_of_forall₂ {α : Type*} {S : α → α → Prop} (hS : ∀ a b, S a b → a = b) {as bs : List α}
    (h : List.Forall₂ S as bs) : as = bs := by
  rw [← List.forall₂_eq_eq_eq]
  exact h.imp hS

theorem TypeParam.Alike.eq {t u : TypeParam} (h : t.Alike true Eq u) : t = u := by
  cases t
  cases u
  obtain ⟨hname, hbound⟩ := h
  cases hname
  cases hbound
  rfl

theorem Param.Alike.eq {p q : Param} (h : p.Alike true Eq q) : p = q := by
  obtain ⟨hpattern, htype⟩ := h
  rw [Pattern.seen_true, Pattern.seen_true] at hpattern
  cases p
  cases q
  cases hpattern
  cases htype
  rfl

theorem Signature.Alike.eq {s t : Signature} (h : s.Alike true Eq t) : s = t := by
  cases h with
  | absent => rfl
  | mk htypeParams hparams hresult =>
    rw [eq_of_forall₂ (fun _ _ => TypeParam.Alike.eq) htypeParams,
      eq_of_forall₂ (fun _ _ => Param.Alike.eq) hparams, hresult]

theorem Member.Alike.eq {m n : Member} (h : m.Alike true Eq n) : m = n := by
  cases h with
  | @property k l _ _ _ _ hkey h =>
    obtain rfl : k = l := hkey
    rw [h]
  | @method k l _ _ _ hkey h =>
    obtain rfl : k = l := hkey
    rw [h.eq]
  | call h => rw [h.eq]
  | construct h => rw [h.eq]
  | @index p q _ _ _ _ _ hparam hkey h =>
    obtain rfl : p = q := hparam
    rw [hkey, h]

/-! ## Monotonicity -/

/-- A relation of lists element by element only looks at the elements. -/
theorem forall₂_mono {α β : Type*} {R S : α → β → Prop} :
    ∀ {as : List α} {bs : List β}, List.Forall₂ R as bs →
      (∀ a ∈ as, ∀ b ∈ bs, R a b → S a b) → List.Forall₂ S as bs
  | _, _, .nil, _ => .nil
  | _, _, .cons hab h, hRS =>
      .cons (hRS _ (.head _) _ (.head _) hab)
        (forall₂_mono h fun a ha b hb => hRS a (.tail _ ha) b (.tail _ hb))

theorem rel_of_forall₂ {α β : Type*} {S : α → β → Prop} {as : List α} {bs : List β}
    (h : List.Forall₂ S as bs) : Multiset.Rel S (as : Multiset α) (bs : Multiset β) := by
  induction h with
  | nil => exact .zero
  | cons hab _ ih =>
    rw [← Multiset.cons_coe, ← Multiset.cons_coe]
    exact .cons hab ih

theorem forall₂_map_self {α : Type*} {S : α → α → Prop} {f : α → α} {as : List α}
    (h : ∀ a ∈ as, S (f a) a) : List.Forall₂ S (as.map f) as :=
  List.forall₂_map_left_iff.2 (List.forall₂_same.2 h)

section Mono

variable {names : Bool} {R S : Ty → Ty → Prop}

theorem forall₂_typeParams_mono {ts us : List TypeParam}
    (h : List.Forall₂ (TypeParam.Alike names R) ts us)
    (hRS : ∀ a ∈ ts.map (·.bound), ∀ b ∈ us.map (·.bound), R a b → S a b) :
    List.Forall₂ (TypeParam.Alike names S) ts us :=
  forall₂_mono h fun _ ha _ hb hab =>
    ⟨hab.1, hRS _ (List.mem_map_of_mem ha) _ (List.mem_map_of_mem hb) hab.2⟩

theorem Signature.Alike.mono {s t : Signature} (h : s.Alike names R t)
    (hRS : ∀ a ∈ s.parts, ∀ b ∈ t.parts, R a b → S a b) : s.Alike names S t := by
  cases h with
  | absent => exact .absent
  | mk htypeParams hparams hresult =>
    simp only [Signature.parts, List.mem_append, List.mem_singleton] at hRS
    refine .mk ?_ ?_ (hRS _ (.inr rfl) _ (.inr rfl) hresult)
    · exact forall₂_typeParams_mono htypeParams fun a ha b hb =>
        hRS a (.inl (.inl ha)) b (.inl (.inl hb))
    · exact forall₂_mono hparams fun _ hp _ hq hpq =>
        ⟨hpq.1, hRS _ (.inl (.inr (List.mem_map_of_mem hp))) _
          (.inl (.inr (List.mem_map_of_mem hq))) hpq.2⟩

theorem Member.Alike.mono {m n : Member} (h : m.Alike names R n)
    (hRS : ∀ a ∈ m.parts, ∀ b ∈ n.parts, R a b → S a b) : m.Alike names S n := by
  cases h with
  | property hkey h => exact .property hkey (hRS _ (.head _) _ (.head _) h)
  | method hkey h => exact .method hkey (h.mono hRS)
  | call h => exact .call (h.mono hRS)
  | construct h => exact .construct (h.mono hRS)
  | index hparam hkey h =>
    exact .index hparam (hRS _ (.head _) _ (.head _) hkey)
      (hRS _ (.tail _ (.head _)) _ (.tail _ (.head _)) h)

theorem rel_members_mono {ms ns : List Member}
    (h : Multiset.Rel (Member.Alike names R) (ms : Multiset Member) (ns : Multiset Member))
    (hRS : ∀ a ∈ ms.flatMap (·.parts), ∀ b ∈ ns.flatMap (·.parts), R a b → S a b) :
    Multiset.Rel (Member.Alike names S) (ms : Multiset Member) (ns : Multiset Member) :=
  h.mono fun _ hm _ hn hmn => hmn.mono fun a ha b hb =>
    hRS a (List.mem_flatMap.2 ⟨_, hm, ha⟩) b (List.mem_flatMap.2 ⟨_, hn, hb⟩)

/-- Layers stay alike when the relation of the children grows. -/
theorem Ty.Alike.mono {a b : Ty} (h : a.Alike names R b)
    (hRS : ∀ x ∈ a.parts, ∀ y ∈ b.parts, R x y → S x y) : a.Alike names S b := by
  cases h with
  | missing => exact .missing
  | keyword k => exact .keyword k
  | literal h => exact .literal h
  | array h => exact .array (hRS _ (.head _) _ (.head _) h)
  | tuple h => exact .tuple (forall₂_mono h hRS)
  | union h => exact .union (h.mono hRS)
  | inter h => exact .inter (h.mono hRS)
  | object h => exact .object (rel_members_mono h hRS)
  | interface hname htypeParams hmembers hbases =>
    simp only [Ty.parts, List.mem_append] at hRS
    refine .interface hname ?_ ?_ ?_
    · exact forall₂_typeParams_mono htypeParams fun x hx y hy =>
        hRS x (.inl (.inl hx)) y (.inl (.inl hy))
    · exact rel_members_mono hmembers fun x hx y hy => hRS x (.inl (.inr hx)) y (.inl (.inr hy))
    · exact forall₂_mono hbases fun x hx y hy => hRS x (.inr hx) y (.inr hy)
  | classType hname htypeParams hmembers hbase =>
    simp only [Ty.parts, List.mem_append, List.mem_singleton] at hRS
    refine .classType hname ?_ ?_ (hRS _ (.inr rfl) _ (.inr rfl) hbase)
    · exact forall₂_typeParams_mono htypeParams fun x hx y hy =>
        hRS x (.inl (.inl hx)) y (.inl (.inl hy))
    · exact rel_members_mono hmembers fun x hx y hy => hRS x (.inl (.inr hx)) y (.inl (.inr hy))
  | function h => exact .function (h.mono hRS)
  | ctor h => exact .ctor (h.mono hRS)
  | enum hname hmembers => exact .enum hname hmembers
  | variant hname hmember => exact .variant hname hmember
  | param hname h => exact .param hname (hRS _ (.head _) _ (.head _) h)
  | this => exact .this
  | indexed hobject hindex =>
    exact .indexed (hRS _ (.head _) _ (.head _) hobject)
      (hRS _ (.tail _ (.head _)) _ (.tail _ (.head _)) hindex)
  | raw ha hb => exact .raw ha hb
  | named n => exact .named n

end Mono

/-! ## Related parts -/

theorem exists_of_forall₂ {α β : Type*} {R : α → β → Prop} {a : α} :
    ∀ {as : List α} {bs : List β}, List.Forall₂ R as bs → a ∈ as → ∃ b ∈ bs, R a b
  | _, _, .cons hab h, ha => by
      rcases List.mem_cons.1 ha with rfl | ha
      · exact ⟨_, .head _, hab⟩
      · obtain ⟨b, hb, hab⟩ := exists_of_forall₂ h ha
        exact ⟨b, .tail _ hb, hab⟩

section Parts

variable {names : Bool} {R : Ty → Ty → Prop} {x : Ty}

theorem exists_bound {ts us : List TypeParam} (h : List.Forall₂ (TypeParam.Alike names R) ts us)
    (hx : x ∈ ts.map (·.bound)) : ∃ y ∈ us.map (·.bound), R x y := by
  obtain ⟨t, ht, rfl⟩ := List.mem_map.1 hx
  obtain ⟨u, hu, htu⟩ := exists_of_forall₂ h ht
  exact ⟨_, List.mem_map_of_mem hu, htu.2⟩

theorem Signature.Alike.exists_part {s t : Signature} (h : s.Alike names R t) (hx : x ∈ s.parts) :
    ∃ y ∈ t.parts, R x y := by
  cases h with
  | absent => cases hx
  | mk htypeParams hparams hresult =>
    simp only [Signature.parts, List.mem_append, List.mem_singleton] at hx ⊢
    rcases hx with (hx | hx) | rfl
    · obtain ⟨y, hy, hxy⟩ := exists_bound htypeParams hx
      exact ⟨y, .inl (.inl hy), hxy⟩
    · obtain ⟨p, hp, rfl⟩ := List.mem_map.1 hx
      obtain ⟨q, hq, hpq⟩ := exists_of_forall₂ hparams hp
      exact ⟨_, .inl (.inr (List.mem_map_of_mem hq)), hpq.2⟩
    · exact ⟨_, .inr rfl, hresult⟩

theorem Member.Alike.exists_part {m n : Member} (h : m.Alike names R n) (hx : x ∈ m.parts) :
    ∃ y ∈ n.parts, R x y := by
  cases h with
  | property _ h => exact ⟨_, .head _, (List.mem_singleton.1 hx) ▸ h⟩
  | method _ h | call h | construct h => exact h.exists_part hx
  | index _ hkey h =>
    simp only [Member.parts, List.mem_cons, List.not_mem_nil, or_false] at hx
    rcases hx with rfl | rfl
    · exact ⟨_, .head _, hkey⟩
    · exact ⟨_, .tail _ (.head _), h⟩

theorem exists_member_part {ms ns : List Member}
    (h : Multiset.Rel (Member.Alike names R) (ms : Multiset Member) (ns : Multiset Member))
    (hx : x ∈ ms.flatMap (·.parts)) : ∃ y ∈ ns.flatMap (·.parts), R x y := by
  obtain ⟨m, hm, hx⟩ := List.mem_flatMap.1 hx
  obtain ⟨n, hn, hmn⟩ := Multiset.exists_mem_of_rel_of_mem h hm
  obtain ⟨y, hy, hxy⟩ := hmn.exists_part hx
  exact ⟨y, List.mem_flatMap.2 ⟨n, hn, hy⟩, hxy⟩

/-- In layers that are alike, every part of the first is related to one of the
second. -/
theorem Ty.Alike.exists_part {a b : Ty} (h : a.Alike names R b) (hx : x ∈ a.parts) :
    ∃ y ∈ b.parts, R x y := by
  cases h with
  | array h | param _ h => exact ⟨_, .head _, (List.mem_singleton.1 hx) ▸ h⟩
  | tuple h => exact exists_of_forall₂ h hx
  | union h | inter h => exact Multiset.exists_mem_of_rel_of_mem h hx
  | object h => exact exists_member_part h hx
  | interface _ htypeParams hmembers hbases =>
    simp only [Ty.parts, List.mem_append] at hx ⊢
    rcases hx with (hx | hx) | hx
    · obtain ⟨y, hy, hxy⟩ := exists_bound htypeParams hx
      exact ⟨y, .inl (.inl hy), hxy⟩
    · obtain ⟨y, hy, hxy⟩ := exists_member_part hmembers hx
      exact ⟨y, .inl (.inr hy), hxy⟩
    · obtain ⟨y, hy, hxy⟩ := exists_of_forall₂ hbases hx
      exact ⟨y, .inr hy, hxy⟩
  | classType _ htypeParams hmembers hbase =>
    simp only [Ty.parts, List.mem_append, List.mem_singleton] at hx ⊢
    rcases hx with (hx | hx) | rfl
    · obtain ⟨y, hy, hxy⟩ := exists_bound htypeParams hx
      exact ⟨y, .inl (.inl hy), hxy⟩
    · obtain ⟨y, hy, hxy⟩ := exists_member_part hmembers hx
      exact ⟨y, .inl (.inr hy), hxy⟩
    · exact ⟨_, .inr rfl, hbase⟩
  | function h | ctor h => exact h.exists_part hx
  | indexed hobject hindex =>
    simp only [Ty.parts, List.mem_cons, List.not_mem_nil, or_false] at hx
    rcases hx with rfl | rfl
    · exact ⟨_, .head _, hobject⟩
    · exact ⟨_, .tail _ (.head _), hindex⟩
  | raw ha =>
    have hparts : a.parts = [] := by cases a <;> first | rfl | cases ha
    rw [hparts] at hx
    cases hx
  | missing | keyword | literal | enum | variant | this | named => cases hx

end Parts

/-! ## Literals -/

theorem Binary64.sameValue_equivalence :
    Equivalence fun x y : Binary64 => x.sameValue y = true where
  refl x := by simp [Binary64.sameValue]
  symm h := by
    simp only [Binary64.sameValue, Bool.or_eq_true, beq_iff_eq, Bool.and_eq_true] at h ⊢
    exact h.imp Eq.symm And.symm
  trans h h' := by
    simp only [Binary64.sameValue, Bool.or_eq_true, beq_iff_eq, Bool.and_eq_true] at h h' ⊢
    rcases h with rfl | h
    · exact h'
    · rcases h' with rfl | h'
      · exact .inr h
      · exact .inr ⟨h.1, h'.2⟩

theorem Literal.sameValue_equivalence : Equivalence fun a b : Literal => a.sameValue b = true where
  refl a := by
    cases a with
    | number x => exact Binary64.sameValue_equivalence.refl x
    | _ => simp [Literal.sameValue]
  symm {a b} h := by
    cases a <;> cases b <;> simp only [Literal.sameValue, beq_iff_eq, Bool.false_eq_true] at h ⊢
    case bool.bool => exact h.symm
    case number.number => exact Binary64.sameValue_equivalence.symm h
    case string.string => exact h.symm
  trans {a b c} h h' := by
    cases a <;> cases b <;> simp only [Literal.sameValue, beq_iff_eq, Bool.false_eq_true] at h <;>
      cases c <;> simp only [Literal.sameValue, beq_iff_eq, Bool.false_eq_true] at h' ⊢
    case bool.bool.bool => exact h.trans h'
    case number.number.number => exact Binary64.sameValue_equivalence.trans h h'
    case string.string.string => exact h.trans h'

/-! ## Converse and composition -/

theorem forall₂_comp {α β γ : Type*} {R : α → β → Prop} {S : β → γ → Prop} :
    ∀ {as : List α} {bs : List β} {cs : List γ}, List.Forall₂ R as bs → List.Forall₂ S bs cs →
      List.Forall₂ (Relation.Comp R S) as cs
  | _, _, _, .nil, .nil => .nil
  | _, _, _, .cons hab h, .cons hbc h' => .cons ⟨_, hab, hbc⟩ (forall₂_comp h h')

theorem rel_comp {α β γ : Type*} {R : α → β → Prop} {S : β → γ → Prop} {s : Multiset α}
    {t : Multiset β} {u : Multiset γ} (h : Multiset.Rel R s t) (h' : Multiset.Rel S t u) :
    Multiset.Rel (Relation.Comp R S) s u := by
  induction h generalizing u with
  | zero =>
    rw [Multiset.rel_zero_left.1 h']
    exact .zero
  | cons hab _ ih =>
    obtain ⟨c, u', hbc, hrest, rfl⟩ := Multiset.rel_cons_left.1 h'
    exact .cons ⟨_, hab, hbc⟩ (ih hrest)

section Converse

variable {names : Bool} {R : Ty → Ty → Prop}

theorem TypeParam.Alike.flip {t u : TypeParam} (h : t.Alike names R u) :
    u.Alike names (fun x y => R y x) t := ⟨h.1.symm, h.2⟩

theorem Param.Alike.flip {p q : Param} (h : p.Alike names R q) :
    q.Alike names (fun x y => R y x) p := ⟨h.1.symm, h.2⟩

theorem Signature.Alike.flip {s t : Signature} (h : s.Alike names R t) :
    t.Alike names (fun x y => R y x) s := by
  cases h with
  | absent => exact .absent
  | mk htypeParams hparams hresult =>
    exact .mk (htypeParams.imp fun _ _ => .flip).flip (hparams.imp fun _ _ => .flip).flip hresult

theorem Member.Alike.flip {m n : Member} (h : m.Alike names R n) :
    n.Alike names (fun x y => R y x) m := by
  cases h with
  | property hkey h => exact .property hkey.symm h
  | method hkey h => exact .method hkey.symm h.flip
  | call h => exact .call h.flip
  | construct h => exact .construct h.flip
  | index hparam hkey h => exact .index hparam.symm hkey h

theorem rel_members_flip {s t : Multiset Member} (h : Multiset.Rel (Member.Alike names R) s t) :
    Multiset.Rel (Member.Alike names fun x y => R y x) t s :=
  Multiset.rel_flip.1 (h.mono fun _ _ _ _ => .flip)

/-- Layers that are alike are alike the other way round, with the children related
the other way round. -/
theorem Ty.Alike.flip {a b : Ty} (h : a.Alike names R b) : b.Alike names (fun x y => R y x) a := by
  cases h with
  | missing => exact .missing
  | keyword k => exact .keyword k
  | literal h => exact .literal (Literal.sameValue_equivalence.symm h)
  | array h => exact .array h
  | tuple h => exact .tuple h.flip
  | union h => exact .union (Multiset.rel_flip.2 h)
  | inter h => exact .inter (Multiset.rel_flip.2 h)
  | object h => exact .object (rel_members_flip h)
  | interface hname htypeParams hmembers hbases =>
    exact .interface hname.symm (htypeParams.imp fun _ _ => .flip).flip (rel_members_flip hmembers)
      hbases.flip
  | classType hname htypeParams hmembers hbase =>
    exact .classType hname.symm (htypeParams.imp fun _ _ => .flip).flip
      (rel_members_flip hmembers) hbase
  | function h => exact .function h.flip
  | ctor h => exact .ctor h.flip
  | enum hname hmembers => exact .enum hname.symm hmembers.symm
  | variant hname hmember => exact .variant hname.symm hmember.symm
  | param hname h => exact .param hname.symm h
  | this => exact .this
  | indexed hobject hindex => exact .indexed hobject hindex
  | raw ha hb => exact .raw hb ha
  | named n => exact .named n

end Converse

section Composition

variable {names : Bool} {R S : Ty → Ty → Prop}

theorem TypeParam.Alike.comp {t u v : TypeParam} (h : t.Alike names R u) (h' : u.Alike names S v) :
    t.Alike names (Relation.Comp R S) v := ⟨h.1.trans h'.1, _, h.2, h'.2⟩

theorem Param.Alike.comp {p q r : Param} (h : p.Alike names R q) (h' : q.Alike names S r) :
    p.Alike names (Relation.Comp R S) r := ⟨h.1.trans h'.1, _, h.2, h'.2⟩

theorem forall₂_typeParams_comp {ts us vs : List TypeParam}
    (h : List.Forall₂ (TypeParam.Alike names R) ts us)
    (h' : List.Forall₂ (TypeParam.Alike names S) us vs) :
    List.Forall₂ (TypeParam.Alike names (Relation.Comp R S)) ts vs :=
  (forall₂_comp h h').imp fun _ _ ⟨_, htu, huv⟩ => htu.comp huv

theorem Signature.Alike.comp {s t u : Signature} (h : s.Alike names R t) (h' : t.Alike names S u) :
    s.Alike names (Relation.Comp R S) u := by
  cases h with
  | absent =>
    cases h' with
    | absent => exact .absent
  | mk htypeParams hparams hresult =>
    cases h' with
    | mk htypeParams' hparams' hresult' =>
      exact .mk (forall₂_typeParams_comp htypeParams htypeParams')
        ((forall₂_comp hparams hparams').imp fun _ _ ⟨_, hpq, hqr⟩ => hpq.comp hqr)
        ⟨_, hresult, hresult'⟩

theorem Member.Alike.comp {l m n : Member} (h : l.Alike names R m) (h' : m.Alike names S n) :
    l.Alike names (Relation.Comp R S) n := by
  cases h with
  | property hkey h =>
    cases h' with
    | property hkey' h' => exact .property (hkey.trans hkey') ⟨_, h, h'⟩
  | method hkey h =>
    cases h' with
    | method hkey' h' => exact .method (hkey.trans hkey') (h.comp h')
  | call h =>
    cases h' with
    | call h' => exact .call (h.comp h')
  | construct h =>
    cases h' with
    | construct h' => exact .construct (h.comp h')
  | index hparam hkey h =>
    cases h' with
    | index hparam' hkey' h' => exact .index (hparam.trans hparam') ⟨_, hkey, hkey'⟩ ⟨_, h, h'⟩

theorem rel_members_comp {s t u : Multiset Member} (h : Multiset.Rel (Member.Alike names R) s t)
    (h' : Multiset.Rel (Member.Alike names S) t u) :
    Multiset.Rel (Member.Alike names (Relation.Comp R S)) s u :=
  (rel_comp h h').mono fun _ _ _ _ ⟨_, hlm, hmn⟩ => hlm.comp hmn

/-- Layers that are alike one after the other are alike, with the children related
one after the other. -/
theorem Ty.Alike.comp {a b c : Ty} (h : a.Alike names R b) (h' : b.Alike names S c) :
    a.Alike names (Relation.Comp R S) c := by
  cases h with
  | missing =>
    cases h' with
    | missing => exact .missing
    | raw hb => cases hb
  | keyword k =>
    cases h' with
    | keyword => exact .keyword k
    | raw hb => cases hb
  | literal h =>
    cases h' with
    | literal h' => exact .literal (Literal.sameValue_equivalence.trans h h')
    | raw hb => cases hb
  | array h =>
    cases h' with
    | array h' => exact .array ⟨_, h, h'⟩
    | raw hb => cases hb
  | tuple h =>
    cases h' with
    | tuple h' => exact .tuple (forall₂_comp h h')
    | raw hb => cases hb
  | union h =>
    cases h' with
    | union h' => exact .union (rel_comp h h')
    | raw hb => cases hb
  | inter h =>
    cases h' with
    | inter h' => exact .inter (rel_comp h h')
    | raw hb => cases hb
  | object h =>
    cases h' with
    | object h' => exact .object (rel_members_comp h h')
    | raw hb => cases hb
  | interface hname htypeParams hmembers hbases =>
    cases h' with
    | interface hname' htypeParams' hmembers' hbases' =>
      exact .interface (hname.trans hname') (forall₂_typeParams_comp htypeParams htypeParams')
        (rel_members_comp hmembers hmembers') (forall₂_comp hbases hbases')
    | raw hb => cases hb
  | classType hname htypeParams hmembers hbase =>
    cases h' with
    | classType hname' htypeParams' hmembers' hbase' =>
      exact .classType (hname.trans hname') (forall₂_typeParams_comp htypeParams htypeParams')
        (rel_members_comp hmembers hmembers') ⟨_, hbase, hbase'⟩
    | raw hb => cases hb
  | function h =>
    cases h' with
    | function h' => exact .function (h.comp h')
    | raw hb => cases hb
  | ctor h =>
    cases h' with
    | ctor h' => exact .ctor (h.comp h')
    | raw hb => cases hb
  | enum hname hmembers =>
    cases h' with
    | enum hname' hmembers' => exact .enum (hname.trans hname') (hmembers.trans hmembers')
    | raw hb => cases hb
  | variant hname hmember =>
    cases h' with
    | variant hname' hmember' => exact .variant (hname.trans hname') (hmember.trans hmember')
    | raw hb => cases hb
  | param hname h =>
    cases h' with
    | param hname' h' => exact .param (hname.trans hname') ⟨_, h, h'⟩
    | raw hb => cases hb
  | this =>
    cases h' with
    | this => exact .this
    | raw hb => cases hb
  | indexed hobject hindex =>
    cases h' with
    | indexed hobject' hindex' => exact .indexed ⟨_, hobject, hobject'⟩ ⟨_, hindex, hindex'⟩
    | raw hb => cases hb
  | raw ha hb =>
    cases h' with
    | raw hb' hc =>
      obtain rfl := Option.some.inj (hb.symm.trans hb')
      exact .raw ha hc
    | _ => cases hb
  | named n =>
    cases h' with
    | named => exact .named n
    | raw hb => cases hb

end Composition

/-! ## Equivalence -/

section Equivalence

variable (names : Bool) {R : Ty → Ty → Prop}

theorem Signature.alike_refl (hR : ∀ x, R x x) (s : Signature) : s.Alike names R s := by
  cases s with
  | absent => exact .absent
  | mk ts ps r =>
    exact .mk (List.forall₂_same.2 fun t _ => ⟨rfl, hR t.bound⟩)
      (List.forall₂_same.2 fun p _ => ⟨rfl, hR p.type⟩) (hR r)

theorem Member.alike_refl (hR : ∀ x, R x x) (m : Member) : m.Alike names R m := by
  cases m with
  | property => exact .property rfl (hR _)
  | method => exact .method rfl (Signature.alike_refl names hR _)
  | call => exact .call (Signature.alike_refl names hR _)
  | construct => exact .construct (Signature.alike_refl names hR _)
  | index => exact .index rfl (hR _) (hR _)

theorem Ty.alike_refl (hR : ∀ x, R x x) (a : Ty) : a.Alike names R a := by
  have hlist (ts : List Ty) : List.Forall₂ R ts ts := List.forall₂_same.2 fun t _ => hR t
  have hbranches (ts : List Ty) : Multiset.Rel R (ts : Multiset Ty) (ts : Multiset Ty) :=
    Multiset.rel_refl_of_refl_on fun t _ => hR t
  have htypeParams (ts : List TypeParam) : List.Forall₂ (TypeParam.Alike names R) ts ts :=
    List.forall₂_same.2 fun t _ => ⟨rfl, hR t.bound⟩
  have hmembers (ms : List Member) :
      Multiset.Rel (Member.Alike names R) (ms : Multiset Member) (ms : Multiset Member) :=
    Multiset.rel_refl_of_refl_on fun m _ => Member.alike_refl names hR m
  cases a with
  | missing => exact .missing
  | keyword k => exact .keyword k
  | literal l => exact .literal (Literal.sameValue_equivalence.refl l)
  | array => exact .array (hR _)
  | tuple => exact .tuple (hlist _)
  | union => exact .union (hbranches _)
  | inter => exact .inter (hbranches _)
  | object => exact .object (hmembers _)
  | interface => exact .interface rfl (htypeParams _) (hmembers _) (hlist _)
  | classType => exact .classType rfl (htypeParams _) (hmembers _) (hR _)
  | function => exact .function (Signature.alike_refl names hR _)
  | ctor => exact .ctor (Signature.alike_refl names hR _)
  | enum => exact .enum rfl rfl
  | variant => exact .variant rfl rfl
  | param => exact .param rfl (hR _)
  | this => exact .this
  | indexed => exact .indexed (hR _) (hR _)
  | other => exact .raw rfl rfl
  | regExp => exact .raw rfl rfl
  | named n => exact .named n

theorem Ty.alike_equivalence (hR : Equivalence R) : Equivalence (Ty.Alike names R) where
  refl a := Ty.alike_refl names hR.refl a
  symm h := h.flip.mono fun _ _ _ _ hyx => hR.symm hyx
  trans h h' := (h.comp h').mono fun _ _ _ _ ⟨_, hxy, hyz⟩ => hR.trans hxy hyz

end Equivalence

end StructuralTyping
