import StructuralTyping.Proofs.TypeSource.Parsing
import StructuralTyping.Proofs.Yaml.Fields
import StructuralTyping.Proofs.Yaml.Recoverable

/-!
# What a document can say

A document without declared names builds only some types.  What a shape needs is there,
names of parameters are not empty, patterns are names, and the key of a member was read off
a key of the document.  `Ty.DecodedLayer` says this of one layer, and `decode_decoded` of
every layer of every type that is decoded.

Each function that reads a part of a document keeps the property, if `ask` has it for the
types inside.  A type parameter stands for a type that was decoded before, so the names in
scope have the property as well.
-/

namespace StructuralTyping

open TypeSource (Names)
open Yaml.Anchors (MemberForm ParamForm)

/-! ## One layer -/

/-- The pattern is a name, or a name after dots. -/
def Pattern.Decoded : Pattern → Prop
  | .ident name _ => name ≠ ""
  | .rest (.ident name isOptional) => isOptional = false ∧ name ≠ ""
  | _ => False

/-- The signature is there with its result, and its names are. -/
def Signature.DecodedLayer : Signature → Prop
  | .absent => False
  | .mk ts ps r => (∀ t ∈ ts, t.name ≠ "") ∧ (∀ p ∈ ps, p.pattern.Decoded) ∧ r.isMissing = false

/-- The key of the member was read off a key. -/
def Member.DecodedLayer : Member → Prop
  | .property k _ o r => ∃ raw, ReadsAs raw ⟨k, o, r⟩
  | .method k o s => (∃ raw r, ReadsAs raw ⟨k, o, r⟩) ∧ s.DecodedLayer
  | .call s => s.DecodedLayer
  | .construct s => s.DecodedLayer
  | .index _ _ _ _ => True

/-- The outermost layer is one that a document can say. -/
def Ty.DecodedLayer : Ty → Prop
  | .keyword k => k ∈ Keyword.known
  | .array e => e.isMissing = false
  | .tuple ts | .union ts | .inter ts => ∀ t ∈ ts, t.isMissing = false
  | .object ms => ∀ m ∈ ms, m.DecodedLayer
  | .interface _ ts ms bs =>
    (∀ t ∈ ts, t.name ≠ "") ∧ (∀ m ∈ ms, m.DecodedLayer) ∧ ∀ b ∈ bs, b.isMissing = false
  | .classType _ ts ms _ => (∀ t ∈ ts, t.name ≠ "") ∧ ∀ m ∈ ms, m.DecodedLayer
  | .function s | .ctor s => s.DecodedLayer
  | .variant e _ => '.' ∉ e.toList
  | .indexed o i => o.isMissing = false ∧ i.isMissing = false
  | .literal _ | .enum _ _ _ | .param _ _ | .this | .other _ | .regExp => True
  | .missing | .named _ => False

/-! ## All layers -/

/-- All layers are ones that a document can say. -/
def Ty.Decoded (t : Ty) : Prop := t.Everywhere Ty.DecodedLayer

/-- The type is left out, or it is decoded. -/
def Ty.DecodedIfThere (t : Ty) : Prop := t.isMissing = false → t.Decoded

structure TypeParam.Decoded (t : TypeParam) : Prop where
  named : t.name ≠ ""
  bound : t.bound.DecodedIfThere

structure Param.Decoded (p : Param) : Prop where
  pattern : p.pattern.Decoded
  type : p.type.DecodedIfThere

structure Signature.Decoded (s : Signature) : Prop where
  layer : s.DecodedLayer
  parts : ∀ x ∈ s.parts, x.DecodedIfThere

structure Member.Decoded (m : Member) : Prop where
  layer : m.DecodedLayer
  parts : ∀ x ∈ m.parts, x.DecodedIfThere

theorem Ty.Decoded.isMissing {t : Ty} (h : t.Decoded) : t.isMissing = false := by
  cases t <;> first | rfl | cases h.layer

theorem Ty.DecodedIfThere.missing : Ty.missing.DecodedIfThere := fun h => nomatch h

theorem Signature.decoded_mk {ts : List TypeParam} {ps : List Param} {r : Ty}
    (hts : ∀ t ∈ ts, t.Decoded) (hps : ∀ p ∈ ps, p.Decoded) (hr : r.Decoded) :
    (Signature.mk ts ps r).Decoded where
  layer := ⟨fun t ht => (hts t ht).named, fun p hp => (hps p hp).pattern, hr.isMissing⟩
  parts x hx := by
    simp only [Signature.parts, List.mem_append, List.mem_map, List.mem_singleton] at hx
    rcases hx with (⟨t, ht, rfl⟩ | ⟨p, hp, rfl⟩) | rfl
    · exact (hts t ht).bound
    · exact (hps p hp).type
    · exact fun _ => hr

theorem Member.Decoded.call {s : Signature} (h : s.Decoded) : (Member.call s).Decoded :=
  ⟨h.layer, h.parts⟩

theorem Member.Decoded.construct {s : Signature} (h : s.Decoded) : (Member.construct s).Decoded :=
  ⟨h.layer, h.parts⟩

namespace Ty.Decoded

variable {t : Ty} {ts : List Ty}

theorem ifThere (h : t.Decoded) : t.DecodedIfThere := fun _ => h

theorem array (h : t.Decoded) : (Ty.array t).Decoded :=
  .intro h.isMissing fun _ hx _ => List.mem_singleton.1 hx ▸ h

theorem tuple (h : ∀ t ∈ ts, t.Decoded) : (Ty.tuple ts).Decoded :=
  .intro (fun t ht => (h t ht).isMissing) fun x hx _ => h x hx

theorem union (h : ∀ t ∈ ts, t.Decoded) : (Ty.union ts).Decoded :=
  .intro (fun t ht => (h t ht).isMissing) fun x hx _ => h x hx

theorem inter (h : ∀ t ∈ ts, t.Decoded) : (Ty.inter ts).Decoded :=
  .intro (fun t ht => (h t ht).isMissing) fun x hx _ => h x hx

theorem literal (l : Literal) : (Ty.literal l).Decoded := .leaf trivial rfl

theorem keyword {k : Keyword} (h : k ∈ Keyword.known) : (Ty.keyword k).Decoded := .leaf h rfl

theorem param (name : String) {bound : Ty} (h : bound.DecodedIfThere) :
    (Ty.param name bound).Decoded :=
  .intro trivial fun _ hx => List.mem_singleton.1 hx ▸ h

theorem function {s : Signature} (h : s.Decoded) : (Ty.function s).Decoded := .intro h.layer h.parts

theorem ctor {s : Signature} (h : s.Decoded) : (Ty.ctor s).Decoded := .intro h.layer h.parts

theorem indexed {o i : Ty} (ho : o.Decoded) (hi : i.Decoded) : (Ty.indexed o i).Decoded := by
  refine .intro ⟨ho.isMissing, hi.isMissing⟩ fun x hx _ => ?_
  simp only [Ty.parts, List.mem_cons, List.not_mem_nil, or_false] at hx
  rcases hx with rfl | rfl
  · exact ho
  · exact hi

theorem object {ms : List Member} (h : ∀ m ∈ ms, m.Decoded) : (Ty.object ms).Decoded := by
  refine .intro (fun m hm => (h m hm).layer) fun x hx => ?_
  obtain ⟨m, hm, hx⟩ := List.mem_flatMap.1 hx
  exact (h m hm).parts x hx

theorem interface (name : String) {ps : List TypeParam} {ms : List Member}
    (hps : ∀ p ∈ ps, p.Decoded) (hms : ∀ m ∈ ms, m.Decoded) (hts : ∀ t ∈ ts, t.Decoded) :
    (Ty.interface name ps ms ts).Decoded := by
  refine .intro ⟨fun p hp => (hps p hp).named, fun m hm => (hms m hm).layer,
    fun t ht => (hts t ht).isMissing⟩ fun x hx => ?_
  simp only [Ty.parts, List.mem_append, List.mem_map, List.mem_flatMap] at hx
  rcases hx with (⟨p, hp, rfl⟩ | ⟨m, hm, hx⟩) | hx
  · exact (hps p hp).bound
  · exact (hms m hm).parts x hx
  · exact fun _ => hts x hx

theorem classType (name : String) {ps : List TypeParam} {ms : List Member} {base : Ty}
    (hps : ∀ p ∈ ps, p.Decoded) (hms : ∀ m ∈ ms, m.Decoded) (hbase : base.DecodedIfThere) :
    (Ty.classType name ps ms base).Decoded := by
  refine .intro ⟨fun p hp => (hps p hp).named, fun m hm => (hms m hm).layer⟩ fun x hx => ?_
  simp only [Ty.parts, List.mem_append, List.mem_map, List.mem_flatMap, List.mem_singleton] at hx
  rcases hx with (⟨p, hp, rfl⟩ | ⟨m, hm, hx⟩) | rfl
  · exact (hps p hp).bound
  · exact (hms m hm).parts x hx
  · exact hbase

end Ty.Decoded

/-! ## Names -/

namespace TypeSource

/-- Nothing is declared, and type parameters in scope stand for types that were decoded. -/
structure Names.Decoded (N : Names) : Prop where
  undeclared : N.declared = []
  scopes : ∀ scope ∈ N.typeParams, ∀ e ∈ scope, e.2.Decoded

namespace Names

variable {N : Names}

theorem decoded_empty : ({} : Names).Decoded where
  undeclared := rfl
  scopes _ h := nomatch h

theorem Decoded.enter (hN : N.Decoded) {ts : List TypeParam} (hts : ∀ t ∈ ts, t.Decoded) :
    (N.enter ts).Decoded where
  undeclared := hN.undeclared
  scopes scope hscope e he := by
    rcases List.mem_cons.1 hscope with rfl | hscope
    · obtain ⟨t, ht, rfl⟩ := List.mem_map.1 (List.mem_reverse.1 he)
      exact .param t.name (hts t ht).bound
    · exact hN.scopes scope hscope e he

theorem decoded_builtin? {name : String} {t : Ty} (h : builtin? name = some t) : t.Decoded := by
  unfold builtin? at h
  split at h
  · exact Option.some.inj h ▸ .literal _
  · exact Option.some.inj h ▸ .literal _
  · exact Option.some.inj h ▸ .leaf trivial rfl
  · exact Option.some.inj h ▸ .leaf trivial rfl
  · obtain ⟨k, hk, rfl⟩ := Option.map_eq_some_iff.1 h
    exact .keyword (List.mem_of_find?_eq_some hk)

theorem Decoded.resolve (hN : N.Decoded) {name : String} {t : Ty}
    (h : (N.resolve name).toOption = some t) : t.Decoded := by
  have hmember : N.member name = .error (.unknown name) := by
    unfold Names.member
    split <;> simp [hN.undeclared]
  rw [Names.resolve, hN.undeclared, List.lookup_nil, Option.or_none, hmember] at h
  cases hparam : N.typeParam? name with
  | some u =>
    rw [hparam] at h
    obtain rfl := Option.some.inj h
    obtain ⟨scope, hscope, hlookup⟩ := List.exists_of_findSome?_eq_some hparam
    obtain ⟨before, after, rfl, -⟩ := List.lookup_eq_some_iff.1 hlookup
    exact hN.scopes _ hscope (name, u) (List.mem_append_right _ (.head _))
  | none =>
    rw [hparam] at h
    cases hbuiltin : builtin? name with
    | some u =>
      rw [hbuiltin] at h
      exact Option.some.inj h ▸ decoded_builtin? hbuiltin
    | none =>
      rw [hbuiltin] at h
      cases h

end Names

/-! ## Type source -/

theorem decoded_nestArrays (n : Nat) {t : Ty} (h : t.Decoded) : (nestArrays n t).Decoded := by
  induction n generalizing t with
  | zero => exact h
  | succ n ih => exact ih h.array

theorem decoded_built {build : List Ty → Ty}
    (hbuild : ∀ {ts : List Ty}, (∀ t ∈ ts, t.Decoded) → (build ts).Decoded) {ts : List Ty}
    (h : ∀ t ∈ ts, t.Decoded) : (built build ts).Decoded := by
  unfold built
  split
  · exact h _ (.head _)
  · exact hbuild h

section Source

variable {N : Names}

mutual

theorem UnionTree.decoded (hN : N.Decoded) :
    ∀ {u : UnionTree} {t : Ty}, u.type? N = some t → t.Decoded
  | ⟨_, first, more⟩, t, h => by
      obtain ⟨t₁, h₁, ts, hts, rfl⟩ : ∃ t₁, first.type? N = some t₁ ∧ ∃ ts,
          InterTree.types? N more = some ts ∧ built .union (t₁ :: ts) = t := by
        simpa [UnionTree.type?, Option.bind_eq_some_iff] using h
      exact decoded_built .union
        (List.forall_mem_cons.2 ⟨first.decoded hN h₁, InterTree.all_decoded hN hts⟩)
termination_by structural u => u

theorem InterTree.decoded (hN : N.Decoded) :
    ∀ {i : InterTree} {t : Ty}, i.type? N = some t → t.Decoded
  | ⟨first, more⟩, t, h => by
      obtain ⟨t₁, h₁, ts, hts, rfl⟩ : ∃ t₁, first.type? N = some t₁ ∧ ∃ ts,
          PostfixTree.types? N more = some ts ∧ built .inter (t₁ :: ts) = t := by
        simpa [InterTree.type?, Option.bind_eq_some_iff] using h
      exact decoded_built .inter
        (List.forall_mem_cons.2 ⟨first.decoded hN h₁, PostfixTree.all_decoded hN hts⟩)
termination_by structural i => i

theorem PostfixTree.decoded (hN : N.Decoded) :
    ∀ {p : PostfixTree} {t : Ty}, p.type? N = some t → t.Decoded
  | ⟨primary, arrays⟩, _, h => by
      obtain ⟨u, hu, rfl⟩ := Option.map_eq_some_iff.1 h
      exact decoded_nestArrays arrays (primary.decoded hN hu)
termination_by structural p => p

theorem PrimaryTree.decoded (hN : N.Decoded) :
    ∀ {p : PrimaryTree} {t : Ty}, p.type? N = some t → t.Decoded
  | .group inner, _, h => inner.decoded hN h
  | .emptyTuple, _, h => Option.some.inj h ▸ .tuple (List.forall_mem_nil _)
  | .tuple first more _, t, h => by
      obtain ⟨t₁, h₁, ts, hts, rfl⟩ : ∃ t₁, first.type? N = some t₁ ∧ ∃ ts,
          UnionTree.types? N more = some ts ∧ .tuple (t₁ :: ts) = t := by
        simpa [PrimaryTree.type?, Option.bind_eq_some_iff] using h
      exact .tuple (List.forall_mem_cons.2 ⟨first.decoded hN h₁, UnionTree.all_decoded hN hts⟩)
  | .string _ _, _, h => by
      obtain ⟨s, -, rfl⟩ := Option.map_eq_some_iff.1 h
      exact .literal _
  | .number _ _ _, _, h => by
      obtain ⟨x, -, rfl⟩ := Option.map_eq_some_iff.1 h
      exact .literal _
  | .names _ _, _, h => hN.resolve h
termination_by structural p => p

theorem InterTree.all_decoded (hN : N.Decoded) :
    ∀ {is : List InterTree} {ts : List Ty}, InterTree.types? N is = some ts → ∀ t ∈ ts, t.Decoded
  | [], _, h => Option.some.inj h ▸ List.forall_mem_nil _
  | i :: is, ts, h => by
      obtain ⟨t₁, h₁, us, hus, rfl⟩ : ∃ t₁, i.type? N = some t₁ ∧ ∃ us,
          InterTree.types? N is = some us ∧ t₁ :: us = ts := by
        simpa [InterTree.types?, Option.bind_eq_some_iff] using h
      exact List.forall_mem_cons.2 ⟨i.decoded hN h₁, InterTree.all_decoded hN hus⟩
termination_by structural is => is

theorem PostfixTree.all_decoded (hN : N.Decoded) :
    ∀ {ps : List PostfixTree} {ts : List Ty}, PostfixTree.types? N ps = some ts →
      ∀ t ∈ ts, t.Decoded
  | [], _, h => Option.some.inj h ▸ List.forall_mem_nil _
  | p :: ps, ts, h => by
      obtain ⟨t₁, h₁, us, hus, rfl⟩ : ∃ t₁, p.type? N = some t₁ ∧ ∃ us,
          PostfixTree.types? N ps = some us ∧ t₁ :: us = ts := by
        simpa [PostfixTree.types?, Option.bind_eq_some_iff] using h
      exact List.forall_mem_cons.2 ⟨p.decoded hN h₁, PostfixTree.all_decoded hN hus⟩
termination_by structural ps => ps

theorem UnionTree.all_decoded (hN : N.Decoded) :
    ∀ {us : List UnionTree} {ts : List Ty}, UnionTree.types? N us = some ts → ∀ t ∈ ts, t.Decoded
  | [], _, h => Option.some.inj h ▸ List.forall_mem_nil _
  | u :: us, ts, h => by
      obtain ⟨t₁, h₁, vs, hvs, rfl⟩ : ∃ t₁, u.type? N = some t₁ ∧ ∃ vs,
          UnionTree.types? N us = some vs ∧ t₁ :: vs = ts := by
        simpa [UnionTree.types?, Option.bind_eq_some_iff] using h
      exact List.forall_mem_cons.2 ⟨u.decoded hN h₁, UnionTree.all_decoded hN hvs⟩
termination_by structural us => us

end

/-- Type source only says types that a document can say. -/
theorem decoded_parse (hN : N.Decoded) {source : String} {t : Ty} (h : parse N source = .ok t) :
    t.Decoded := by
  obtain ⟨-, tree, -, htype⟩ := derivation_of_parse h
  exact tree.decoded hN htype

end Source

end TypeSource

/-! ## Reading parts -/

namespace Yaml

/-- Whatever a reading succeeds with has the property. -/
def Yields (P : α → Prop) (x : Outcome α) : Prop := ∀ a, x = .ok a → P a

namespace Yields

variable {P : α → Prop} {Q : β → Prop} {x : Outcome α}

theorem ok {a : α} (h : P a) : Yields P (.ok a) := fun _ heq => Except.ok.inj heq ▸ h

theorem error (p : Problem) : Yields P (.error p) := nofun

theorem any (x : Outcome α) : Yields (fun _ => True) x := fun _ _ => trivial

theorem bind (h : Yields P x) {f : α → Outcome β} (hf : ∀ a, P a → Yields Q (f a)) :
    Yields Q (x >>= f) := by
  cases x with
  | ok a => exact hf a (h a rfl)
  | error p => exact error p

theorem map (h : Yields P x) {f : α → β} (hf : ∀ a, P a → Q (f a)) : Yields Q (x.map f) := by
  cases x with
  | ok a => exact ok (hf a (h a rfl))
  | error p => exact error p

theorem inPart (h : Yields P x) (part : Part) (name : String) : Yields P (inPart part name x) := by
  cases x with
  | ok a => exact h
  | error p => exact error _

theorem orDefault {default : α} (hdefault : P default) {f : Node → Outcome α}
    (h : ∀ n, Yields P (f n)) (node? : Option Node) : Yields P (optionalField default f node?) := by
  cases node? with
  | none => exact ok hdefault
  | some n => exact h n

theorem each {f : β → Outcome α} {xs : List β} (h : ∀ x ∈ xs, Yields P (f x)) :
    Yields (fun as => ∀ a ∈ as, P a) (decodeEach f xs) := by
  induction xs with
  | nil => exact ok (List.forall_mem_nil _)
  | cons x xs ih =>
    unfold decodeEach
    split
    · exact error _
    · next a ha =>
      split
      · exact error _
      · next as has =>
        exact ok (List.forall_mem_cons.2
          ⟨h x (.head _) a ha, ih (fun y hy => h y (.tail _ hy)) as has⟩)

end Yields

namespace Anchors

variable {A : Anchors} {ask : Ask} {N : Names}

/-- No key of a field has white space around it. -/
theorem trimmed_fields (n : Node) :
    Yields (fun f => ∀ e ∈ f.entries, trimSpace e.1 = e.1) (A.fields n) := by
  intro f hf e he
  obtain ⟨i, es, -, hentries, -⟩ := fields_eq_ok_iff.1 hf
  obtain ⟨e', -, rfl⟩ := List.mem_map.1 (hentries ▸ he)
  exact trimSpace_trimSpace _

theorem decoded_source (hN : N.Decoded) (source : String) :
    Yields Ty.Decoded (decodeSource N source) := by
  unfold decodeSource
  split
  · next t hparse => exact .ok (TypeSource.decoded_parse hN hparse)
  · exact .error _

theorem decoded_bool (n : Node) : Yields Ty.Decoded (A.decodeBool n) :=
  (Yields.any _).map fun _ _ => .literal _

theorem decoded_number (n : Node) : Yields Ty.Decoded (A.decodeNumber n) :=
  (Yields.any _).map fun _ _ => .literal _

theorem decoded_literal (n : Node) : Yields Ty.Decoded (A.decodeLiteral n) := by
  unfold decodeLiteral
  split
  · exact .error _
  · exact decoded_bool n
  · exact decoded_number n
  · exact decoded_number n
  · exact .ok (.literal _)
  · exact .error _

theorem decoded_scalar (hN : N.Decoded) (n : Node) : Yields Ty.Decoded (A.decodeScalar N n) := by
  unfold decodeScalar
  split
  · exact .ok (.keyword (by decide))
  · exact decoded_bool n
  · exact decoded_number n
  · exact decoded_number n
  · unfold decodeSourceAt
    split
    · exact .error _
    · split
      · next t hsource => exact .ok (decoded_source hN _ t hsource)
      · exact .error _

theorem decoded_variant (n : Node) : Yields Ty.Decoded (decodeVariant n) := by
  unfold decodeVariant
  split
  · next enumName member hcut =>
    obtain ⟨⟨before, after⟩, hlist, heq⟩ := Option.map_eq_some_iff.1 hcut
    obtain ⟨rfl, rfl⟩ := Prod.mk.inj heq
    refine .ok (.leaf ?_ rfl)
    simpa [Ty.DecodedLayer] using not_mem_of_cutList? (c := '.') hlist
  · exact .error _

section Parts

-- The types inside are ones that a document can say, under all names of this kind.
variable (hask : ∀ N : Names, N.Decoded → ∀ n, Yields Ty.Decoded (ask N n))
include hask

theorem decoded_list (hN : N.Decoded) (n : Node) :
    Yields (fun ts => ∀ t ∈ ts, t.Decoded) (A.decodeList ask N n) :=
  (Yields.any _).bind fun _ _ => .each fun n _ => hask N hN n

theorem decoded_given (hN : N.Decoded) (node? : Option Node) (source : String) :
    Yields Ty.DecodedIfThere (decodeGiven ask N node? source) := by
  cases node? with
  | some n => exact fun t ht => (hask N hN n t ht).ifThere
  | none =>
    simp only [decodeGiven]
    split
    · exact .ok .missing
    · exact fun t ht => (decoded_source hN source t ht).ifThere

theorem decoded_param (hN : N.Decoded) (n : Node) :
    Yields Param.Decoded (A.decodeParam ask N n) := by
  refine (Yields.any _).bind fun form _ => ?_
  simp only
  split
  · exact .error _
  · next hname =>
    have hnonempty : form.readMarks.name ≠ "" := by simpa using hname
    refine ((decoded_given hask hN _ _).inPart _ _).bind fun t ht => .ok ⟨?_, ht⟩
    rw [ParamForm.pattern]
    split
    · exact ⟨rfl, hnonempty⟩
    · exact hnonempty

theorem decoded_typeParam (hN : N.Decoded) (n : Node) :
    Yields TypeParam.Decoded (A.decodeTypeParam ask N n) := by
  refine (Yields.any _).bind fun (name, node?, source) _ => ?_
  simp only
  split
  · exact .error _
  · next hname =>
    exact ((decoded_given hask hN _ _).inPart _ _).bind fun bound hbound =>
      .ok ⟨by simpa using hname, hbound⟩

/-- Each type parameter may stand for its bound in the ones after it. -/
theorem decoded_typeParamsFrom (hN : N.Decoded) {earlier : List TypeParam}
    (hearlier : ∀ t ∈ earlier, t.Decoded) (ns : List Node) :
    Yields (fun ts => ∀ t ∈ ts, t.Decoded) (A.decodeTypeParamsFrom ask N earlier ns) := by
  induction ns generalizing earlier with
  | nil => exact .ok hearlier
  | cons n ns ih =>
    refine (decoded_typeParam hask (hN.enter hearlier) n).bind fun t ht => ih fun u hu => ?_
    rcases List.mem_append.1 hu with hu | hu
    · exact hearlier u hu
    · exact List.mem_singleton.1 hu ▸ ht

theorem decoded_scope (hN : N.Decoded) (f : Fields) :
    Yields (fun (ts, M) => (∀ t ∈ ts, TypeParam.Decoded t) ∧ M.Decoded)
      (A.decodeScope ask N f) := by
  unfold decodeScope
  split
  · exact .ok ⟨List.forall_mem_nil _, hN⟩
  · refine Yields.bind (P := fun ts => ∀ t ∈ ts, TypeParam.Decoded t) ?_ fun ts hts =>
      .ok ⟨hts, hN.enter hts⟩
    exact (Yields.any _).bind fun ns _ => decoded_typeParamsFrom hask hN (List.forall_mem_nil _) ns

theorem decoded_signature (hN : N.Decoded) (n : Node) :
    Yields Signature.Decoded (A.decodeSignature ask N n) := by
  have hvoid : Ty.void.Decoded := .keyword (by decide)
  unfold decodeSignature
  split
  · exact .ok (Signature.decoded_mk (List.forall_mem_nil _) (List.forall_mem_nil _) hvoid)
  · refine (Yields.any _).bind fun f _ => (decoded_scope hask hN f).bind fun (ts, M) ⟨hts, hM⟩ => ?_
    refine Yields.bind (P := fun ps => ∀ p ∈ ps, Param.Decoded p) ?_ fun ps hps => ?_
    · exact .orDefault (List.forall_mem_nil _) (fun n => (Yields.any _).bind fun ns _ =>
        .each fun n _ => decoded_param hask hM n) _
    · exact (Yields.orDefault hvoid (hask M hM) _).bind fun r hr =>
        .ok (Signature.decoded_mk hts hps hr)

theorem decoded_member (hN : N.Decoded) {raw : String} (hraw : trimSpace raw = raw) (n : Node) :
    Yields Member.Decoded (A.decodeMember ask N raw n) := by
  have hread : ReadsAs raw (MemberForm.read raw) := ⟨hraw, rfl⟩
  unfold decodeMember
  generalize MemberForm.read raw = form at hread
  refine (Yields.any _).bind fun m? _ => ?_
  cases m? with
  | some m =>
    exact (decoded_signature hask hN m).map fun s hs =>
      ⟨⟨⟨raw, form.isReadonly, hread⟩, hs.layer⟩, hs.parts⟩
  | none =>
    have hproperty {t : Ty} (ht : t.DecodedIfThere) :
        Yields Member.Decoded (.ok (.property form.key t form.isOptional form.isReadonly)) :=
      .ok ⟨⟨raw, hread⟩, fun x hx => List.mem_singleton.1 hx ▸ ht⟩
    simp only
    split
    · exact hproperty .missing
    · exact (hask N hN n).bind fun t ht => hproperty ht.ifThere

theorem decoded_named (hN : N.Decoded) (n : Node) :
    Yields (fun ms => ∀ m ∈ ms, m.Decoded) (A.decodeNamed ask N n) := by
  unfold decodeNamed
  split
  · exact .ok (List.forall_mem_nil _)
  · exact (trimmed_fields n).bind fun f hf => .each fun (raw, v) he =>
      (decoded_member hask hN (hf (raw, v) he) v).inPart _ _

theorem decoded_index (hN : N.Decoded) (n : Node) :
    Yields Member.Decoded (A.decodeIndex ask N n) := by
  have hfield (node? : Option Node) :
      Yields Ty.DecodedIfThere (optionalField .missing (ask N) node?) :=
    .orDefault .missing (fun n t ht => (hask N hN n t ht).ifThere) node?
  refine (Yields.any _).bind fun f _ => (hfield _).bind fun k hk => (hfield _).bind fun t ht =>
    (Yields.any _).bind fun r _ => .ok ⟨trivial, fun x hx => ?_⟩
  simp only [Member.parts, List.mem_cons, List.not_mem_nil, or_false] at hx
  rcases hx with rfl | rfl
  · exact hk
  · exact ht

theorem decoded_members (hN : N.Decoded) (named? : Option Node) (f : Fields) :
    Yields (fun ms => ∀ m ∈ ms, m.Decoded) (A.decodeMembers ask N named? f) := by
  have hunnamed (key : String) {one : Node → Outcome Member}
      (hone : ∀ n, Yields Member.Decoded (one n)) :
      Yields (fun ms => ∀ m ∈ ms, m.Decoded) (decodeUnnamed key f one) :=
    .orDefault (List.forall_mem_nil _)
      (fun n => (Yields.any _).bind fun ns _ => .each fun n _ => hone n) _
  refine (Yields.orDefault (List.forall_mem_nil _) (decoded_named hask hN) _).bind
    fun named hnamed => ?_
  refine (hunnamed _ (decoded_index hask hN)).bind fun indexes hindexes => ?_
  refine (hunnamed _ fun n => (decoded_signature hask hN n).map fun _ => .call).bind
    fun calls hcalls => ?_
  refine (hunnamed _ fun n => (decoded_signature hask hN n).map fun _ => .construct).bind
    fun constructs hconstructs => .ok fun m hm => ?_
  simp only [List.mem_append] at hm
  rcases hm with ((hm | hm) | hm) | hm
  · exact hnamed m hm
  · exact hindexes m hm
  · exact hcalls m hm
  · exact hconstructs m hm

/-! ## Reading types -/

theorem decoded_interface (hN : N.Decoded) (name : String) (f : Fields) :
    Yields Ty.Decoded (A.decodeInterface ask N name f) :=
  (decoded_scope hask hN f).bind fun (_, _) ⟨hts, hM⟩ =>
    ((decoded_members hask hM _ f).inPart _ _).bind fun _ hms =>
      ((Yields.orDefault (List.forall_mem_nil _) (decoded_list hask hM) _).inPart _ _).bind
        fun _ hbases => .ok (.interface name hts hms hbases)

theorem decoded_classType (hN : N.Decoded) (name : String) (f : Fields) :
    Yields Ty.Decoded (A.decodeClass ask N name f) :=
  (decoded_scope hask hN f).bind fun (_, M) ⟨hts, hM⟩ =>
    ((decoded_members hask hM _ f).inPart _ _).bind fun _ hms =>
      ((Yields.orDefault .missing (fun n t ht => (hask M hM n t ht).ifThere) _).inPart _ _).bind
        fun _ hbase => .ok (.classType name hts hms hbase)

theorem decoded_indexed (hN : N.Decoded) (n : Node) :
    Yields Ty.Decoded (A.decodeIndexed ask N n) := by
  refine (decoded_list hask hN n).bind fun ts hts => ?_
  split
  · next o i => exact .ok (.indexed (hts o (.head _)) (hts i (.tail _ (.head _))))
  · exact .error _

/-- One layer is one that a document can say, if the types inside are. -/
theorem decoded_shape (hN : N.Decoded) (f : Fields) (v : Node) (shape : String) :
    Yields Ty.Decoded (A.decodeShape ask N f v shape) := by
  unfold decodeShape
  split
  · exact (hask N hN v).map fun _ => .array
  · exact (decoded_list hask hN v).map fun _ => .tuple
  · exact (decoded_list hask hN v).map fun _ => .union
  · exact (decoded_list hask hN v).map fun _ => .inter
  · exact decoded_literal v
  · exact (decoded_signature hask hN v).map fun _ => .function
  · exact (decoded_signature hask hN v).map fun _ => .ctor
  · exact (decoded_members hask hN _ f).map fun _ => .object
  · exact decoded_interface hask hN v.value f
  · exact decoded_classType hask hN v.value f
  · exact (Yields.any _).bind fun _ _ => (Yields.any _).bind fun _ _ => .ok (.leaf trivial rfl)
  · exact decoded_variant v
  · exact (Yields.orDefault .missing (fun n t ht => (hask N hN n t ht).ifThere) _).map
      fun _ => .param v.value
  · exact decoded_indexed hask hN v
  · exact .ok (.leaf trivial rfl)

theorem decoded_mapping (hN : N.Decoded) (n : Node) : Yields Ty.Decoded (A.decodeMapping ask N n) :=
  (Yields.any _).bind fun f _ => (Yields.any _).bind fun (shape, v) _ =>
    decoded_shape hask hN f v shape

end Parts

/-- The invariant of the whole recursion, by induction on the steps. -/
theorem decoded_decodeWithin (A : Anchors) (fuel : Nat) (expanding : List Nat) :
    ∀ N : Names, N.Decoded → ∀ n, Yields Ty.Decoded (A.decodeWithin fuel expanding N n) := by
  induction fuel generalizing expanding with
  | zero => exact fun _ _ _ => .error _
  | succ fuel ih =>
    intro N hN n
    unfold decodeWithin
    split
    · exact .error _
    · exact ih expanding N hN _
    · split
      · exact .error _
      · split
        · exact .error _
        · split
          · exact ih _ N hN _
          · exact .error _
    · exact decoded_scalar hN _
    · exact (decoded_list (ih expanding) hN _).map fun _ => .tuple
    · exact decoded_mapping (ih expanding) hN _
    · exact .error _

end Anchors

/-- Every type that is decoded is one that a document can say. -/
theorem decoded_decode (d : Document) {N : Names} (hN : N.Decoded) {t : Ty}
    (h : d.decode N = .ok t) : t.Decoded :=
  Anchors.decoded_decodeWithin d.anchors _ [] N hN d.root t h

end Yaml

end StructuralTyping
