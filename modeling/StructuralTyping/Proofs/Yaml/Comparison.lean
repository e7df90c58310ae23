import StructuralTyping.Proofs.TypeSource.Related
import StructuralTyping.Proofs.Yaml.Transparent

/-!
# Two decodings side by side

What a decoder makes of two documents is compared in several ways: a document and its
expansion, a document and the same one with the entries of its mappings in another order,
and one document under two sets of answers for the nodes inside.

`Anchors.Comparison` holds what these have in common: how outcomes, types, nodes and fields
are related, with what a decoder needs of these relations.  It names all that is looked at
in a node: its own form, the items, the fields, and the texts and values that are wanted
from it.  Every function that reads a part of a document has one lemma, in the order of the
functions, that related nodes are read alike if the types inside them are
(`Anchors.Comparison.Answers`).  A comparison of whole decodings is an instance of
`Anchors.Comparison` and an induction on the steps that are left.
-/

namespace StructuralTyping.Yaml

open TypeSource (Names)
open Anchors (ParamForm MemberForm)

/-! ## Problems -/

/-- The problem itself, without the parts and the lines that it is reported with. -/
def Problem.cause : Problem → Problem
  | .atLine _ p => p.cause
  | .within _ _ p => p.cause
  | p => p

/-- The problem is one of the node that is read, and not of the recursion. -/
structure Problem.IsLocal (p : Problem) : Prop where
  ne_endless : p.cause ≠ .endless
  ne_selfAlias : ∀ line name, p.cause ≠ .selfAlias line name

/-! ## Outcomes -/

/-- A way to compare outcomes that goes along with the composition of readings.  The values
of two successes are related. -/
structure OutcomeComparison where
  /-- The problems that both readings may have. -/
  Admits : Problem → Prop
  admits : ∀ {p : Problem}, p.IsLocal → Admits p
  Holds : {α : Type} → (α → α → Prop) → Outcome α → Outcome α → Prop
  ok : ∀ {α : Type} {R : α → α → Prop} {a b : α}, R a b → Holds R (.ok a) (.ok b)
  error : ∀ {α : Type} (R : α → α → Prop) {p : Problem}, Admits p → Holds R (.error p) (.error p)
  bind : ∀ {α β : Type} {R : α → α → Prop} {S : β → β → Prop} {x y : Outcome α}
    {f g : α → Outcome β},
    Holds R x y → (∀ a b, R a b → Holds S (f a) (g b)) → Holds S (x >>= f) (y >>= g)
  inPart : ∀ {α : Type} {R : α → α → Prop} {x y : Outcome α} (part : Part) (name : String),
    Holds R x y → Holds R (inPart part name x) (inPart part name y)

namespace OutcomeComparison

variable (O : OutcomeComparison) {α β : Type} {R : α → α → Prop} {S : β → β → Prop}
  {x y : Outcome α}

/-- A failure of the first reading is compared with nothing. -/
def Lenient : Prop :=
  ∀ {α : Type} (R : α → α → Prop) (p : Problem) (y : Outcome α), O.Holds R (.error p) y

theorem map (h : O.Holds R x y) {f g : α → β} (hfg : ∀ a b, R a b → S (f a) (g b)) :
    O.Holds S (x.map f) (y.map g) := by
  have hmap (x : Outcome α) (f : α → β) : x.map f = x >>= fun a => .ok (f a) := by cases x <;> rfl
  rw [hmap, hmap]
  exact O.bind h fun a b hab => O.ok (hfg a b hab)

theorem imp {R' : α → α → Prop} (h : O.Holds R x y) (hR : ∀ a b, R a b → R' a b) :
    O.Holds R' x y := by
  have hmap (x : Outcome α) : x.map id = x := by cases x <;> rfl
  rw [← hmap x, ← hmap y]
  exact O.map h hR

theorem optionalField {V : Node → Node → Prop} {o o' : Option Node} (h : Option.Rel V o o')
    {d d' : α} (hd : R d d')
    {f g : Node → Outcome α} (hfg : ∀ n n', V n n' → O.Holds R (f n) (g n')) :
    O.Holds R (optionalField d f o) (optionalField d' g o') := by
  cases h with
  | none => exact O.ok hd
  | some h => exact hfg _ _ h

theorem each {V : β → β → Prop} {xs ys : List β} (h : List.Forall₂ V xs ys) {f g : β → Outcome α}
    (hfg : ∀ x y, V x y → O.Holds R (f x) (g y)) :
    O.Holds (List.Forall₂ R) (decodeEach f xs) (decodeEach g ys) := by
  have heach (f : β → Outcome α) (x : β) (xs : List β) :
      decodeEach f (x :: xs) = f x >>= fun a => decodeEach f xs >>= fun as => .ok (a :: as) := by
    rw [decodeEach]
    cases f x with
    | error p => rfl
    | ok a =>
      change _ = decodeEach f xs >>= fun as => .ok (a :: as)
      cases decodeEach f xs <;> rfl
  induction h with
  | nil => exact O.ok .nil
  | cons hxy _ ih =>
    rw [heach, heach]
    exact O.bind (hfg _ _ hxy) fun a b hab => O.bind ih fun as bs habs => O.ok (.cons hab habs)

/-- The first reading refines itself in the second one. -/
def refining : OutcomeComparison where
  Admits _ := True
  admits _ := trivial
  Holds R x y := Refines R x y
  ok h := .ok h
  error _ _ _ := .error _ _
  bind h hfg := h.bind hfg
  inPart part name h := h.inPart part name

end OutcomeComparison

/-! ## Types -/

/-- A relation of types that goes along with building types in order.  Only the members of a
shape may be related in another order. -/
structure TypeComparison where
  Rel : Ty → Ty → Prop
  Members : List Member → List Member → Prop
  refl : ∀ t, Rel t t
  array : ∀ {t u}, Rel t u → Rel (.array t) (.array u)
  tuple : ∀ {ts us}, List.Forall₂ Rel ts us → Rel (.tuple ts) (.tuple us)
  union : ∀ {ts us}, List.Forall₂ Rel ts us → Rel (.union ts) (.union us)
  inter : ∀ {ts us}, List.Forall₂ Rel ts us → Rel (.inter ts) (.inter us)
  object : ∀ {ms ns}, Members ms ns → Rel (.object ms) (.object ns)
  interface : ∀ {name ts us ms ns bs cs}, List.Forall₂ (TypeParam.Alike true Rel) ts us →
    Members ms ns →
    List.Forall₂ Rel bs cs → Rel (.interface name ts ms bs) (.interface name us ns cs)
  classType : ∀ {name ts us ms ns b c}, List.Forall₂ (TypeParam.Alike true Rel) ts us →
    Members ms ns → Rel b c → Rel (.classType name ts ms b) (.classType name us ns c)
  function : ∀ {s s'}, Signature.Alike true Rel s s' → Rel (.function s) (.function s')
  ctor : ∀ {s s'}, Signature.Alike true Rel s s' → Rel (.ctor s) (.ctor s')
  param : ∀ name {t u}, Rel t u → Rel (.param name t) (.param name u)
  indexed : ∀ {o p i j}, Rel o p → Rel i j → Rel (.indexed o i) (.indexed p j)
  noMembers : Members [] []
  addMembers : ∀ {ms ns ms' ns'}, Members ms ns → List.Forall₂ (Member.Alike true Rel) ms' ns' →
    Members (ms ++ ms') (ns ++ ns')

/-- Types that are equal. -/
def TypeComparison.equal : TypeComparison where
  Rel := Eq
  Members := Eq
  refl _ := rfl
  array h := congrArg _ h
  tuple h := congrArg _ (eq_of_forall₂ (fun _ _ => id) h)
  union h := congrArg _ (eq_of_forall₂ (fun _ _ => id) h)
  inter h := congrArg _ (eq_of_forall₂ (fun _ _ => id) h)
  object h := congrArg _ h
  interface hts hms hbs := by
    rw [eq_of_forall₂ (fun _ _ => TypeParam.Alike.eq) hts, hms, eq_of_forall₂ (fun _ _ => id) hbs]
  classType hts hms hb := by rw [eq_of_forall₂ (fun _ _ => TypeParam.Alike.eq) hts, hms, hb]
  function h := congrArg _ h.eq
  ctor h := congrArg _ h.eq
  param _ _ _ h := congrArg _ h
  indexed ho hi := by rw [ho, hi]
  noMembers := rfl
  addMembers hms hms' := by rw [hms, eq_of_forall₂ (fun _ _ => Member.Alike.eq) hms']

/-! ## Nodes -/

namespace Node

theorem line_bare (n : Node) : n.bare.line = n.line := by cases n <;> rfl

theorem isBlankScalar_bare (n : Node) : n.bare.isBlankScalar = n.isBlankScalar := by cases n <;> rfl

/-- Nodes that are the same without their parts. -/
inductive SameForm : Node → Node → Prop where
  | document (i : Info) (cs cs' : List Node) : SameForm (.document i cs) (.document i cs')
  | sequence (i : Info) (ns ns' : List Node) : SameForm (.sequence i ns) (.sequence i ns')
  | mapping (i : Info) (es es' : List (Node × Node)) : SameForm (.mapping i es) (.mapping i es')
  | scalar (i : Info) (s : ByteText) : SameForm (.scalar i s) (.scalar i s)
  | alias (i : Info) (s : String) (t : Option Nat) : SameForm (.alias i s t) (.alias i s t)
  | unknown (i : Info) (s : String) : SameForm (.unknown i s) (.unknown i s)

theorem sameForm_of_bare_eq {n n' : Node} (h : n.bare = n'.bare) : n.SameForm n' := by
  cases n <;> cases n' <;> cases h <;> constructor

end Node

namespace Anchors

/-- Two nodes under anchors each, and what decoding looks at in them. -/
structure Comparison (A B : Anchors) extends OutcomeComparison, TypeComparison where
  Nodes : Role → Node → Node → Prop
  Entries : Role → Fields → Fields → Prop
  /-- Nodes have the same form, or the first one is an alias that need not be read. -/
  bare : ∀ {r n n'}, Nodes r n n' →
    n.bare = n'.bare ∨ (∃ i s t, n = .alias i s t) ∧ toOutcomeComparison.Lenient
  value : ∀ {n n'}, Nodes .member n n' → Nodes .type n n'
  text : ∀ {n n'}, Nodes .text n n' → n.value = n'.value
  literal : ∀ {n n'}, Nodes .literal n n' → Holds Rel (A.decodeLiteral n) (B.decodeLiteral n')
  flag : ∀ {r n n'}, Nodes r n n' →
    Holds Eq ((A.wanted Scalar.toBool n).orFail false) ((B.wanted Scalar.toBool n').orFail false)
  texts : ∀ {r n n'}, Nodes r n n' →
    Holds Eq ((A.wantedTexts n).orFail []) ((B.wantedTexts n').orFail [])
  items : ∀ {r n n'}, Nodes r n n' → Holds (List.Forall₂ (Nodes r)) (A.items n) (B.items n')
  itemsOf : ∀ {r n n'} key, Nodes r n n' →
    Holds (List.Forall₂ (Nodes r)) (itemsOf key n) (itemsOf key n')
  fields : ∀ {r n n'}, Nodes r n n' → Holds (Entries r) (A.fields n) (B.fields n')
  get? : ∀ {r f f'}, Entries r f f' →
    ∀ key, Option.Rel (Nodes (r.field key)) (f.get? key) (f'.get? key)
  /-- Fields with one entry go together. -/
  single : ∀ {r f f'}, Entries r f f' →
    (∃ key v v', f.entries = [(key, v)] ∧ f'.entries = [(key, v')] ∧ Nodes (r.field key) v v') ∨
      (∀ e, f.entries ≠ [e]) ∧ ∀ e, f'.entries ≠ [e]
  /-- The members that are read off the entries. -/
  named : ∀ {f f'} {one one' : String × Node → Outcome Member}, Entries .members f f' →
    (∀ raw v v', Nodes .member v v' →
      Holds (Member.Alike true Rel) (one (raw, v)) (one' (raw, v'))) →
    Holds Members (decodeEach one f.entries) (decodeEach one' f'.entries)
  source : ∀ {N N'} source, Names.Related Rel N N' →
    Holds Rel (decodeSource N source) (decodeSource N' source)

namespace Comparison

variable {A B : Anchors} (C : A.Comparison B) {r : Role} {n n' : Node} {f f' : Fields}
  {N N' : Names}

/-- The types inside related nodes.  A member that is an alias on one side only is looked at
as a whole. -/
structure Answers (ask ask' : Ask) : Prop where
  type : ∀ {N N' n n'}, Names.Related C.Rel N N' → C.Nodes .type n n' →
    C.Holds C.Rel (ask N n) (ask' N' n')
  member : ∀ {N N' i s t n'} raw, Names.Related C.Rel N N' → C.Nodes .member (.alias i s t) n' →
    .alias i s t ≠ n'.bare →
    C.Holds (Member.Alike true C.Rel) (A.decodeMember ask N raw (.alias i s t))
      (B.decodeMember ask' N' raw n')

/-! ### What is looked at in a node -/

/-- Related nodes give rise to the same problem, each with its line. -/
theorem problem {α : Type} (R : α → α → Prop) (h : C.Nodes r n n') {p : Int → Problem}
    (hp : ∀ l, (p l).IsLocal) : C.Holds R (.error (p n.line)) (.error (p n'.line)) := by
  rcases C.bare h with hbare | ⟨-, hlenient⟩
  · have hline : n.line = n'.line := by rw [← n.line_bare, hbare, n'.line_bare]
    rw [hline]
    exact C.error R (C.admits (hp _))
  · exact hlenient R _ _

theorem optionalFlag (hf : C.Entries r f f') (key : String) :
    C.Holds Eq (optionalField false (fun n => (A.wanted Scalar.toBool n).orFail false) (f.get? key))
      (optionalField false (fun n => (B.wanted Scalar.toBool n).orFail false) (f'.get? key)) :=
  C.optionalField (C.get? hf key) rfl fun _ _ => C.flag

theorem text_eq (hf : C.Entries r f f') {key : String} (hkey : r.field key = .text) :
    (f.get? key).map Node.value = (f'.get? key).map Node.value := by
  have hget := C.get? hf key
  rw [hkey] at hget
  generalize f.get? key = o at hget ⊢
  generalize f'.get? key = o' at hget ⊢
  cases hget with
  | none => rfl
  | some h => exact congrArg some (C.text h)

/-! ### Parameters as they are written -/

/-- The marks around a name say nothing about the node. -/
theorem readMarks_withNode (form : ParamForm) (node? : Option Node) :
    { form with node? }.readMarks = { form.readMarks with node? } := by
  delta ParamForm.readMarks
  dsimp only
  cases afterBeginning? "..." form.name with
  | none => cases beforeEnding? "?" form.name <;> rfl
  | some rest => cases beforeEnding? "?" rest <;> rfl

/-- Parameters as they are written that differ only in their types, which are related. -/
def Forms (p p' : ParamForm) : Prop :=
  ∃ o, p' = { p with node? := o } ∧ Option.Rel (C.Nodes .type) p.node? o

variable {C} in
theorem Forms.readMarks {p p' : ParamForm} (h : C.Forms p p') :
    C.Forms p.readMarks p'.readMarks := by
  obtain ⟨o, rfl, hnode⟩ := h
  have hsame : p.readMarks.node? = p.node? := congrArg (·.node?) (readMarks_withNode p p.node?)
  exact ⟨o, readMarks_withNode p o, hsame ▸ hnode⟩

theorem paramFormOfFields (hf : C.Entries .parameter f f') :
    C.Holds C.Forms (A.paramFormOfFields f) (B.paramFormOfFields f') := by
  rw [Anchors.paramFormOfFields, Anchors.paramFormOfFields,
    ← Fields.has_eq_of_rel (C.get? hf) "name"]
  split
  · next key v hentries hhas =>
    obtain ⟨_, _, v', hentry, hentries', hv⟩ := (C.single hf).resolve_right fun h => h.1 _ hentries
    obtain ⟨rfl, rfl⟩ : key = _ ∧ v = _ := by simpa using hentries.symm.trans hentry
    have hkey : key ≠ "name" := by
      rintro rfl
      simp [Fields.has, Fields.get?, hentries] at hhas
    rw [Role.field_parameter hkey] at hv
    rw [hentries', hhas]
    exact C.ok ⟨some v', rfl, .some hv⟩
  · next hmany =>
    split
    · next key v' hentries' hhas =>
      rcases C.single hf with ⟨key', v, -, hentries, -⟩ | ⟨-, hnone⟩
      · exact (hmany key' v hentries hhas).elim
      · exact absurd hentries' (hnone _)
    · refine C.bind (C.optionalFlag hf "optional") ?_
      rintro isOptional _ rfl
      refine C.bind (C.optionalFlag hf "rest") ?_
      rintro isRest _ rfl
      rw [C.text_eq hf rfl]
      exact C.ok ⟨_, rfl, C.get? hf "type"⟩

theorem paramForm (h : C.Nodes .parameter n n') :
    C.Holds C.Forms (A.paramForm n) (B.paramForm n') := by
  rcases C.bare h with hbare | ⟨⟨i, s, t, rfl⟩, hlenient⟩
  · cases Node.sameForm_of_bare_eq hbare with
    | scalar i s => exact C.ok ⟨none, rfl, .none⟩
    | mapping i es es' => exact C.bind (C.fields h) fun _ _ => C.paramFormOfFields
    | _ => exact C.problem _ h fun _ => ⟨nofun, nofun⟩
  · exact hlenient _ _ _

/-- Type parameters as they are written, with related bounds. -/
theorem typeParamForm (h : C.Nodes .typeParameter n n') :
    C.Holds (fun p p' => p.1 = p'.1 ∧ Option.Rel (C.Nodes .type) p.2.1 p'.2.1 ∧ p.2.2 = p'.2.2)
      (A.typeParamForm n) (B.typeParamForm n') := by
  rcases C.bare h with hbare | ⟨⟨i, s, t, rfl⟩, hlenient⟩
  · cases Node.sameForm_of_bare_eq hbare with
    | scalar i s => exact C.ok ⟨rfl, .none, rfl⟩
    | mapping i es es' =>
      refine C.bind (C.fields h) fun f f' hf => ?_
      rw [C.text_eq hf rfl]
      exact C.ok ⟨rfl, C.get? hf "extends", rfl⟩
    | _ => exact C.problem _ h fun _ => ⟨nofun, nofun⟩
  · exact hlenient _ _ _

theorem methodNode? (h : C.Nodes .member n n') (hbare : n.bare = n'.bare) :
    C.Holds (Option.Rel (C.Nodes .signature)) (A.methodNode? n) (B.methodNode? n') := by
  cases Node.sameForm_of_bare_eq hbare with
  | mapping i es es' => exact C.map (C.fields h) fun _ _ hf => C.get? hf "method"
  | _ => exact C.ok .none

/-! ### Leaves -/

theorem decodeEnum (name : String) (hf : C.Entries r f f') :
    C.Holds C.Rel (A.decodeEnum name f) (B.decodeEnum name f') := by
  refine C.bind (C.inPart _ _ (C.optionalField (C.get? hf "members") rfl fun _ _ => C.texts)) ?_
  rintro members _ rfl
  refine C.bind (C.inPart _ _ (C.optionalFlag hf "const")) ?_
  rintro isConst _ rfl
  exact C.ok (C.refl _)

theorem decodeVariant (h : C.Nodes .text n n') :
    C.Holds C.Rel (Anchors.decodeVariant n) (Anchors.decodeVariant n') := by
  rw [Anchors.decodeVariant, Anchors.decodeVariant, C.text h]
  split
  · exact C.ok (C.refl _)
  · exact C.problem (p := fun l => .badVariant l n'.value) _ h fun _ => ⟨nofun, nofun⟩

theorem shapeOf (line : Int) (hf : C.Entries r f f') :
    C.Holds (fun s s' => s.1 ∈ shapeKeys ∧ s.1 = s'.1 ∧ C.Nodes (r.field s.1) s.2 s'.2)
      (Anchors.shapeOf line f) (Anchors.shapeOf line f') := by
  have hshapes := Fields.forall₂_filterMap (C.get? hf) shapeKeys
  rw [Anchors.shapeOf, Anchors.shapeOf]
  generalize shapeKeys.filterMap (fun key => (f.get? key).map (key, ·)) = shapes at hshapes ⊢
  generalize shapeKeys.filterMap (fun key => (f'.get? key).map (key, ·)) = shapes' at hshapes ⊢
  match hshapes with
  | .nil => exact C.error _ (C.admits ⟨nofun, nofun⟩)
  | .cons h .nil => exact C.ok h
  | .cons h (.cons k _) =>
    dsimp only
    rw [h.2.1, k.2.1]
    exact C.error _ (C.admits ⟨nofun, nofun⟩)

/-! ### Parts -/

section Parts

variable {ask ask' : Ask} (hask : C.Answers ask ask') (hN : Names.Related C.Rel N N')
include hask hN

theorem decodeList (h : C.Holds (List.Forall₂ (C.Nodes .type)) (A.items n) (B.items n')) :
    C.Holds (List.Forall₂ C.Rel) (A.decodeList ask N n) (B.decodeList ask' N' n') :=
  C.bind h fun _ _ hns => C.each hns fun _ _ => hask.type hN

theorem optionalType {o o' : Option Node} (h : Option.Rel (C.Nodes .type) o o') (d : Ty) :
    C.Holds C.Rel (optionalField d (ask N) o) (optionalField d (ask' N') o') :=
  C.optionalField h (C.refl d) fun _ _ => hask.type hN

theorem decodeGiven {o o' : Option Node} (h : Option.Rel (C.Nodes .type) o o') (source : String) :
    C.Holds C.Rel (Anchors.decodeGiven ask N o source) (Anchors.decodeGiven ask' N' o' source) := by
  cases h with
  | some h => exact hask.type hN h
  | none =>
    simp only [Anchors.decodeGiven]
    split
    · exact C.ok (C.refl _)
    · exact C.source source hN

theorem decodeParam (h : C.Nodes .parameter n n') :
    C.Holds (Param.Alike true C.Rel) (A.decodeParam ask N n) (B.decodeParam ask' N' n') := by
  refine C.bind (C.paramForm h) fun p p' hforms => ?_
  obtain ⟨o, hform, hnode⟩ := hforms.readMarks
  generalize p.readMarks = form at hform hnode ⊢
  rw [hform]
  dsimp only
  split
  · exact C.problem _ h fun _ => ⟨nofun, nofun⟩
  · exact C.bind (C.inPart _ _ (C.decodeGiven hask hN hnode _)) fun _ _ ht => C.ok ⟨rfl, ht⟩

theorem decodeTypeParam (h : C.Nodes .typeParameter n n') :
    C.Holds (TypeParam.Alike true C.Rel) (A.decodeTypeParam ask N n)
      (B.decodeTypeParam ask' N' n') := by
  refine C.bind (C.typeParamForm h) ?_
  rintro ⟨name, node?, source⟩ ⟨_, node?', _⟩ ⟨rfl, hnode, rfl⟩
  dsimp only
  split
  · exact C.problem _ h fun _ => ⟨nofun, nofun⟩
  · exact C.bind (C.inPart _ _ (C.decodeGiven hask hN hnode _)) fun _ _ ht => C.ok ⟨rfl, ht⟩

theorem decodeTypeParamsFrom {earlier earlier' : List TypeParam}
    (hearlier : List.Forall₂ (TypeParam.Alike true C.Rel) earlier earlier') {ns ns' : List Node}
    (h : List.Forall₂ (C.Nodes .typeParameter) ns ns') :
    C.Holds (List.Forall₂ (TypeParam.Alike true C.Rel)) (A.decodeTypeParamsFrom ask N earlier ns)
      (B.decodeTypeParamsFrom ask' N' earlier' ns') := by
  induction h generalizing earlier earlier' with
  | nil => exact C.ok hearlier
  | cons hn _ ih =>
    exact C.bind (C.decodeTypeParam hask (hN.enter C.param hearlier) hn) fun _ _ ht =>
      ih (List.rel_append hearlier (.cons ht .nil))

/-- Type parameters are alike, and inside them the names are related. -/
theorem decodeScope (hf : C.Entries r f f') (hr : r.field "typeParams" = .typeParameter) :
    C.Holds (fun p p' =>
      List.Forall₂ (TypeParam.Alike true C.Rel) p.1 p'.1 ∧ Names.Related C.Rel p.2 p'.2)
      (A.decodeScope ask N f) (B.decodeScope ask' N' f') := by
  have hget := C.get? hf "typeParams"
  rw [hr] at hget
  rw [Anchors.decodeScope, Anchors.decodeScope]
  generalize f.get? "typeParams" = o at hget ⊢
  generalize f'.get? "typeParams" = o' at hget ⊢
  cases hget with
  | none => exact C.ok ⟨.nil, hN⟩
  | some h =>
    refine C.bind (R := List.Forall₂ (TypeParam.Alike true C.Rel)) ?_ fun _ _ hts =>
      C.ok ⟨hts, hN.enter C.param hts⟩
    exact C.bind (C.itemsOf _ h) fun _ _ hns => C.decodeTypeParamsFrom hask hN .nil hns

theorem decodeSignature (h : C.Nodes .signature n n') :
    C.Holds (Signature.Alike true C.Rel) (A.decodeSignature ask N n)
      (B.decodeSignature ask' N' n') := by
  rcases C.bare h with hbare | ⟨⟨i, s, t, rfl⟩, hlenient⟩
  · have hblank : n.isBlankScalar = n'.isBlankScalar := by
      rw [← n.isBlankScalar_bare, hbare, n'.isBlankScalar_bare]
    rw [Anchors.decodeSignature, Anchors.decodeSignature, hblank]
    split
    · exact C.ok (.mk .nil .nil (C.refl _))
    · refine C.bind (C.fields h) fun f f' hf => C.bind (C.decodeScope hask hN hf rfl) ?_
      rintro ⟨ts, M⟩ ⟨ts', M'⟩ ⟨hts, hM⟩
      refine C.bind (R := List.Forall₂ (Param.Alike true C.Rel)) ?_ fun ps ps' hps => ?_
      · exact C.optionalField (C.get? hf "params") .nil fun _ _ hv =>
          C.bind (C.itemsOf _ hv) fun _ _ hns => C.each hns fun _ _ => C.decodeParam hask hM
      · exact C.bind (C.optionalType hask hM (C.get? hf "returns") _) fun _ _ hr =>
          C.ok (.mk hts hps hr)
  · obtain ⟨p, hp⟩ := A.exists_fields_alias i s t
    have hfail : A.decodeSignature ask N (.alias i s t) = .error p :=
      congrArg (fun x => x >>= _) hp
    rw [hfail]
    exact hlenient _ _ _

theorem decodeMember (raw : String) (h : C.Nodes .member n n') :
    C.Holds (Member.Alike true C.Rel) (A.decodeMember ask N raw n)
      (B.decodeMember ask' N' raw n') := by
  by_cases hbare : n.bare = n'.bare
  · refine C.bind (C.methodNode? h hbare) fun m? m?' hm => ?_
    cases hm with
    | some hm => exact C.map (C.decodeSignature hask hN hm) fun _ _ hs => .method rfl hs
    | none =>
      have hnull : n.isNullScalar = n'.isNullScalar := by
        rw [← n.isNullScalar_bare, hbare, n'.isNullScalar_bare]
      simp only [hnull]
      split
      · exact C.ok (.property rfl (C.refl _))
      · exact C.bind (hask.type hN (C.value h)) fun _ _ ht => C.ok (.property rfl ht)
  · obtain ⟨⟨i, s, t, rfl⟩, -⟩ := (C.bare h).resolve_left hbare
    exact hask.member raw hN h hbare

theorem decodeNamed (h : C.Nodes .members n n') :
    C.Holds C.Members (A.decodeNamed ask N n) (B.decodeNamed ask' N' n') := by
  rcases C.bare h with hbare | ⟨⟨i, s, t, rfl⟩, hlenient⟩
  · have hblank : n.isBlankScalar = n'.isBlankScalar := by
      rw [← n.isBlankScalar_bare, hbare, n'.isBlankScalar_bare]
    rw [Anchors.decodeNamed, Anchors.decodeNamed, hblank]
    split
    · exact C.ok C.noMembers
    · exact C.bind (C.fields h) fun f f' hf => C.named hf fun raw v v' hv =>
        C.inPart _ _ (C.decodeMember hask hN raw hv)
  · obtain ⟨p, hp⟩ := A.exists_fields_alias i s t
    have hfail : A.decodeNamed ask N (.alias i s t) = .error p :=
      congrArg (fun x => x >>= _) hp
    rw [hfail]
    exact hlenient _ _ _

theorem decodeIndex (h : C.Nodes .index n n') :
    C.Holds (Member.Alike true C.Rel) (A.decodeIndex ask N n) (B.decodeIndex ask' N' n') := by
  refine C.bind (C.fields h) fun f f' hf => ?_
  refine C.bind (C.optionalType hask hN (C.get? hf "key") _) fun k k' hk => ?_
  refine C.bind (C.optionalType hask hN (C.get? hf "type") _) fun t t' ht => ?_
  refine C.bind (C.optionalFlag hf "readonly") ?_
  rintro isReadonly _ rfl
  rw [C.text_eq hf rfl]
  exact C.ok (.index rfl hk ht)

omit hask hN in
theorem decodeUnnamed (hf : C.Entries r f f') (key : String) {one one' : Node → Outcome Member}
    (hone : ∀ n n', C.Nodes (r.field key) n n' →
      C.Holds (Member.Alike true C.Rel) (one n) (one' n')) :
    C.Holds (List.Forall₂ (Member.Alike true C.Rel)) (Anchors.decodeUnnamed key f one)
      (Anchors.decodeUnnamed key f' one') :=
  C.optionalField (C.get? hf key) .nil fun _ _ hv => C.bind (C.itemsOf key hv) fun _ _ hns =>
    C.each hns hone

theorem decodeMembers {o o' : Option Node} (ho : Option.Rel (C.Nodes .members) o o')
    (hf : C.Entries .type f f') :
    C.Holds C.Members (A.decodeMembers ask N o f) (B.decodeMembers ask' N' o' f') := by
  refine C.bind (C.optionalField ho C.noMembers fun _ _ => C.decodeNamed hask hN)
    fun named named' hnamed => ?_
  refine C.bind (C.decodeUnnamed hf "indexes" fun _ _ => C.decodeIndex hask hN)
    fun indexes indexes' hindexes => ?_
  refine C.bind (C.decodeUnnamed hf "calls" fun _ _ h =>
    C.map (C.decodeSignature hask hN h) fun _ _ => .call) fun calls calls' hcalls => ?_
  refine C.bind (C.decodeUnnamed hf "constructs" fun _ _ h =>
    C.map (C.decodeSignature hask hN h) fun _ _ => .construct)
    fun constructs constructs' hconstructs => ?_
  exact C.ok (C.addMembers (C.addMembers (C.addMembers hnamed hindexes) hcalls) hconstructs)

/-! ### Shapes -/

theorem decodeInterface (name : String) (hf : C.Entries .type f f') :
    C.Holds C.Rel (A.decodeInterface ask N name f) (B.decodeInterface ask' N' name f') := by
  refine C.bind (C.decodeScope hask hN hf rfl) ?_
  rintro ⟨ts, M⟩ ⟨ts', M'⟩ ⟨hts, hM⟩
  refine C.bind (C.inPart _ _ (C.decodeMembers hask hM (C.get? hf "members") hf))
    fun ms ms' hms => ?_
  refine C.bind (R := List.Forall₂ C.Rel) (C.inPart _ _ ?_) fun bs bs' hbs =>
    C.ok (C.interface hts hms hbs)
  exact C.optionalField (C.get? hf "extends") .nil fun _ _ h => C.decodeList hask hM (C.items h)

theorem decodeClass (name : String) (hf : C.Entries .type f f') :
    C.Holds C.Rel (A.decodeClass ask N name f) (B.decodeClass ask' N' name f') := by
  refine C.bind (C.decodeScope hask hN hf rfl) ?_
  rintro ⟨ts, M⟩ ⟨ts', M'⟩ ⟨hts, hM⟩
  refine C.bind (C.inPart _ _ (C.decodeMembers hask hM (C.get? hf "members") hf))
    fun ms ms' hms => ?_
  exact C.bind (C.inPart _ _ (C.optionalType hask hM (C.get? hf "super") _)) fun _ _ hbase =>
    C.ok (C.classType hts hms hbase)

theorem decodeIndexed (h : C.Nodes .type n n') :
    C.Holds C.Rel (A.decodeIndexed ask N n) (B.decodeIndexed ask' N' n') := by
  refine C.bind (C.decodeList hask hN (C.items h)) fun ts ts' hts => ?_
  have hbad : C.Holds C.Rel (.error (.badIndexed n.line)) (.error (.badIndexed n'.line)) :=
    C.problem _ h fun _ => ⟨nofun, nofun⟩
  match hts with
  | .nil => exact hbad
  | .cons _ .nil => exact hbad
  | .cons ho (.cons hi .nil) => exact C.ok (C.indexed ho hi)
  | .cons _ (.cons _ (.cons _ _)) => exact hbad

theorem decodeShape (hf : C.Entries .type f f') {key : String} (hkey : key ∈ shapeKeys)
    (h : C.Nodes (Role.field .type key) n n') :
    C.Holds C.Rel (A.decodeShape ask N f n key) (B.decodeShape ask' N' f' n' key) := by
  simp only [shapeKeys, List.mem_cons, List.not_mem_nil, or_false] at hkey
  rcases hkey with rfl | rfl | rfl | rfl | rfl | rfl | rfl | rfl | rfl | rfl | rfl | rfl |
    rfl | rfl | rfl
  · exact C.map (hask.type hN h) fun _ _ => C.array
  · exact C.map (C.decodeList hask hN (C.items h)) fun _ _ => C.tuple
  · exact C.map (C.decodeList hask hN (C.items h)) fun _ _ => C.union
  · exact C.map (C.decodeList hask hN (C.items h)) fun _ _ => C.inter
  · exact C.literal h
  · exact C.map (C.decodeSignature hask hN h) fun _ _ => C.function
  · exact C.map (C.decodeSignature hask hN h) fun _ _ => C.ctor
  · exact C.map (C.decodeMembers hask hN (.some h) hf) fun _ _ => C.object
  · simp only [Anchors.decodeShape, C.text h]
    exact C.decodeInterface hask hN _ hf
  · simp only [Anchors.decodeShape, C.text h]
    exact C.decodeClass hask hN _ hf
  · simp only [Anchors.decodeShape, C.text h]
    exact C.decodeEnum _ hf
  · exact C.decodeVariant h
  · simp only [Anchors.decodeShape, C.text h]
    exact C.map (C.optionalType hask hN (C.get? hf "extends") _) fun _ _ => C.param _
  · exact C.decodeIndexed hask hN h
  · simp only [Anchors.decodeShape, C.text h]
    exact C.ok (C.refl _)

theorem decodeMapping (hline : n.line = n'.line)
    (h : C.Holds (C.Entries .type) (A.fields n) (B.fields n')) :
    C.Holds C.Rel (A.decodeMapping ask N n) (B.decodeMapping ask' N' n') := by
  refine C.bind h fun f f' hf => ?_
  rw [hline]
  refine C.bind (C.shapeOf _ hf) ?_
  rintro ⟨shape, v⟩ ⟨_, v'⟩ ⟨hshape, rfl, hv⟩
  exact C.decodeShape hask hN hf hshape hv

end Parts

end Comparison

end Anchors

end StructuralTyping.Yaml
