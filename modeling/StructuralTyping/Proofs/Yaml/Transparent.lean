import Mathlib.Data.Option.Basic
import StructuralTyping.Proofs.Yaml.Expand
import StructuralTyping.Proofs.Yaml.Fields

/-!
# Aliases that are seen through

A type may stand anywhere behind an alias.  A text may not: where a name or a literal text
is wanted, an alias is read as its own name.  A member that is an alias is taken for a
property with a type, whatever its target is.  `Anchors.SeesThrough` says that no alias of
a document stands at such a place.  What a node is taken for is its `Role`, and
`Anchors.StandsAt` follows the roles from the root through the document and its aliases.

Decoding a node is compared with decoding its expansion by `Refines`: a success on one side
is a success on the other side, and the results are related.  Failures on the left side
are not compared, since the two may fail at different lines or for different reasons.
-/

namespace StructuralTyping.Yaml

/-! ## Places -/

/-- What a node is taken for.  The items of a list are taken for the same as the list. -/
inductive Role where
  | type
  | literal
  | text
  | signature
  | parameter
  | typeParameter
  | members
  | member
  | index
  | plain
  deriving DecidableEq, Repr

/-- What the value of a key is taken for. -/
def Role.field : Role → String → Role
  | .type, "literal" => .literal
  | .type, "interface" | .type, "class" | .type, "enum" => .text
  | .type, "variant" | .type, "param" | .type, "other" => .text
  | .type, "fn" | .type, "new" | .type, "calls" | .type, "constructs" => .signature
  | .type, "object" | .type, "members" => .members
  | .type, "indexes" => .index
  | .type, "typeParams" | .signature, "typeParams" => .typeParameter
  | .signature, "params" => .parameter
  | .parameter, "name" | .typeParameter, "name" | .index, "param" => .text
  | .members, _ => .member
  | .member, "method" => .signature
  | .type, _ | .signature, _ | .parameter, _ | .typeParameter, _ | .index, _ => .type
  | _, _ => .plain

theorem Role.field_parameter {key : String} (h : key ≠ "name") :
    Role.field .parameter key = .type := by
  unfold Role.field
  split <;> simp_all

/-- The node is a mapping with the key `method`. -/
def Node.hasMethod : Node → Bool
  | .mapping _ es => es.any fun e => trimSpace e.1.value == "method"
  | _ => false

namespace Anchors

/-- A node in a document or behind its aliases, and what it is taken for.  The value of a
member is taken for a type as well. -/
inductive StandsAt (A : Anchors) (root : Node) : Role → Node → Prop where
  | root : StandsAt A root .type root
  | child {r : Role} {i : Info} {cs : List Node} {c : Node}
      (h : StandsAt A root r (.document i cs)) (hc : c ∈ cs) : StandsAt A root r c
  | item {r : Role} {i : Info} {ns : List Node} {n : Node}
      (h : StandsAt A root r (.sequence i ns)) (hn : n ∈ ns) : StandsAt A root r n
  | entry {r : Role} {i : Info} {es : List (Node × Node)} {e : Node × Node}
      (h : StandsAt A root r (.mapping i es)) (he : e ∈ es) :
      StandsAt A root (r.field (trimSpace e.1.value)) e.2
  | target {r : Role} {i : Info} {s : String} {t : Nat} {m : Node}
      (h : StandsAt A root r (.alias i s (some t))) (htarget : A[t]? = some m) : StandsAt A root r m
  | value {n : Node} (h : StandsAt A root .member n) : StandsAt A root .type n

/-- No alias stands where its own form is looked at: for a text, for a literal that is a
text, or for a member that has no type or is a method. -/
structure SeesThrough (A : Anchors) (root : Node) : Prop where
  text : ∀ {i s t}, ¬ A.StandsAt root .text (.alias i s t)
  literal : ∀ {i s t}, A.StandsAt root .literal (.alias i s t) →
    i.tag? = none ∧ A.tag (.alias i s t) ≠ .ok (some .text)
  member : ∀ {i s t m}, A.StandsAt root .member (.alias i s (some t)) → A[t]? = some m →
    m.isNullScalar = false ∧ m.hasMethod = false

/-- A node, what it is taken for, and its expansion with at most so many levels. -/
structure Related (A : Anchors) (root : Node) (k : Nat) (r : Role) (n n' : Node) : Prop where
  stands : A.StandsAt root r n
  expands : A.Expands n n'
  depth_le : n'.depth ≤ k

end Anchors

/-! ## Outcomes -/

/-- A success goes over into a success with a related value. -/
def Refines (R : α → β → Prop) (x : Outcome α) (y : Outcome β) : Prop :=
  ∀ a, x = .ok a → ∃ b, y = .ok b ∧ R a b

namespace Refines

variable {R : α → β → Prop} {S : γ → δ → Prop} {x : Outcome α} {y : Outcome β}

theorem ok {a : α} {b : β} (h : R a b) : Refines R (.ok a) (.ok b) := by
  rintro _ ⟨⟩
  exact ⟨b, rfl, h⟩

theorem error (p : Problem) (y : Outcome β) : Refines R (.error p) y := nofun

theorem refl (x : Outcome α) : Refines Eq x x := fun a h => ⟨a, h, rfl⟩

theorem bind (h : Refines R x y) {f : α → Outcome γ} {g : β → Outcome δ}
    (hfg : ∀ a b, R a b → Refines S (f a) (g b)) : Refines S (x >>= f) (y >>= g) := by
  cases x with
  | error p => exact .error p _
  | ok a =>
    obtain ⟨b, rfl, hab⟩ := h a rfl
    exact hfg a b hab

theorem map (h : Refines R x y) {f : α → γ} {g : β → δ} (hfg : ∀ a b, R a b → S (f a) (g b)) :
    Refines S (x.map f) (y.map g) := by
  cases x with
  | error p => exact .error p _
  | ok a =>
    obtain ⟨b, rfl, hab⟩ := h a rfl
    exact .ok (hfg a b hab)

theorem mapEq {x y : Outcome α} (h : Refines Eq x y) (f : α → γ) : Refines Eq (x.map f) (y.map f) :=
  h.map fun _ _ h => congrArg f h

theorem inPart (h : Refines R x y) (part : Part) (name : String) :
    Refines R (Yaml.inPart part name x) (Yaml.inPart part name y) := by
  cases x with
  | error p => exact .error _ _
  | ok a =>
    obtain ⟨b, rfl, hab⟩ := h a rfl
    exact .ok hab

end Refines

namespace Anchors

variable {A B : Anchors} {root : Node} {k : Nat} {r : Role} {n n' : Node}

/-! ## Nodes and their expansions -/

/-- An expansion has the keys of the node. -/
theorem Expands.hasMethod_eq (h : A.Expands n n') (hn : n.isAlias = false) :
    n.hasMethod = n'.hasMethod := by
  have hany (es : List (Node × Node)) : (es.any fun e => trimSpace e.1.value == "method") =
      (es.map (·.1)).any fun key => trimSpace key.value == "method" := by rw [List.any_map]; rfl
  cases n with
  | scalar => rw [h.scalar_inv]
  | unknown => rw [h.unknown_inv]
  | document =>
    obtain ⟨_, rfl, _⟩ := h.document_inv
    rfl
  | sequence =>
    obtain ⟨_, rfl, _⟩ := h.sequence_inv
    rfl
  | mapping =>
    obtain ⟨_, rfl, hkeys, _⟩ := h.mapping_inv
    rw [Node.hasMethod, Node.hasMethod, hany, hkeys, ← hany]
  | «alias» => cases hn

theorem Related.succ (h : A.Related root k r n n') : A.Related root (k + 1) r n n' :=
  ⟨h.stands, h.expands, Nat.le_succ_of_le h.depth_le⟩

theorem related_items {ns ns' : List Node} (hstands : ∀ n ∈ ns, A.StandsAt root r n)
    (hns : List.Forall₂ A.Expands ns ns') (hdepth : Node.depths ns' ≤ k) :
    List.Forall₂ (A.Related root k r) ns ns' := by
  induction hns with
  | nil => exact .nil
  | cons hn _ ih =>
    rw [Node.depths] at hdepth
    refine .cons ⟨hstands _ (.head _), hn, by omega⟩
      (ih (fun n hn => hstands n (.tail _ hn)) (by omega))

theorem related_entries {es es' : List (Node × Node)}
    (hstands : ∀ e ∈ es, A.StandsAt root (r.field (trimSpace e.1.value)) e.2)
    (hkeys : es.map (·.1) = es'.map (·.1))
    (hvalues : List.Forall₂ A.Expands (es.map (·.2)) (es'.map (·.2)))
    (hdepth : Node.entryDepths es' ≤ k) :
    List.Forall₂ (fun e e' =>
      e.1 = e'.1 ∧ A.Related root k (r.field (trimSpace e.1.value)) e.2 e'.2) es es' := by
  induction es generalizing es' with
  | nil =>
    obtain rfl : es' = [] := by simpa using hkeys.symm
    exact .nil
  | cons e es ih =>
    obtain _ | ⟨⟨key, v⟩, es'⟩ := es'
    · cases hkeys
    · obtain ⟨hkey, hkeys⟩ := List.cons.inj hkeys
      cases hvalues with
      | cons hvalue hvalues =>
        rw [Node.entryDepths, Node.entryDepth] at hdepth
        refine .cons ⟨hkey, hstands e (.head _), hvalue, by dsimp only; omega⟩ ?_
        exact ih (fun e he => hstands e (.tail _ he)) hkeys hvalues (by omega)

/-! ## Lists and fields -/

theorem refines_items (h : A.Related root (k + 1) r n n') :
    Refines (List.Forall₂ (A.Related root k r)) (A.items n) (B.items n') := by
  intro ns hns
  obtain ⟨i, rfl⟩ := items_eq_ok_iff.1 hns
  obtain ⟨ns', rfl, hrel⟩ := h.expands.sequence_inv
  have hdepth := h.depth_le
  rw [Node.depth] at hdepth
  exact ⟨ns', rfl, related_items (fun n hn => h.stands.item hn) hrel (by omega)⟩

/-- A list that a key must have is a list. -/
theorem itemsOf_eq_ok_iff {key : String} {ns : List Node} :
    itemsOf key n = .ok ns ↔ A.items n = .ok ns := by
  rw [items_eq_ok_iff]
  cases n <;> simp [itemsOf]

theorem refines_itemsOf (key : String) (h : A.Related root k r n n') :
    Refines (List.Forall₂ (A.Related root k r)) (itemsOf key n) (itemsOf key n') := by
  intro ns hns
  obtain ⟨ns', hns', hrel⟩ := refines_items (B := A) h.succ ns (itemsOf_eq_ok_iff.1 hns)
  exact ⟨ns', itemsOf_eq_ok_iff.2 hns', hrel⟩

/-- The same keys in the same order with related values. -/
def RelatedFields (A : Anchors) (root : Node) (k : Nat) (r : Role) (f f' : Fields) : Prop :=
  List.Forall₂ (fun e e' => e.1 = e'.1 ∧ A.Related root k (r.field e.1) e.2 e'.2)
    f.entries f'.entries

theorem get?_eq_none_of_fields {f : Fields} (h : A.fields n = .ok f) (hn : n.hasMethod = false) :
    f.get? "method" = none := by
  obtain ⟨i, es, rfl, hentries, -⟩ := fields_eq_ok_iff.1 h
  rw [Fields.get?, List.lookup_eq_none_iff, hentries]
  intro e he
  obtain ⟨e', he', rfl⟩ := List.mem_map.1 he
  have hne := List.any_eq_false.1 hn e' he'
  exact bne_iff_ne.2 fun heq => hne (beq_iff_eq.2 heq.symm)

theorem refines_fields (h : A.Related root (k + 1) r n n') :
    Refines (A.RelatedFields root k r) (A.fields n) (B.fields n') := by
  intro f hf
  obtain ⟨i, es, rfl, hentries, hnodup⟩ := fields_eq_ok_iff.1 hf
  obtain ⟨es', rfl, hkeys, hvalues⟩ := h.expands.mapping_inv
  have hdepth := h.depth_le
  rw [Node.depth] at hdepth
  have hrelated := related_entries (fun e he => h.stands.entry he) hkeys hvalues
    (Nat.le_of_succ_le_succ hdepth)
  have hkeys' : (es'.map Fields.entry).map (·.1) = f.keys := by
    rw [Fields.keys, hentries, List.map_map, List.map_map]
    simpa [Function.comp_def] using congrArg (List.map fun k => trimSpace k.value) hkeys.symm
  refine ⟨⟨es'.map Fields.entry⟩, fields_eq_ok_iff.2 ⟨_, es', rfl, rfl, ?_⟩, ?_⟩
  · rw [Fields.keys, hkeys']
    exact hnodup
  · rw [RelatedFields, hentries, List.forall₂_map_left_iff, List.forall₂_map_right_iff]
    refine hrelated.imp fun e e' he => ?_
    simpa only [Fields.entry_fst, Fields.entry_snd, he.1, true_and] using he.2

theorem RelatedFields.get? {f f' : Fields} (h : A.RelatedFields root k r f f') (key : String) :
    Option.Rel (A.Related root k (r.field key)) (f.get? key) (f'.get? key) := by
  obtain ⟨es⟩ := f
  obtain ⟨es'⟩ := f'
  change List.Forall₂ _ es es' at h
  change Option.Rel _ (es.lookup key) (es'.lookup key)
  induction h with
  | nil => exact .none
  | @cons e e' es es' he _ ih =>
    obtain ⟨key', v⟩ := e
    obtain ⟨_, v'⟩ := e'
    obtain ⟨rfl, hv⟩ := he
    rw [List.lookup_cons, List.lookup_cons]
    cases hkey : key == key' with
    | false => simpa [hkey] using ih
    | true =>
      obtain rfl : key = key' := by simpa using hkey
      simpa using Option.Rel.some hv

theorem RelatedFields.single {f f' : Fields} (h : A.RelatedFields root k r f f') :
    (∃ key v v', f.entries = [(key, v)] ∧ f'.entries = [(key, v')] ∧
      A.Related root k (r.field key) v v') ∨ (∀ e, f.entries ≠ [e]) ∧ ∀ e, f'.entries ≠ [e] := by
  rw [RelatedFields] at h
  generalize f.entries = es at h ⊢
  generalize f'.entries = es' at h ⊢
  match h with
  | .nil => exact .inr ⟨by simp, by simp⟩
  | .cons (a := (key, v)) (b := (_, v')) ⟨rfl, hv⟩ .nil => exact .inl ⟨key, v, v', rfl, rfl, hv⟩
  | .cons _ (.cons _ _) => exact .inr ⟨by simp, by simp⟩

end Anchors

end StructuralTyping.Yaml
