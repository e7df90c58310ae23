import StructuralTyping.Proofs.Yaml.Nodes
import StructuralTyping.Proofs.Yaml.Recoverable
import StructuralTyping.Proofs.Yaml.Reread

/-!
# Reading what was written

A written mapping has the fields that were written, and one of them says its shape.
Each function that reads a part of a document gives back what its counterpart wrote,
up to `Ty.reread`.  The types inside are left to `ask`, as in the reading functions.
-/

namespace StructuralTyping.Yaml

open TypeSource (Names)
open Anchors (ParamForm MemberForm)

/-! ## Fields -/

/-- The fields of a written mapping are the entries that were written. -/
theorem fields_mapNode {A : Anchors} {entries : List (String × Node)}
    (htrim : ∀ e ∈ entries, trimSpace e.1 = e.1) (hnodup : (entries.map (·.1)).Nodup) :
    A.fields (mapNode entries) = .ok ⟨entries⟩ := by
  refine Anchors.fields_eq_ok_iff.2 ⟨_, _, rfl, ?_, hnodup⟩
  rw [List.map_map]
  exact (List.map_id' entries).symm.trans
    (List.map_congr_left fun e he => Prod.ext (htrim e he).symm rfl)

/-- The keys beside the one that says a shape, in the order in which they are written. -/
def besideKeys : List String :=
  ["typeParams", "members", "calls", "constructs", "indexes", "extends", "super", "const"]

/-- The keys of all entries that are written, those of members apart. -/
def entryKeys : List String :=
  shapeKeys ++ besideKeys ++
    ["name", "type", "optional", "rest", "params", "returns", "method", "param", "key", "readonly"]

theorem trimSpace_entryKeys : ∀ k ∈ entryKeys, trimSpace k = k := by decide +kernel

/-- The same for entries whose keys are some of a fixed list. -/
theorem fields_mapNode_of_sublist {A : Anchors} {entries : List (String × Node)}
    (keys : List String)
    (hnodup : keys.Nodup) (hkeys : keys ⊆ entryKeys) (h : (entries.map (·.1)).Sublist keys) :
    A.fields (mapNode entries) = .ok ⟨entries⟩ :=
  fields_mapNode (fun _ he => trimSpace_entryKeys _ (hkeys (h.mem (List.mem_map_of_mem he))))
    (hnodup.sublist h)

theorem keys_listEntry {key : String} {items : List Node} :
    ((listEntry key items).map (·.1)).Sublist [key] := by
  cases items <;> simp [listEntry]

theorem keys_trueEntry {key : String} {b : Bool} : ((trueEntry key b).map (·.1)).Sublist [key] := by
  cases b <;> simp [trueEntry]

theorem keys_typeEntry {key : String} {t : Ty} {n : Node} :
    ((typeEntry key t n).map (·.1)).Sublist [key] := by
  cases h : t.isMissing <;> simp [typeEntry, h]

@[simp] theorem lookup_entry {k key : String} {n : Node} {entries : List (String × Node)} :
    ((key, n) :: entries).lookup k = if k == key then some n else entries.lookup k := by
  rw [List.lookup_cons]
  cases k == key <;> rfl

@[simp] theorem get?_mk {entries : List (String × Node)} {k : String} :
    (Fields.mk entries).get? k = entries.lookup k := rfl

/-- An entry that may be left out is found under its key. -/
@[simp] theorem lookup_listEntry {k key : String} {items : List Node} :
    (listEntry key items).lookup k =
      if k == key then (if items.isEmpty then none else some (listNode items)) else none := by
  cases items <;> simp [listEntry]

@[simp] theorem lookup_trueEntry {k key : String} {b : Bool} :
    (trueEntry key b).lookup k =
      if k == key then (if b then some trueNode else none) else none := by
  cases b <;> simp [trueEntry]

@[simp] theorem lookup_typeEntry {k key : String} {t : Ty} {n : Node} :
    (typeEntry key t n).lookup k =
      if k == key then (if t.isMissing then none else some n) else none := by
  cases h : t.isMissing <;> simp [typeEntry, h]

/-! ## Shapes -/

theorem shapeKeys_nodup : shapeKeys.Nodup := by simp [shapeKeys]

theorem filterMap_single {α β : Type} [BEq α] [LawfulBEq α] {a : α} {b : β} :
    ∀ {as : List α}, as.Nodup → a ∈ as →
      (as.filterMap fun x => if x == a then some b else none) = [b]
  | x :: xs, hnodup, ha => by
      rw [List.nodup_cons] at hnodup
      rcases List.mem_cons.1 ha with rfl | ha
      · have hnone : (xs.filterMap fun x => if x == a then some b else none) = [] := by
          refine List.filterMap_eq_nil_iff.2 fun x hx => ?_
          have hne : x ≠ a := fun heq => hnodup.1 (heq ▸ hx)
          simp [hne]
        simp [hnone]
      · have hne : x ≠ a := fun heq => hnodup.1 (heq ▸ ha)
        simp [hne, filterMap_single hnodup.2 ha]

/-- A mapping has the shape of its first key, if no other key says a shape. -/
theorem shapeOf_cons {line : Int} {shape : String} {v : Node} {rest : List (String × Node)}
    (hshape : shape ∈ shapeKeys) (hrest : ∀ e ∈ rest, e.1 ∉ shapeKeys) :
    Anchors.shapeOf line ⟨(shape, v) :: rest⟩ = .ok (shape, v) := by
  have hget : ∀ k ∈ shapeKeys, ((Fields.mk ((shape, v) :: rest)).get? k).map (k, ·) =
      if k == shape then some (shape, v) else none := by
    intro k hk
    have hnone : rest.lookup k = none :=
      List.lookup_eq_none_iff.2 fun e he => bne_iff_ne.2 fun heq => hrest e he (heq ▸ hk)
    rw [Fields.get?, List.lookup_cons, hnone]
    cases hkey : k == shape with
    | true => simp [eq_of_beq hkey]
    | false => rfl
  rw [Anchors.shapeOf, List.filterMap_congr hget, filterMap_single shapeKeys_nodup hshape]

theorem besideKeys_not_shapeKeys : ∀ k ∈ besideKeys, k ∉ shapeKeys := by
  simp [besideKeys, shapeKeys]

section Shape

variable {A : Anchors} {shape : String} {v : Node} {rest : List (String × Node)}
  (hshape : shape ∈ shapeKeys) (hrest : (rest.map (·.1)).Sublist besideKeys)
include hshape hrest

/-- The fields of a written type are the entries that were written. -/
theorem fields_shape : A.fields (mapNode ((shape, v) :: rest)) = .ok ⟨(shape, v) :: rest⟩ := by
  have hnodup : (shape :: besideKeys).Nodup :=
    List.nodup_cons.2 ⟨fun h => besideKeys_not_shapeKeys shape h hshape, by simp [besideKeys]⟩
  refine fields_mapNode_of_sublist (shape :: besideKeys) hnodup ?_ (hrest.cons_cons shape)
  refine List.cons_subset.2 ⟨?_, fun k hk => ?_⟩
  · exact List.mem_append_left _ (List.mem_append_left _ hshape)
  · exact List.mem_append_left _ (List.mem_append_right _ hk)

theorem shapeOf_written {line : Int} : Anchors.shapeOf line ⟨(shape, v) :: rest⟩ = .ok (shape, v) :=
  shapeOf_cons hshape fun _ he => besideKeys_not_shapeKeys _ (hrest.mem (List.mem_map_of_mem he))

/-- A written type is no method. -/
theorem methodNode?_shape : A.methodNode? (mapNode ((shape, v) :: rest)) = .ok none := by
  have hmethod (es : List (String × Node)) :
      A.methodNode? (mapNode es) = (A.fields (mapNode es)).map fun f => f.get? "method" := rfl
  have hnone : ((shape, v) :: rest).lookup "method" = none := by
    refine List.lookup_eq_none_iff.2 fun e he => bne_iff_ne.2 fun heq => ?_
    have hmem : e.1 ∈ shape :: besideKeys := (hrest.cons_cons shape).mem (List.mem_map_of_mem he)
    have hall : "method" ∉ shapeKeys ∧ "method" ∉ besideKeys := by simp [shapeKeys, besideKeys]
    rw [← heq] at hmem
    rcases List.mem_cons.1 hmem with rfl | hmem
    · exact hall.1 hshape
    · exact hall.2 hmem
  rw [hmethod, fields_shape hshape hrest]
  simp [Except.map, hnone]

end Shape

/-! ## Lists -/

theorem decodeEach_map {α β γ : Type} {f : α → Outcome β} {g : γ → α} {h : γ → β} :
    ∀ {cs : List γ}, (∀ c ∈ cs, f (g c) = .ok (h c)) → decodeEach f (cs.map g) = .ok (cs.map h)
  | [], _ => rfl
  | c :: cs, hf => by
      have hrest : decodeEach f (cs.map g) = .ok (cs.map h) :=
        decodeEach_map fun d hd => hf d (.tail _ hd)
      simp only [List.map_cons, decodeEach, hf c (.head _), hrest]

/-- What is picked from a list is read back for the elements that it is picked from. -/
theorem decodeEach_filterMap {α β γ : Type} {f : α → Outcome β} {pick : γ → Option α}
    {keep : γ → Bool} {h : γ → β} : ∀ {cs : List γ}, (∀ c ∈ cs, (pick c).isSome = keep c) →
      (∀ c ∈ cs, ∀ a, pick c = some a → f a = .ok (h c)) →
      decodeEach f (cs.filterMap pick) = .ok ((cs.filter keep).map h)
  | [], _, _ => rfl
  | c :: cs, hkeep, hf => by
      have hrest : decodeEach f (cs.filterMap pick) = .ok ((cs.filter keep).map h) :=
        decodeEach_filterMap (fun d hd => hkeep d (.tail _ hd)) fun d hd => hf d (.tail _ hd)
      have hc := hkeep c (.head _)
      cases hpick : pick c with
      | none =>
        rw [hpick] at hc
        simp [hpick, ← hc, hrest]
      | some a =>
        rw [hpick] at hc
        simp [hpick, ← hc, decodeEach, hf c (.head _) a hpick, hrest]

/-! ## Parameters -/

/-- The type is read back wherever none of the names that it writes is hidden. -/
def ReadsBack (ask : Ask) (t : Ty) : Prop :=
  ∀ N : Names, N.Spares t → ask N (encode t) = .ok t.reread

section Reading

variable {A : Anchors} {ask : Ask} {N : Names}

/-- A scalar with a tag is converted from what its text is read as. -/
theorem wanted_taggedNode {α : Type} {f : Scalar → Wanted α} {tag : Tag} {s : String} {v : Scalar}
    (h : Scalar.read? (some tag) s = some v) : A.wanted f (taggedNode tag s) = f v := by
  simp only [Anchors.wanted, Anchors.follow?, Anchors.followWithin?, taggedNode,
    Anchors.wantedScalar, ByteText.shown_valid, h]

theorem read?_boolText : ∀ b : Bool, Scalar.read? (some .bool) (boolText b) = some (.bool b)
  | true => rfl
  | false => rfl

theorem wanted_trueNode : A.wanted Scalar.toBool trueNode = .found true :=
  wanted_taggedNode (read?_boolText true)

@[simp] theorem optionalField_some {α : Type} {default : α} {f : Node → Outcome α} {n : Node} :
    optionalField default f (some n) = f n := rfl

@[simp] theorem optionalField_none {α : Type} {default : α} {f : Node → Outcome α} :
    optionalField default f none = .ok default := rfl

/-- A flag is read back, whether it was written or left out. -/
theorem optionalField_flag {b : Bool} :
    optionalField false (fun n => (A.wanted Scalar.toBool n).orFail false)
      (if b then some trueNode else none) = .ok b := by
  cases b with
  | false => rfl
  | true => simp [wanted_trueNode, Wanted.orFail, Wanted.orDefault]

/-- A type that may be left out is read back. -/
theorem decodeGiven_written {t : Ty} (hN : N.Spares t) (h : t.isMissing = false → ReadsBack ask t) :
    Anchors.decodeGiven ask N (if t.isMissing then none else some (encode t)) "" =
      .ok t.reread := by
  cases ht : t.isMissing with
  | false => simpa [Anchors.decodeGiven, ht] using h ht N hN
  | true =>
    rw [Decls.eq_missing_of_isMissing ht]
    rfl

theorem paramFormOfFields_written {f : Fields} {name : String} {node? : Option Node}
    {isOptional isRest : Bool} (hname : f.get? "name" = some (textNode name))
    (htype : f.get? "type" = node?)
    (hoptional : f.get? "optional" = if isOptional then some trueNode else none)
    (hrest : f.get? "rest" = if isRest then some trueNode else none) :
    A.paramFormOfFields f = .ok { name, isOptional, isRest, node? } := by
  have hhas : f.has "name" = true := by rw [Fields.has, hname]; rfl
  unfold Anchors.paramFormOfFields
  split
  · next hfalse => cases hhas.symm.trans hfalse
  · rw [hoptional, hrest, hname, htype, optionalField_flag, optionalField_flag]
    rfl

/-- A parameter that was written by its name is read back. -/
theorem paramForm_written {name : String} {t : Ty} {isOptional isRest : Bool} :
    A.paramForm (mapNode ([("name", textNode name)] ++ typeEntry "type" t (encode t)
      ++ trueEntry "optional" isOptional ++ trueEntry "rest" isRest)) =
      .ok { name, isOptional, isRest, node? := if t.isMissing then none else some (encode t) } := by
  have hkeys : (([("name", textNode name)] ++ typeEntry "type" t (encode t)
      ++ trueEntry "optional" isOptional ++ trueEntry "rest" isRest).map (·.1)).Sublist
        ["name", "type", "optional", "rest"] := by
    simp only [List.map_append]
    exact (((List.Sublist.refl _).append keys_typeEntry).append keys_trueEntry).append
      keys_trueEntry
  have hform (es : List (String × Node)) :
      A.paramForm (mapNode es) = (A.fields (mapNode es)).bind A.paramFormOfFields := rfl
  rw [hform, fields_mapNode_of_sublist _ (by simp) (by simp [entryKeys, besideKeys]) hkeys]
  exact paramFormOfFields_written (by simp) (by simp [List.lookup_append])
    (by simp [List.lookup_append])
    (by simp [List.lookup_append])

theorem decodeParam_written {p : Param} (hN : N.Spares p.type) (hp : p.pattern.Writable)
    (h : p.type.isMissing = false → ReadsBack ask p.type) :
    A.decodeParam ask N (encodeParam p) = .ok p.reread := by
  have hdecode {n : Node} {form : ParamForm} (hform : A.paramForm n = .ok form)
      (hname : IsParamName form.name)
      (hgiven : Anchors.decodeGiven ask N form.node? form.source = .ok p.type.reread) :
      A.decodeParam ask N n = .ok ⟨form.pattern, p.type.reread⟩ := by
    have hempty : form.name.isEmpty = false := by simpa using hname.nonempty
    simp only [Anchors.decodeParam, hform, bind, Except.bind, hname.readMarks, hempty, hgiven,
      inPart, Bool.false_eq_true, if_false]
  have hgiven := decodeGiven_written hN h
  obtain ⟨pattern, t⟩ := p
  cases pattern with
  | ident name isOptional => exact hdecode paramForm_written hp hgiven
  | rest inner =>
    cases inner with
    | ident name isOptional =>
      obtain ⟨rfl, hname⟩ := hp
      exact hdecode paramForm_written hname hgiven
    | _ => cases hp
  | _ => cases hp

/-! ## Type parameters -/

theorem typeParamForm_written {name : String} {t : Ty} :
    A.typeParamForm (encodeTypeParam ⟨name, t⟩) =
      .ok (name, if t.isMissing then none else some (encode t), "") := by
  have hkeys : (([("name", textNode name)] ++ typeEntry "extends" t (encode t)).map (·.1)).Sublist
      ["name", "extends"] := by
    rw [List.map_append]
    exact (List.Sublist.refl _).append keys_typeEntry
  have hform (es : List (String × Node)) : A.typeParamForm (mapNode es) =
      (A.fields (mapNode es)).bind fun f =>
        .ok (((f.get? "name").map Node.value).getD "", f.get? "extends", "") := rfl
  rw [encodeTypeParam, hform,
    fields_mapNode_of_sublist _ (by simp) (by simp [entryKeys, besideKeys]) hkeys]
  simp [Except.bind, textNode, taggedNode]

theorem decodeTypeParam_written {t : TypeParam} (hN : N.Spares t.bound) (ht : t.name ≠ "")
    (h : t.bound.isMissing = false → ReadsBack ask t.bound) :
    A.decodeTypeParam ask N (encodeTypeParam t) = .ok t.reread := by
  obtain ⟨name, b⟩ := t
  have hempty : name.isEmpty = false := by simpa using ht
  simp only [Anchors.decodeTypeParam, typeParamForm_written, bind, Except.bind, hempty,
    decodeGiven_written hN h, inPart, Bool.false_eq_true, if_false]
  rfl

/-- Each type parameter is read after the ones before it. -/
theorem decodeTypeParamsFrom_written {ts earlier : List TypeParam} (hN : ∀ t ∈ ts, N.Spares t.bound)
    (hts : ∀ t ∈ ts, t.name ≠ "") (hbounds : ts.Pairwise fun t u => ¬ u.bound.Writes t.name)
    (hearlier : ∀ e ∈ earlier, ∀ t ∈ ts, ¬ t.bound.Writes e.name)
    (h : ∀ t ∈ ts, t.bound.isMissing = false → ReadsBack ask t.bound) :
    A.decodeTypeParamsFrom ask N earlier (ts.map encodeTypeParam) =
      .ok (earlier ++ ts.map TypeParam.reread) := by
  induction ts generalizing earlier with
  | nil => simp [Anchors.decodeTypeParamsFrom]
  | cons t ts ih =>
    obtain ⟨hfirst, hbounds⟩ := List.pairwise_cons.1 hbounds
    have hspares : (N.enter earlier).Spares t.bound :=
      (hN t (.head _)).enter fun e he => hearlier e he t (.head _)
    have ht := decodeTypeParam_written (A := A) hspares (hts t (.head _)) (h t (.head _))
    have hnext : ∀ e ∈ earlier ++ [t.reread], ∀ u ∈ ts, ¬ u.bound.Writes e.name := by
      intro e he u hu
      rcases List.mem_append.1 he with he | he
      · exact hearlier e he u (.tail _ hu)
      · rw [List.mem_singleton.1 he, TypeParam.name_reread]
        exact hfirst u hu
    simp only [List.map_cons, Anchors.decodeTypeParamsFrom, ht, bind, Except.bind]
    rw [ih (fun u hu => hN u (.tail _ hu)) (fun u hu => hts u (.tail _ hu)) hbounds hnext
      fun u hu => h u (.tail _ hu)]
    simp

/-- The names in the scope of type parameters hide nothing that is written inside. -/
theorem decodeScope_written {f : Fields} {ts : List TypeParam} {inside : List Ty}
    (hts : TypeParam.Scoped ts inside) (hbounds : ∀ x ∈ ts.map (·.bound), N.Spares x)
    (hinside : ∀ x ∈ inside, N.Spares x) (hf : f.get? "typeParams" =
      if (encodeTypeParams ts).isEmpty then none else some (listNode (encodeTypeParams ts)))
    (h : ∀ x ∈ ts.map (·.bound), x.isMissing = false → ReadsBack ask x) :
    ∃ M : Names, (∀ x ∈ inside, M.Spares x) ∧
      A.decodeScope ask N f = .ok (TypeParam.rereadList ts, M) := by
  rw [encodeTypeParams_eq_map] at hf
  cases ts with
  | nil => exact ⟨N, hinside, by simp [Anchors.decodeScope, hf, TypeParam.rereadList]⟩
  | cons t ts =>
    have hdecode : A.decodeTypeParamsFrom ask N [] ((t :: ts).map encodeTypeParam) =
        .ok ((t :: ts).map TypeParam.reread) :=
      decodeTypeParamsFrom_written (fun u hu => hbounds _ (List.mem_map_of_mem hu)) hts.named
        hts.bounds (by simp) fun u hu => h _ (List.mem_map_of_mem hu)
    refine ⟨N.enter (TypeParam.rereadList (t :: ts)), fun x hx => (hinside x hx).enter ?_, ?_⟩
    · intro u hu
      rw [TypeParam.rereadList_eq_map] at hu
      obtain ⟨v, hv, rfl⟩ := List.mem_map.1 hu
      rw [TypeParam.name_reread]
      exact hts.inside v hv x hx
    · have hitems : Anchors.itemsOf "typeParams" (listNode ((t :: ts).map encodeTypeParam)) =
          .ok ((t :: ts).map encodeTypeParam) := rfl
      simp only [Anchors.decodeScope, hf, List.map_cons, List.isEmpty_cons, Bool.false_eq_true,
        if_false, Anchors.decodeTypeParams] at hitems hdecode ⊢
      simp only [hitems, hdecode, bind, Except.bind, TypeParam.rereadList_eq_map, List.map_cons]

/-! ## Signatures -/

theorem decodeSignature_written {s : Signature} (hN : ∀ x ∈ s.parts, N.Spares x)
    (hs : s.Recoverable) (h : ∀ x ∈ s.parts, x.isMissing = false → ReadsBack ask x) :
    A.decodeSignature ask N (encodeSignature s) = .ok s.reread := by
  cases s with
  | absent => cases hs
  | mk ts ps r =>
    obtain ⟨hts, hps, hr⟩ := hs
    rw [Signature.parts, List.append_assoc] at hN
    obtain ⟨hbounds, hinside⟩ := List.forall_mem_append.1 hN
    simp only [Signature.parts, List.mem_append, List.mem_singleton] at h
    have hkeys :
        ((listEntry "typeParams" (encodeTypeParams ts) ++ [("params", listNode (encodeParams ps))]
        ++ typeEntry "returns" r (encode r)).map (·.1)).Sublist
        ["typeParams", "params", "returns"] := by
      simp only [List.map_append]
      exact (keys_listEntry.append (.refl _)).append keys_typeEntry
    have hfields :=
      fields_mapNode_of_sublist (A := A) _ (by simp) (by simp [entryKeys, besideKeys]) hkeys
    generalize hf : Fields.mk (listEntry "typeParams" (encodeTypeParams ts) ++
      [("params", listNode (encodeParams ps))] ++ typeEntry "returns" r (encode r)) = f at hfields
    have htypeParams : f.get? "typeParams" =
        if (encodeTypeParams ts).isEmpty then none else some (listNode (encodeTypeParams ts)) := by
      simp [← hf, List.lookup_append]
    have hparams : f.get? "params" = some (listNode (encodeParams ps)) := by
      simp [← hf, List.lookup_append]
    have hreturns : f.get? "returns" = some (encode r) := by
      simp [← hf, List.lookup_append, hr]
    obtain ⟨M, hM, hscope⟩ := decodeScope_written (A := A) hts hbounds hinside htypeParams
      fun x hx => h x (.inl (.inl hx))
    have hitems :
        Anchors.itemsOf "params" (listNode (encodeParams ps)) = .ok (ps.map encodeParam) := by
      rw [encodeParams_eq_map]
      rfl
    have hps :
        decodeEach (A.decodeParam ask M) (ps.map encodeParam) = .ok (Param.rereadList ps) := by
      rw [Param.rereadList_eq_map]
      exact decodeEach_map fun p hp => decodeParam_written
        (hM p.type (List.mem_append_left _ (List.mem_map_of_mem hp))) (hps p hp)
          (h p.type (.inl (.inr (List.mem_map_of_mem hp))))
    have hblank : (encodeSignature (.mk ts ps r)).isBlankScalar = false := rfl
    simp only [Anchors.decodeSignature, hblank, Bool.false_eq_true, if_false]
    rw [encodeSignature, hfields]
    simp only [bind, Except.bind, hscope, hparams, hreturns, optionalField_some, hitems, hps,
      h r (.inr rfl) hr M (hM r (by simp)), Signature.reread]

/-! ## Members -/

theorem keys_memberEntries {key : String} {ms : List MemberNode} :
    ((memberEntries key ms).map (·.1)).Sublist [key, "calls", "constructs", "indexes"] := by
  simp only [memberEntries, List.map_append]
  exact (((List.Sublist.refl _).append keys_listEntry).append keys_listEntry).append keys_listEntry

theorem keys_besideObject {calls constructs indexes : List Node} :
    ((listEntry "calls" calls ++ listEntry "constructs" constructs ++
      listEntry "indexes" indexes).map (·.1)).Sublist besideKeys := by
  simp only [List.map_append]
  exact ((keys_listEntry.append keys_listEntry).append keys_listEntry).trans (by decide)

theorem keys_besideInterface {typeParams bases : List Node} {ms : List MemberNode} :
    ((listEntry "typeParams" typeParams ++ memberEntries "members" ms ++
      listEntry "extends" bases).map (·.1)).Sublist besideKeys := by
  simp only [List.map_append]
  exact ((keys_listEntry.append keys_memberEntries).append keys_listEntry).trans (by decide)

theorem keys_besideClass {typeParams : List Node} {ms : List MemberNode} {t : Ty} {n : Node} :
    ((listEntry "typeParams" typeParams ++ memberEntries "members" ms ++ typeEntry "super" t n).map
      (·.1)).Sublist besideKeys := by
  simp only [List.map_append]
  exact ((keys_listEntry.append keys_memberEntries).append keys_typeEntry).trans (by decide)

theorem keys_besideEnum {members : Node} {isConst : Bool} :
    ((("members", members) :: trueEntry "const" isConst).map (·.1)).Sublist besideKeys := by
  rw [List.map_cons]
  exact (keys_trueEntry.cons_cons "members").trans (by decide)

/-- A type is a scalar, or a mapping whose first key says the shape. -/
theorem encode_cases (t : Ty) :
    (∃ info text, encode t = .scalar info text) ∨
      ∃ shape v rest, encode t = mapNode ((shape, v) :: rest) ∧ shape ∈ shapeKeys ∧
        (rest.map (·.1)).Sublist besideKeys := by
  cases t with
  | missing | keyword | this | regExp => exact .inl ⟨_, _, rfl⟩
  | literal => exact .inr ⟨"literal", _, [], rfl, by decide, by simp⟩
  | array => exact .inr ⟨"array", _, [], rfl, by decide, by simp⟩
  | tuple => exact .inr ⟨"tuple", _, [], rfl, by decide, by simp⟩
  | union => exact .inr ⟨"union", _, [], rfl, by decide, by simp⟩
  | inter => exact .inr ⟨"intersection", _, [], rfl, by decide, by simp⟩
  | function => exact .inr ⟨"fn", _, [], rfl, by decide, by simp⟩
  | ctor => exact .inr ⟨"new", _, [], rfl, by decide, by simp⟩
  | object => exact .inr ⟨"object", _, _, rfl, by decide, keys_besideObject⟩
  | interface => exact .inr ⟨"interface", _, _, rfl, by decide, keys_besideInterface⟩
  | classType => exact .inr ⟨"class", _, _, rfl, by decide, keys_besideClass⟩
  | enum => exact .inr ⟨"enum", _, _, rfl, by decide, keys_besideEnum⟩
  | variant => exact .inr ⟨"variant", _, [], rfl, by decide, by simp⟩
  | param => exact .inr ⟨"param", _, _, rfl, by decide, keys_typeEntry.trans (by decide)⟩
  | indexed => exact .inr ⟨"indexed", _, [], rfl, by decide, by simp⟩
  | other => exact .inr ⟨"other", _, [], rfl, by decide, by simp⟩
  | named => exact .inr ⟨"other", _, [], rfl, by decide, by simp⟩

theorem methodNode?_encode (t : Ty) : A.methodNode? (encode t) = .ok none := by
  rcases encode_cases t with ⟨info, text, h⟩ | ⟨shape, v, rest, h, hshape, hrest⟩
  · rw [h]
    rfl
  · rw [h]
    exact methodNode?_shape hshape hrest

theorem isNullScalar_encode {t : Ty} (h : t.isMissing = false) :
    (encode t).isNullScalar = false := by
  cases t <;> first | rfl | cases h

theorem decodeMember_written {m : Member} {key : String} {n : Node} (hN : ∀ x ∈ m.parts, N.Spares x)
    (hm : m.Recoverable)
    (h : ∀ x ∈ m.parts, x.isMissing = false → ReadsBack ask x)
    (hn : (encodeMember m).named? = some (key, n)) :
    A.decodeMember ask N key n = .ok m.reread := by
  cases m with
  | property k t o r =>
    obtain ⟨rfl, rfl⟩ := Prod.mk.inj (Option.some.inj hn)
    have hread : MemberForm.read ((if r then "readonly " else "") ++ memberKey k o) = ⟨k, o, r⟩ :=
      ReadsAs.read hm
    simp only [Anchors.decodeMember, methodNode?_encode, hread, bind, Except.bind]
    cases ht : t.isMissing with
    | true =>
      rw [Decls.eq_missing_of_isMissing ht]
      rfl
    | false =>
      rw [isNullScalar_encode ht, h t (.head _) ht N (hN t (.head _))]
      rfl
  | method k o s =>
    obtain ⟨rfl, rfl⟩ := Prod.mk.inj (Option.some.inj hn)
    have hmethod :
        A.methodNode? (mapNode [("method", encodeSignature s)]) =
          .ok (some (encodeSignature s)) := by
      have hfields :
          A.fields (mapNode [("method", encodeSignature s)]) =
            .ok ⟨[("method", encodeSignature s)]⟩ :=
        fields_mapNode_of_sublist ["method"] (by simp) (by simp [entryKeys]) (.refl _)
      rw [mapNode] at hfields ⊢
      rw [Anchors.methodNode?, hfields]
      rfl
    simp only [Anchors.decodeMember, hmethod, hm.1.read, bind, Except.bind,
      decodeSignature_written hN hm.2 h, Except.map]
    rfl
  | _ => cases hn

theorem named?_keys (m : Member) : ((encodeMember m).named?).map (·.1) = m.writtenKey? := by
  cases m <;> rfl

/-- The members with keys are read back in order. -/
theorem decodeNamed_written {ms : List Member} (hN : ∀ x ∈ ms.flatMap (·.parts), N.Spares x)
    (hms : RecoverableMembers ms)
    (h : ∀ x ∈ ms.flatMap (·.parts), x.isMissing = false → ReadsBack ask x) :
    A.decodeNamed ask N (mapNode ((encodeMembers ms).filterMap (·.named?))) =
      .ok ((ms.filter Member.isKeyed).map Member.reread) := by
  rw [encodeMembers_eq_map, List.filterMap_map]
  let pick (m : Member) := (encodeMember m).named?
  have hfields : A.fields (mapNode (ms.filterMap pick)) = .ok ⟨ms.filterMap pick⟩ := by
    refine fields_mapNode ?_ ?_
    · intro e he
      obtain ⟨m, hm, hkey⟩ := List.mem_filterMap.1 he
      refine (hms.each m hm).trimmed ?_
      rw [← named?_keys, show (encodeMember m).named? = some e from hkey]
      rfl
    · rw [List.map_filterMap]
      simp only [pick, named?_keys]
      exact hms.distinct
  have heach :
      decodeEach (fun e => inPart .member e.1 (A.decodeMember ask N e.1 e.2)) (ms.filterMap pick) =
      .ok ((ms.filter Member.isKeyed).map Member.reread) := by
    refine decodeEach_filterMap ?_ ?_
    · intro m _
      cases m <;> rfl
    · rintro m hm ⟨key, n⟩ hpick
      have hdecode : A.decodeMember ask N key n = .ok m.reread :=
        decodeMember_written (fun x hx => hN x (List.mem_flatMap.2 ⟨m, hm, hx⟩)) (hms.each m hm)
          (fun x hx => h x (List.mem_flatMap.2 ⟨m, hm, hx⟩)) hpick
      simp only [hdecode, inPart]
  have hnamed (es : List (String × Node)) : A.decodeNamed ask N (mapNode es) =
      (A.fields (mapNode es)).bind fun f =>
        decodeEach (fun e => inPart .member e.1 (A.decodeMember ask N e.1 e.2)) f.entries := rfl
  rw [hnamed]
  exact (congrArg (fun f => Except.bind f _) hfields).trans heach

theorem decodeIndex_written {p : String} {k t : Ty} {isReadonly : Bool} (hNk : N.Spares k)
    (hNt : N.Spares t) (hk : ReadsBack ask k) (ht : ReadsBack ask t) :
    A.decodeIndex ask N (mapNode ([("param", textNode p), ("key", encode k), ("type", encode t)]
      ++ trueEntry "readonly" isReadonly)) = .ok (.index p k.reread t.reread isReadonly) := by
  have hkeys : (([("param", textNode p), ("key", encode k), ("type", encode t)]
      ++ trueEntry "readonly" isReadonly).map (·.1)).Sublist
      ["param", "key", "type", "readonly"] := by
    rw [List.map_append]
    exact (List.Sublist.refl _).append keys_trueEntry
  have hfields :=
    fields_mapNode_of_sublist (A := A) _ (by simp) (by simp [entryKeys, besideKeys]) hkeys
  simp only [Anchors.decodeIndex, hfields, bind, Except.bind]
  simp [optionalField_flag, hk N hNk, ht N hNt, textNode, taggedNode]

/-- A list of members beside those with keys is read back, also when it was left out. -/
theorem decodeUnnamed_written {ms : List Member} {key : String} {f : Fields}
    {one : Node → Outcome Member} {pick : MemberNode → Option Node} {keep : Member → Bool}
    (hf : f.get? key = if ((encodeMembers ms).filterMap pick).isEmpty then none
      else some (listNode ((encodeMembers ms).filterMap pick)))
    (hkeep : ∀ m ∈ ms, (pick (encodeMember m)).isSome = keep m)
    (hone : ∀ m ∈ ms, ∀ n, pick (encodeMember m) = some n → one n = .ok m.reread) :
    Anchors.decodeUnnamed key f one = .ok ((ms.filter keep).map Member.reread) := by
  rw [encodeMembers_eq_map, List.filterMap_map] at hf
  have heach :
      decodeEach one (ms.filterMap (pick ∘ encodeMember)) =
        .ok ((ms.filter keep).map Member.reread) :=
    decodeEach_filterMap hkeep hone
  rw [Anchors.decodeUnnamed, hf]
  cases hlist : ms.filterMap (pick ∘ encodeMember) with
  | nil =>
    rw [hlist] at heach
    exact heach
  | cons n ns =>
    rw [hlist] at heach
    exact heach

/-- All members are read back, arranged by kind. -/
theorem decodeMembers_written {ms : List Member} {f : Fields}
    (hN : ∀ x ∈ ms.flatMap (·.parts), N.Spares x) (hms : RecoverableMembers ms)
    (hcalls : f.get? "calls" = if ((encodeMembers ms).filterMap (·.call?)).isEmpty then none
      else some (listNode ((encodeMembers ms).filterMap (·.call?))))
    (hconstructs : f.get? "constructs" =
      if ((encodeMembers ms).filterMap (·.construct?)).isEmpty then none
      else some (listNode ((encodeMembers ms).filterMap (·.construct?))))
    (hindexes : f.get? "indexes" = if ((encodeMembers ms).filterMap (·.index?)).isEmpty then none
      else some (listNode ((encodeMembers ms).filterMap (·.index?))))
    (h : ∀ x ∈ ms.flatMap (·.parts), x.isMissing = false → ReadsBack ask x) :
    A.decodeMembers ask N (some (mapNode ((encodeMembers ms).filterMap (·.named?)))) f =
      .ok (Member.arrange (Member.rereadList ms)) := by
  have hparts {m : Member} (hm : m ∈ ms) : ∀ x ∈ m.parts, x.isMissing = false → ReadsBack ask x :=
    fun x hx => h x (List.mem_flatMap.2 ⟨m, hm, hx⟩)
  have hspares {m : Member} (hm : m ∈ ms) : ∀ x ∈ m.parts, N.Spares x :=
    fun x hx => hN x (List.mem_flatMap.2 ⟨m, hm, hx⟩)
  have hnamed := decodeNamed_written (A := A) hN hms h
  have hindex : Anchors.decodeUnnamed "indexes" f (A.decodeIndex ask N) =
      .ok ((ms.filter Member.isIndex).map Member.reread) := by
    refine decodeUnnamed_written hindexes (fun m _ => by cases m <;> rfl) fun m hm n hn => ?_
    cases m with
    | index p k t r =>
      obtain rfl := Option.some.inj hn
      obtain ⟨hk, ht⟩ := hms.each _ hm
      exact decodeIndex_written (hspares hm k (.head _)) (hspares hm t (.tail _ (.head _)))
        (hparts hm k (.head _) hk) (hparts hm t (.tail _ (.head _)) ht)
    | _ => cases hn
  have hcall : Anchors.decodeUnnamed "calls" f (fun n => (A.decodeSignature ask N n).map .call) =
      .ok ((ms.filter Member.isCall).map Member.reread) := by
    refine decodeUnnamed_written hcalls (fun m _ => by cases m <;> rfl) fun m hm n hn => ?_
    cases m with
    | call s =>
      obtain rfl := Option.some.inj hn
      rw [decodeSignature_written (hspares hm) (hms.each _ hm) (hparts hm)]
      rfl
    | _ => cases hn
  have hconstruct :
      Anchors.decodeUnnamed "constructs" f (fun n => (A.decodeSignature ask N n).map .construct) =
      .ok ((ms.filter Member.isConstruct).map Member.reread) := by
    refine decodeUnnamed_written hconstructs (fun m _ => by cases m <;> rfl) fun m hm n hn => ?_
    cases m with
    | construct s =>
      obtain rfl := Option.some.inj hn
      rw [decodeSignature_written (hspares hm) (hms.each _ hm) (hparts hm)]
      rfl
    | _ => cases hn
  simp only [Anchors.decodeMembers, optionalField_some, hnamed, hindex, hcall, hconstruct, bind,
    Except.bind, Member.arrange_rereadList]

end Reading

end StructuralTyping.Yaml
