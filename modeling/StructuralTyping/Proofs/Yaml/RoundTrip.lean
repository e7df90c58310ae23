import StructuralTyping.Proofs.Yaml.Nodes
import StructuralTyping.Proofs.Yaml.Numbers
import StructuralTyping.Proofs.Yaml.Written

/-!
# Types survive being written

A type that can be written is read back from its document as `Ty.reread` says
(`decodeWithin_encode`).
-/

namespace StructuralTyping.Yaml

open TypeSource (Names)

section Layer

variable {A : Anchors} {ask : Ask} {N : Names}

theorem decodeLiteral_written {l : Literal} (h : l.Writable) :
    A.decodeLiteral (encodeLiteral l) = .ok (.literal l.reread) := by
  cases l with
  | bool b =>
    have htag : A.tag (encodeLiteral (.bool b)) = .ok (some .bool) := rfl
    have hwanted : A.wanted Scalar.toBool (encodeLiteral (.bool b)) = .found b :=
      wanted_taggedNode (read?_boolText b)
    simp only [Anchors.decodeLiteral, htag, Anchors.decodeBool, hwanted]
    rfl
  | string s => rfl
  | number x =>
    have htag : A.tag (encodeLiteral (.number x)) = .ok (some .float) := rfl
    have hread : Scalar.read? (some .float) x.text = some (.float x.reread) := ofKind?_text h
    have hwanted : A.wanted Scalar.toNumber (encodeLiteral (.number x)) = .found x.reread :=
      wanted_taggedNode hread
    simp only [Anchors.decodeLiteral, htag, Anchors.decodeNumber, hwanted]
    rfl

/-- A mapping is read as the shape that its first key says. -/
theorem decodeMapping_of_shape (shape : String) {v : Node} {rest : List (String × Node)} {t : Ty}
    (hshape : shape ∈ shapeKeys) (hrest : (rest.map (·.1)).Sublist besideKeys)
    (h : A.decodeShape ask N ⟨(shape, v) :: rest⟩ v shape = .ok t) :
    A.decodeMapping ask N (mapNode ((shape, v) :: rest)) = .ok t := by
  simp only [Anchors.decodeMapping, fields_shape hshape hrest, shapeOf_written hshape hrest, bind,
    Except.bind, h]

theorem textsOf?_written :
    ∀ ss : List String, A.textsOf? (ss.map fun s => textNode (.valid s)) = some ss
  | [] => rfl
  | s :: ss => by
      have htext : A.wantedText (textNode s) = .found s := rfl
      rw [List.map_cons, Anchors.textsOf?, htext, textsOf?_written ss]
      rfl

theorem decodeList_written (ts : List Ty) (hN : ∀ t ∈ ts, N.Spares t)
    (hts : ∀ t ∈ ts, t.isMissing = false) (h : ∀ t ∈ ts, t.isMissing = false → ReadsBack ask t) :
    A.decodeList ask N (listNode (encodeAll ts)) = .ok (Ty.rereadList ts) := by
  have hitems : A.items (listNode (encodeAll ts)) = .ok (ts.map encode) := by
    rw [encodeAll_eq_map]
    rfl
  simp only [Anchors.decodeList, hitems, bind, Except.bind, Ty.rereadList_eq_map]
  exact decodeEach_map fun t ht => h t ht (hts t ht) N (hN t ht)

/-- A list of types is read back, also when it was left out. -/
theorem optionalField_list (ts : List Ty) (hN : ∀ t ∈ ts, N.Spares t)
    (hts : ∀ t ∈ ts, t.isMissing = false) (h : ∀ t ∈ ts, t.isMissing = false → ReadsBack ask t) :
    optionalField [] (A.decodeList ask N)
      (if (encodeAll ts).isEmpty then none else some (listNode (encodeAll ts))) =
      .ok (Ty.rereadList ts) := by
  cases ts with
  | nil => rfl
  | cons t ts =>
    rw [if_neg (by simp), optionalField_some]
    exact decodeList_written (t :: ts) hN hts h

/-- A type is read back, also when it was left out. -/
theorem optionalField_type {t : Ty} (hN : N.Spares t) (h : t.isMissing = false → ReadsBack ask t) :
    optionalField .missing (ask N) (if t.isMissing then none else some (encode t)) =
      .ok t.reread := by
  cases ht : t.isMissing with
  | true =>
    rw [Decls.eq_missing_of_isMissing ht]
    rfl
  | false => exact h ht N hN

/-- What interfaces and classes have in common is read back. -/
theorem decodeScoped_written {shape name : String} {ts : List TypeParam} {ms : List Member}
    {bases : List Ty}
    {last : List (String × Node)} {f : Fields} (hshape : shape = "interface" ∨ shape = "class")
    (hf : f = ⟨(shape, textNode name) :: (listEntry "typeParams" (encodeTypeParams ts)
      ++ memberEntries "members" (encodeMembers ms) ++ last)⟩)
    (hlast : (last.map (·.1)).Sublist ["extends", "super"])
    (hN : ∀ x ∈ ts.map (·.bound) ++ ms.flatMap (·.parts) ++ bases, N.Spares x)
    (hts : TypeParam.Scoped ts (ms.flatMap (·.parts) ++ bases)) (hms : RecoverableMembers ms)
    (hbounds : ∀ x ∈ ts.map (·.bound), x.isMissing = false → ReadsBack ask x)
    (hparts : ∀ x ∈ ms.flatMap (·.parts), x.isMissing = false → ReadsBack ask x) :
    ∃ M : Names, (∀ x ∈ bases, M.Spares x) ∧
      A.decodeScope ask N f = .ok (TypeParam.rereadList ts, M) ∧
      A.decodeMembers ask M (f.get? "members") f = .ok (Member.arrange (Member.rereadList ms)) := by
  have hnone : ∀ k, k ∉ ["extends", "super"] → last.lookup k = none := fun k hk =>
    List.lookup_eq_none_iff.2 fun e he => bne_iff_ne.2 fun heq =>
      hk (heq ▸ hlast.mem (List.mem_map_of_mem he))
  have hget : ∀ k, k ∉ ["interface", "class", "extends", "super"] → f.get? k =
      (listEntry "typeParams" (encodeTypeParams ts) ++
        memberEntries "members" (encodeMembers ms)).lookup k := by
    intro k hk
    have hne : k ≠ shape := by
      rintro rfl
      rcases hshape with rfl | rfl <;> simp at hk
    rw [hf, get?_mk, lookup_entry, if_neg (by simpa using hne), List.lookup_append,
      hnone k (by simp at hk ⊢; exact hk.2.2), Option.or_none]
  have htypeParams : f.get? "typeParams" =
      if (encodeTypeParams ts).isEmpty then none else some (listNode (encodeTypeParams ts)) := by
    rw [hget _ (by decide)]
    simp [List.lookup_append, memberEntries]
  have hmembers : f.get? "members" = some (mapNode ((encodeMembers ms).filterMap (·.named?))) := by
    rw [hget _ (by decide)]
    simp [List.lookup_append, memberEntries]
  rw [List.append_assoc] at hN
  obtain ⟨hNbounds, hNinside⟩ := List.forall_mem_append.1 hN
  obtain ⟨M, hM, hscope⟩ := decodeScope_written (A := A) hts hNbounds hNinside htypeParams hbounds
  obtain ⟨hMparts, hMbases⟩ := List.forall_mem_append.1 hM
  refine ⟨M, hMbases, hscope, ?_⟩
  rw [hmembers]
  refine decodeMembers_written hMparts hms ?_ ?_ ?_ hparts
  · rw [hget _ (by decide)]
    simp [List.lookup_append, memberEntries]
  · rw [hget _ (by decide)]
    simp [List.lookup_append, memberEntries]
  · rw [hget _ (by decide)]
    simp [List.lookup_append, memberEntries]

theorem decodeInterface_written {name : String} {ts : List TypeParam} {ms : List Member}
    {bases : List Ty} (hN : ∀ x ∈ (Ty.interface name ts ms bases).parts, N.Spares x)
    (ht : (Ty.interface name ts ms bases).RecoverableLayer)
    (h : ∀ x ∈ (Ty.interface name ts ms bases).parts, x.isMissing = false → ReadsBack ask x) :
    A.decodeInterface ask N name ⟨("interface", textNode name) ::
      (listEntry "typeParams" (encodeTypeParams ts)
      ++ memberEntries "members" (encodeMembers ms) ++ listEntry "extends" (encodeAll bases))⟩ =
      .ok (Ty.interface name ts ms bases).reread := by
  obtain ⟨hts, hms, hbases⟩ := ht
  simp only [Ty.parts, List.mem_append] at h
  generalize hf : Fields.mk _ = f
  obtain ⟨M, hM, hscope, hmembers⟩ := decodeScoped_written (A := A) (.inl rfl) hf.symm
    (keys_listEntry.trans (by decide)) hN hts hms (fun x hx => h x (.inl (.inl hx)))
    fun x hx => h x (.inl (.inr hx))
  have hextends : f.get? "extends" =
      if (encodeAll bases).isEmpty then none else some (listNode (encodeAll bases)) := by
    simp [← hf, List.lookup_append, memberEntries]
  have hlist := optionalField_list (A := A) bases hM hbases fun x hx => h x (.inr hx)
  simp only [Anchors.decodeInterface, hscope, hmembers, hextends, hlist, bind, Except.bind, inPart]
  rfl

theorem decodeClass_written {name : String} {ts : List TypeParam} {ms : List Member} {base : Ty}
    (hN : ∀ x ∈ (Ty.classType name ts ms base).parts, N.Spares x)
    (ht : (Ty.classType name ts ms base).RecoverableLayer)
    (h : ∀ x ∈ (Ty.classType name ts ms base).parts, x.isMissing = false → ReadsBack ask x) :
    A.decodeClass ask N name ⟨("class", textNode name) ::
      (listEntry "typeParams" (encodeTypeParams ts)
      ++ memberEntries "members" (encodeMembers ms) ++ typeEntry "super" base (encode base))⟩ =
      .ok (Ty.classType name ts ms base).reread := by
  obtain ⟨hts, hms⟩ := ht
  simp only [Ty.parts, List.mem_append, List.mem_singleton] at h
  generalize hf : Fields.mk _ = f
  obtain ⟨M, hM, hscope, hmembers⟩ := decodeScoped_written (A := A) (.inr rfl) hf.symm
    (keys_typeEntry.trans (by decide)) hN hts hms (fun x hx => h x (.inl (.inl hx)))
    fun x hx => h x (.inl (.inr hx))
  have hsuper : f.get? "super" = if base.isMissing then none else some (encode base) := by
    simp [← hf, List.lookup_append, memberEntries]
  have hbase := optionalField_type (hM base (.head _)) (h base (.inr rfl))
  simp only [Anchors.decodeClass, hscope, hmembers, hsuper, hbase, bind, Except.bind, inPart]
  rfl

theorem decodeEnum_written (name : String) (members : List String) (isConst : Bool) :
    A.decodeEnum name
      ⟨("enum", textNode name) :: ("members", wordsNode members) :: trueEntry "const" isConst⟩ =
        .ok (.enum name members isConst) := by
  have htexts : (A.wantedTexts (wordsNode members)).orFail [] = .ok members := by
    simp [wordsNode, Anchors.wantedTexts, Anchors.follow?, Anchors.followWithin?, textsOf?_written,
      Wanted.orFail, Wanted.orDefault]
  simp [Anchors.decodeEnum, htexts, optionalField_flag, inPart, bind, Except.bind]

theorem decodeIndexed_written {o i : Ty} (hN : ∀ x ∈ [o, i], N.Spares x)
    (ht : ∀ x ∈ [o, i], x.isMissing = false)
    (h : ∀ x ∈ [o, i], x.isMissing = false → ReadsBack ask x) :
    A.decodeIndexed ask N (listNode (encodeAll [o, i])) = .ok (.indexed o.reread i.reread) := by
  rw [Anchors.decodeIndexed, decodeList_written [o, i] hN ht h]
  rfl

/-- One layer is read back, if the parts are. -/
theorem decodeMapping_written {t : Ty} {info : Info} {entries : List (Node × Node)}
    (hN : N.Spares t) (ht : t.RecoverableLayer) (hmapping : encode t = .mapping info entries)
    (h : ∀ x ∈ t.parts, x.isMissing = false → ReadsBack ask x) :
    A.decodeMapping ask N (encode t) = .ok t.reread := by
  have hN : ∀ x ∈ t.parts, N.Spares x := fun _ => hN.part
  cases t with
  | missing | keyword | this | regExp => cases hmapping
  | literal l =>
    refine decodeMapping_of_shape "literal" (by decide) (List.nil_sublist _) ?_
    exact decodeLiteral_written ht
  | array e =>
    refine decodeMapping_of_shape "array" (by decide) (List.nil_sublist _) ?_
    rw [Anchors.decodeShape, h e (.head _) ht N (hN e (.head _))]
    rfl
  | tuple ts =>
    refine decodeMapping_of_shape "tuple" (by decide) (List.nil_sublist _) ?_
    rw [Anchors.decodeShape, decodeList_written ts hN ht h]
    rfl
  | union ts =>
    refine decodeMapping_of_shape "union" (by decide) (List.nil_sublist _) ?_
    rw [Anchors.decodeShape, decodeList_written ts hN ht h]
    rfl
  | inter ts =>
    refine decodeMapping_of_shape "intersection" (by decide) (List.nil_sublist _) ?_
    rw [Anchors.decodeShape, decodeList_written ts hN ht h]
    rfl
  | function s =>
    refine decodeMapping_of_shape "fn" (by decide) (List.nil_sublist _) ?_
    rw [Anchors.decodeShape, decodeSignature_written hN ht h]
    rfl
  | ctor s =>
    refine decodeMapping_of_shape "new" (by decide) (List.nil_sublist _) ?_
    rw [Anchors.decodeShape, decodeSignature_written hN ht h]
    rfl
  | object ms =>
    refine decodeMapping_of_shape "object" (by decide) keys_besideObject ?_
    rw [Anchors.decodeShape, decodeMembers_written hN ht (by simp [List.lookup_append])
      (by simp [List.lookup_append]) (by simp [List.lookup_append]) h]
    rfl
  | interface name ts ms bases =>
    refine decodeMapping_of_shape "interface" (by decide) keys_besideInterface ?_
    exact decodeInterface_written hN ht h
  | classType name ts ms base =>
    refine decodeMapping_of_shape "class" (by decide) keys_besideClass ?_
    exact decodeClass_written hN ht h
  | enum name members isConst =>
    refine decodeMapping_of_shape "enum" (by decide) keys_besideEnum ?_
    exact decodeEnum_written name members isConst
  | variant e m =>
    refine decodeMapping_of_shape "variant" (by decide) (List.nil_sublist _) ?_
    have hvalue : (textNode (e ++ "." ++ m)).value = e ++ "." ++ m := rfl
    rw [Anchors.decodeShape, Anchors.decodeVariant, hvalue, cutText?_variant ht]
    rfl
  | param name bound =>
    refine decodeMapping_of_shape "param" (by decide) (keys_typeEntry.trans (by decide)) ?_
    have hbound := optionalField_type (hN bound (.head _)) (h bound (.head _))
    simp [Anchors.decodeShape, hbound, textNode, taggedNode, Except.map, Ty.reread]
  | indexed o i =>
    refine decodeMapping_of_shape "indexed" (by decide) (List.nil_sublist _) ?_
    exact decodeIndexed_written hN (by simpa [Ty.RecoverableLayer, Ty.WritableLayer] using ht) h
  | other raw => exact decodeMapping_of_shape "other" (by decide) (List.nil_sublist _) rfl
  | named n => cases ht

end Layer

/-! ## The whole type -/

theorem decodeScalar_written {A : Anchors} {N : Names} {t : Ty} {info : Info} (hN : N.Spares t)
    {text : ByteText} (ht : t.RecoverableLayer) (hscalar : encode t = .scalar info text) :
    A.decodeScalar N (encode t) = .ok t.reread := by
  have hfixed {name : String} (hname : name ∈ fixedNames) (hwritten : t.fixedName? = some name)
      (hbuiltin : Names.builtin? name = some t) : A.decodeScalar N (textNode name) = .ok t := by
    have htag : (textNode name).ownTag? = some .text := rfl
    have htext : (textNode name).text = .valid name := rfl
    unfold Anchors.decodeScalar decodeSourceAt decodeSource
    rw [htag, htext]
    dsimp only
    rw [TypeSource.parse_fixed hname (hN name (.here hname hwritten)) hbuiltin]
  cases t with
  | missing => cases ht
  | keyword k =>
    have hname : k.text ∈ fixedNames := .tail _ (.tail _ (List.mem_map_of_mem ht))
    exact hfixed hname rfl (TypeSource.builtin?_keyword ht)
  | this => exact hfixed (.head _) rfl rfl
  | regExp => exact hfixed (.tail _ (.head _)) rfl rfl
  | _ => cases hscalar

/-- A type that is recoverable is read back, with as many steps as its node is deep. -/
theorem decodeWithin_encode_of_recoverable {A : Anchors} {expanding : List Nat}
    {fuel : Nat} {t : Ty} (ht : t.Recoverable) (hfuel : (encode t).depth ≤ fuel) :
    ReadsBack (A.decodeWithin fuel expanding) t := by
  induction fuel generalizing t with
  | zero =>
    have hpos : 0 < (encode t).depth := by cases hnode : encode t <;> simp [Node.depth]
    omega
  | succ fuel ih =>
    intro N hN
    have hparts :
        ∀ x ∈ t.parts, x.isMissing = false → ReadsBack (A.decodeWithin fuel expanding) x := by
      intro x hx hmissing
      have hlt := depth_encode_lt hmissing hx
      exact ih (ht.part hx hmissing) (by omega)
    rcases encode_cases t with ⟨info, text, hscalar⟩ | ⟨shape, v, rest, hmapping, -, -⟩
    · have hlayer := decodeScalar_written (A := A) hN ht.layer hscalar
      rw [hscalar] at hlayer ⊢
      exact hlayer
    · have hlayer := decodeMapping_written (A := A) hN ht.layer hmapping hparts
      rw [hmapping] at hlayer ⊢
      exact hlayer

/-- The document of a recoverable type is read back. -/
theorem decode_ofTree_encode {t : Ty} (ht : t.Recoverable) :
    (Document.ofTree (encode t)).decode {} = .ok t.reread := by
  have hfuel : (encode t).depth ≤ Anchors.decodeFuel [] (encode t) := by
    simp only [Anchors.decodeFuel, List.length_nil]
    omega
  rw [ofTree_encode]
  exact decodeWithin_encode_of_recoverable ht hfuel {} (TypeSource.Names.leavesFixed_empty.spares t)

/-- A type that can be written is read back, with as many steps as its node is deep. -/
theorem decodeWithin_encode {A : Anchors} {expanding : List Nat} {fuel : Nat} {t : Ty}
    (ht : t.Writable) (hfuel : (encode t).depth ≤ fuel) :
    ∀ N : Names, N.LeavesFixed → A.decodeWithin fuel expanding N (encode t) = .ok t.reread :=
  fun N hN => decodeWithin_encode_of_recoverable ht.recoverable hfuel N (hN.spares t)

/-- A type that can be written and is not nested too deeply is read back from its
document as an equal type, whatever is declared. -/
theorem decode_encode {t : Ty} (ht : t.Writable) (hheight : t.height ≤ maxEqualDepth + 1) :
    ∃ t', (Document.ofTree (encode t)).decode {} = .ok t' ∧
      ∀ D : Decls, D.equal t' t = true ∧ D.equal t t' = true := by
  refine ⟨t.reread, ?_, fun D => Decls.equalTypes_reread ht.isTree hheight⟩
  have hfuel : (encode t).depth ≤ Anchors.decodeFuel [] (encode t) := by
    rw [Anchors.decodeFuel, List.length_nil, Nat.zero_add, Nat.one_mul]
    omega
  rw [ofTree_encode]
  exact decodeWithin_encode ht hfuel {} TypeSource.Names.leavesFixed_empty

/-- An interface whose members are written in another order. -/
def shelf : Ty :=
  .interface "Shelf" [⟨"T", .missing⟩]
    [.call (.mk [] [⟨.rest (.ident "items" false), .array (.param "T" .missing)⟩] .number),
      .property ⟨"size", true⟩ (.literal (.number (.finite true 5629499534213120 (-51)))) true true,
      .index "name" .string (.variant "Color" "Red") false,
      .method ⟨"get", false⟩ true (.mk [] [⟨.ident "place" true, .missing⟩] (.param "T" .missing))]
    [.union [.this, .literal (.bool true)]]

theorem shelf_writable : shelf.Writable := by
  have hparam : (Ty.param "T" .missing).Writable :=
    .intro trivial (by simp [Ty.parts, Ty.isMissing])
  have hleaf {t : Ty} (hlayer : t.WritableLayer) (hparts : t.parts = []) : t.Writable :=
    .intro hlayer fun x hx => by rw [hparts] at hx; cases hx
  have htrimmed : Trimmed "get" := by
    constructor <;> simp <;> rfl
  have hget : IsMemberName "get" := by
    refine ⟨by decide, htrimmed, by decide, by decide, fun inner h => ?_⟩
    have hhead := congrArg (·.toList.head?) h
    simp at hhead
  refine .intro ⟨?_, ⟨?_, by decide⟩, ?_⟩ ?_
  · exact List.forall_mem_singleton.2 ⟨by decide, by decide⟩
  · intro m hm
    simp only [List.mem_cons, List.not_mem_nil, or_false] at hm
    rcases hm with rfl | rfl | rfl | rfl
    · exact ⟨List.forall_mem_nil _,
        List.forall_mem_singleton.2 ⟨rfl, by decide, by decide, by decide⟩, rfl⟩
    · exact .inl rfl
    · exact ⟨rfl, rfl⟩
    · exact ⟨.inr hget, List.forall_mem_nil _,
        List.forall_mem_singleton.2 ⟨by decide, by decide, by decide⟩, rfl⟩
  · exact List.forall_mem_singleton.2 rfl
  · intro x hx hmissing
    simp only [shelf, Ty.parts, Member.parts, Signature.parts, List.map_cons, List.map_nil,
      List.flatMap_cons, List.flatMap_nil, List.append_nil, List.nil_append, List.cons_append,
      List.mem_cons, List.not_mem_nil, or_false] at hx
    rcases hx with rfl | rfl | rfl | rfl | rfl | rfl | rfl | rfl | rfl
    · cases hmissing
    · exact .intro rfl fun x hx _ => List.mem_singleton.1 hx ▸ hparam
    · exact hleaf (show Keyword.number ∈ Keyword.known by decide) rfl
    · exact hleaf ⟨by decide, by decide, by decide, .inl (by decide)⟩ rfl
    · exact hleaf (show Keyword.string ∈ Keyword.known by decide) rfl
    · exact hleaf (show '.' ∉ "Color".toList by decide) rfl
    · cases hmissing
    · exact hparam
    · refine .intro (by simp [Ty.WritableLayer, Ty.isMissing]) fun x hx _ => ?_
      simp only [Ty.parts, List.mem_cons, List.not_mem_nil, or_false] at hx
      rcases hx with rfl | rfl <;> exact hleaf trivial rfl

theorem decode_encode_shelf : ∃ t', (Document.ofTree (encode shelf)).decode {} = .ok t' ∧
    ∀ D : Decls, D.equal t' shelf = true ∧ D.equal shelf t' = true :=
  decode_encode shelf_writable (by decide)

end StructuralTyping.Yaml
