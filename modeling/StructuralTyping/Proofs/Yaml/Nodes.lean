import StructuralTyping.Proofs.Equal.Height
import StructuralTyping.Proofs.Yaml.Fields
import StructuralTyping.Yaml.Encode

/-!
# The nodes of written types

Lists are written item by item.  The node of a part is less deep than the node of
the whole.  No node of a written type has an anchor or is an alias, so its document
is the node itself.
-/

namespace StructuralTyping.Yaml

/-! ## Lists -/

@[simp] theorem encodeAll_eq_map (ts : List Ty) : encodeAll ts = ts.map encode := by
  induction ts with
  | nil => rfl
  | cons t ts ih => rw [encodeAll, List.map_cons, ih]

@[simp] theorem encodeTypeParams_eq_map (ts : List TypeParam) :
    encodeTypeParams ts = ts.map encodeTypeParam := by
  induction ts with
  | nil => rfl
  | cons t ts ih => rw [encodeTypeParams, List.map_cons, ih]

@[simp] theorem encodeParams_eq_map (ps : List Param) : encodeParams ps = ps.map encodeParam := by
  induction ps with
  | nil => rfl
  | cons p ps ih => rw [encodeParams, List.map_cons, ih]

@[simp] theorem encodeMembers_eq_map (ms : List Member) :
    encodeMembers ms = ms.map encodeMember := by
  induction ms with
  | nil => rfl
  | cons m ms ih => rw [encodeMembers, List.map_cons, ih]

/-! ## Depth -/

section Depth

theorem depth_lt_listNode {n : Node} {items : List Node} (h : n ∈ items) :
    n.depth < (listNode items).depth := by
  rw [listNode, Node.depth]
  exact Nat.lt_succ_of_le (Node.depth_le_depths h)

theorem depth_lt_mapNode {e : String × Node} {entries : List (String × Node)} (h : e ∈ entries) :
    e.2.depth < (mapNode entries).depth := by
  rw [mapNode, Node.depth]
  refine Nat.lt_succ_of_le (Node.depth_le_entryDepths ?_)
  rw [List.map_map]
  exact List.mem_map_of_mem h

theorem depth_lt_entry {key : String} {v : Node} {entries : List (String × Node)}
    (h : (key, v) ∈ entries) :
    v.depth < (mapNode entries).depth := depth_lt_mapNode h

theorem depth_lt_listEntry {key : String} {n : Node} {items : List Node} (h : n ∈ items) :
    ∃ e ∈ listEntry key items, n.depth < e.2.depth := by
  cases items with
  | nil => cases h
  | cons => exact ⟨_, .head _, depth_lt_listNode h⟩

theorem mem_typeEntry {key : String} {t : Ty} {n : Node} (h : t.isMissing = false) :
    (key, n) ∈ typeEntry key t n := by
  rw [typeEntry, h]
  exact .head _

theorem depth_lt_encodeAll {t : Ty} {ts : List Ty} (h : t ∈ ts) :
    (encode t).depth < (listNode (encodeAll ts)).depth := by
  refine depth_lt_listNode ?_
  rw [encodeAll_eq_map]
  exact List.mem_map_of_mem h

variable {x : Ty} (hx : x.isMissing = false)
include hx

theorem depth_lt_typeParams {key : String} {ts : List TypeParam} (h : x ∈ ts.map (·.bound)) :
    ∃ e ∈ listEntry key (encodeTypeParams ts), (encode x).depth < e.2.depth := by
  obtain ⟨⟨name, b⟩, ht, rfl⟩ := List.mem_map.1 h
  have hbound : (encode b).depth < (encodeTypeParam ⟨name, b⟩).depth := by
    rw [encodeTypeParam]
    exact depth_lt_entry (List.mem_append_right _ (mem_typeEntry hx))
  have hmem : encodeTypeParam ⟨name, b⟩ ∈ encodeTypeParams ts := by
    rw [encodeTypeParams_eq_map]
    exact List.mem_map_of_mem ht
  obtain ⟨e, he, hdepth⟩ := depth_lt_listEntry hmem
  exact ⟨e, he, hbound.trans hdepth⟩

theorem depth_lt_signature {s : Signature} (h : x ∈ s.parts) :
    (encode x).depth < (encodeSignature s).depth := by
  cases s with
  | absent => cases h
  | mk ts ps r =>
    simp only [Signature.parts, List.mem_append, List.mem_singleton] at h
    rw [encodeSignature]
    rcases h with (h | h) | rfl
    · obtain ⟨e, he, hdepth⟩ := depth_lt_typeParams hx h
      exact hdepth.trans (depth_lt_mapNode (List.mem_append_left _ (List.mem_append_left _ he)))
    · obtain ⟨⟨pattern, t⟩, hp, rfl⟩ := List.mem_map.1 h
      have htype : (encode t).depth < (encodeParam ⟨pattern, t⟩).depth := by
        rw [encodeParam]
        exact depth_lt_entry (List.mem_append_left _ (List.mem_append_left _
          (List.mem_append_right _ (mem_typeEntry hx))))
      have hlist : (encodeParam ⟨pattern, t⟩).depth < (listNode (encodeParams ps)).depth := by
        refine depth_lt_listNode ?_
        rw [encodeParams_eq_map]
        exact List.mem_map_of_mem hp
      exact (htype.trans hlist).trans
        (depth_lt_entry (List.mem_append_left _ (List.mem_append_right _ (.head _))))
    · exact depth_lt_entry (List.mem_append_right _ (mem_typeEntry hx))

/-- The parts of a member lie below one of the entries of its shape. -/
theorem depth_lt_memberEntries {key : String} {ms : List Member} (h : x ∈ ms.flatMap (·.parts)) :
    ∃ e ∈ memberEntries key (encodeMembers ms), (encode x).depth < e.2.depth := by
  obtain ⟨m, hm, hpart⟩ := List.mem_flatMap.1 h
  have hmem : encodeMember m ∈ encodeMembers ms := by
    rw [encodeMembers_eq_map]
    exact List.mem_map_of_mem hm
  have hnamed {k : String} {n : Node} (hn : (encodeMember m).named? = some (k, n))
      (hdepth : (encode x).depth ≤ n.depth) :
      ∃ e ∈ memberEntries key (encodeMembers ms), (encode x).depth < e.2.depth := by
    have hentry : (k, n) ∈ (encodeMembers ms).filterMap (·.named?) :=
      List.mem_filterMap.2 ⟨_, hmem, hn⟩
    exact ⟨_, List.mem_append_left _ (List.mem_append_left _ (List.mem_append_left _ (.head _))),
      hdepth.trans_lt (depth_lt_mapNode hentry)⟩
  have hbeside (pick : MemberNode → Option Node) {k : String} {n : Node}
      (hn : pick (encodeMember m) = some n)
      (hdepth : (encode x).depth < n.depth)
      (hsub : listEntry k ((encodeMembers ms).filterMap pick) ⊆
        memberEntries key (encodeMembers ms)) :
      ∃ e ∈ memberEntries key (encodeMembers ms), (encode x).depth < e.2.depth := by
    obtain ⟨e, he, hlist⟩ := depth_lt_listEntry (List.mem_filterMap.2 ⟨_, hmem, hn⟩)
    exact ⟨e, hsub he, hdepth.trans hlist⟩
  cases m with
  | property k t o r =>
    rw [List.mem_singleton.1 hpart] at hnamed ⊢
    exact hnamed rfl le_rfl
  | method k o s =>
    have hmethod : (encodeSignature s).depth < (mapNode [("method", encodeSignature s)]).depth :=
      depth_lt_entry (.head _)
    exact hnamed rfl ((depth_lt_signature hx hpart).trans hmethod).le
  | call s =>
    exact hbeside (·.call?) rfl (depth_lt_signature hx hpart) fun e he =>
      List.mem_append_left _ (List.mem_append_left _ (List.mem_append_right _ he))
  | construct s =>
    exact hbeside (·.construct?) rfl (depth_lt_signature hx hpart) fun e he =>
      List.mem_append_left _ (List.mem_append_right _ he)
  | index p k t r =>
    simp only [Member.parts, List.mem_cons, List.not_mem_nil, or_false] at hpart
    have hdepth :
        (encode x).depth < (mapNode ([("param", textNode p), ("key", encode k), ("type", encode t)]
        ++ trueEntry "readonly" r)).depth := by
      rcases hpart with rfl | rfl
      · exact depth_lt_entry (.tail _ (.head _))
      · exact depth_lt_entry (.tail _ (.tail _ (.head _)))
    exact hbeside (·.index?) rfl hdepth fun e he => List.mem_append_right _ he

/-- The node of a part is less deep than the node of the whole. -/
theorem depth_encode_lt {t : Ty} (h : x ∈ t.parts) : (encode x).depth < (encode t).depth := by
  have hsingle {key : String} {n : Node} (h : (encode x).depth < n.depth) :
      (encode x).depth < (mapNode [(key, n)]).depth := h.trans (depth_lt_entry (.head _))
  cases t with
  | missing | keyword | literal | enum | variant | this | other | regExp | named => cases h
  | array e =>
    rw [List.mem_singleton.1 h, encode]
    exact depth_lt_entry (.head _)
  | tuple ts | union ts | inter ts =>
    rw [encode]
    exact hsingle (depth_lt_encodeAll h)
  | function s | ctor s =>
    rw [encode]
    exact hsingle (depth_lt_signature hx h)
  | object ms =>
    obtain ⟨e, he, hdepth⟩ := depth_lt_memberEntries hx h
    rw [encode]
    exact hdepth.trans (depth_lt_mapNode he)
  | interface name ts ms bs =>
    simp only [Ty.parts, List.mem_append] at h
    rw [encode]
    rcases h with (h | h) | h
    · obtain ⟨e, he, hdepth⟩ := depth_lt_typeParams hx h
      exact hdepth.trans (depth_lt_mapNode (List.mem_append_left _ (List.mem_append_left _
        (List.mem_append_right _ he))))
    · obtain ⟨e, he, hdepth⟩ := depth_lt_memberEntries hx h
      exact hdepth.trans (depth_lt_mapNode (List.mem_append_left _ (List.mem_append_right _ he)))
    · have hmem : encode x ∈ encodeAll bs := by
        rw [encodeAll_eq_map]
        exact List.mem_map_of_mem h
      obtain ⟨e, he, hdepth⟩ := depth_lt_listEntry hmem
      exact hdepth.trans (depth_lt_mapNode (List.mem_append_right _ he))
  | classType name ts ms b =>
    simp only [Ty.parts, List.mem_append, List.mem_singleton] at h
    rw [encode]
    rcases h with (h | h) | rfl
    · obtain ⟨e, he, hdepth⟩ := depth_lt_typeParams hx h
      exact hdepth.trans (depth_lt_mapNode (List.mem_append_left _ (List.mem_append_left _
        (List.mem_append_right _ he))))
    · obtain ⟨e, he, hdepth⟩ := depth_lt_memberEntries hx h
      exact hdepth.trans (depth_lt_mapNode (List.mem_append_left _ (List.mem_append_right _ he)))
    · exact depth_lt_entry (List.mem_append_right _ (mem_typeEntry hx))
  | param name b =>
    rw [List.mem_singleton.1 h] at hx ⊢
    rw [encode]
    exact depth_lt_entry (List.mem_append_right _ (mem_typeEntry hx))
  | indexed o i =>
    rw [encode]
    exact hsingle (depth_lt_encodeAll h)

end Depth

/-! ## Anchors and aliases -/

/-- No node has an anchor, and none is an alias. -/
inductive Node.Plain : Node → Prop where
  | scalar {i : Info} {s : ByteText} (hi : i.anchor = "") : Plain (.scalar i s)
  | sequence {i : Info} {ns : List Node} (hi : i.anchor = "") (hitems : ∀ n ∈ ns, n.Plain) :
      Plain (.sequence i ns)
  | mapping {i : Info} {es : List (Node × Node)} (hi : i.anchor = "") (hkeys : ∀ e ∈ es, e.1.Plain)
      (hvalues : ∀ e ∈ es, e.2.Plain) : Plain (.mapping i es)

namespace Node

theorem anchoredIn_eq_nil : ∀ {ns : List Node}, (∀ n ∈ ns, n.anchored = []) → anchoredIn ns = []
  | [], _ => rfl
  | n :: ns, h => by
      rw [anchoredIn, h n (.head _), anchoredIn_eq_nil fun m hm => h m (.tail _ hm),
        List.append_nil]

theorem anchoredInEntries_eq_nil : ∀ {es : List (Node × Node)}, (∀ e ∈ es, e.1.anchored = []) →
    (∀ e ∈ es, e.2.anchored = []) → anchoredInEntries es = []
  | [], _, _ => rfl
  | (k, v) :: es, hkeys, hvalues => by
      rw [anchoredInEntries, anchoredInEntry, hkeys (k, v) (.head _), hvalues (k, v) (.head _),
        anchoredInEntries_eq_nil (fun e he => hkeys e (.tail _ he)) fun e he =>
          hvalues e (.tail _ he)]
      rfl

theorem anchored_of_plain {n : Node} (h : n.Plain) : n.anchored = [] := by
  induction h with
  | scalar hi => simp [anchored, ifAnchored, info, hi]
  | sequence hi _ ih => simp [anchored, ifAnchored, info, hi, anchoredIn_eq_nil ih]
  | mapping hi _ _ ihkeys ihvalues =>
    simp [anchored, ifAnchored, info, hi, anchoredInEntries_eq_nil ihkeys ihvalues]

theorem linkAll_eq_self : ∀ {ns : List Node} {o : Opened}, (∀ n ∈ ns, ∀ o, n.link o = (n, o)) →
    linkAll o ns = (ns, o)
  | [], _, _ => rfl
  | n :: ns, o, h => by
      have hrest : linkAll o ns = (ns, o) := linkAll_eq_self fun m hm => h m (.tail _ hm)
      simp only [linkAll, h n (.head _), hrest]

theorem linkEntries_eq_self : ∀ {es : List (Node × Node)} {o : Opened},
    (∀ e ∈ es, ∀ o, e.1.link o = (e.1, o)) → (∀ e ∈ es, ∀ o, e.2.link o = (e.2, o)) →
    linkEntries o es = (es, o)
  | [], _, _, _ => rfl
  | (k, v) :: es, o, hkeys, hvalues => by
      have hrest : linkEntries o es = (es, o) :=
        linkEntries_eq_self (fun e he => hkeys e (.tail _ he)) fun e he => hvalues e (.tail _ he)
      have hk := hkeys (k, v) (.head _)
      have hv := hvalues (k, v) (.head _)
      simp only [linkEntries, linkEntry, hk, hv, hrest]

/-- Linking leaves a plain node as it is. -/
theorem link_of_plain {n : Node} (h : n.Plain) : ∀ o : Opened, n.link o = (n, o) := by
  have hadd {i : Info} (hi : i.anchor = "") (o : Opened) : o.add i = o := by simp [Opened.add, hi]
  induction h with
  | scalar hi => exact fun o => by simp [link, hadd hi]
  | sequence hi _ ih => exact fun o => by simp [link, hadd hi, linkAll_eq_self ih]
  | mapping hi _ _ ihkeys ihvalues =>
    exact fun o => by simp [link, hadd hi, linkEntries_eq_self ihkeys ihvalues]

/-- The document of a plain node is the node, without targets. -/
theorem ofTree_of_plain {n : Node} (h : n.Plain) : Document.ofTree n = ⟨n, []⟩ := by
  simp [Document.ofTree, link_of_plain h, anchored_of_plain h]

end Node

/-! ## Written types are plain -/

theorem plain_textNode (s : ByteText) : (textNode s).Plain := .scalar rfl

theorem plain_listNode {items : List Node} (h : ∀ n ∈ items, n.Plain) : (listNode items).Plain :=
  .sequence rfl h

theorem plain_wordsNode (words : List String) : (wordsNode words).Plain := by
  refine .sequence rfl fun n hn => ?_
  obtain ⟨s, -, rfl⟩ := List.mem_map.1 hn
  exact plain_textNode s

theorem plain_mapNode {entries : List (String × Node)} (h : ∀ e ∈ entries, e.2.Plain) :
    (mapNode entries).Plain := by
  refine .mapping rfl ?_ ?_
  · intro e he
    obtain ⟨⟨k, v⟩, -, rfl⟩ := List.mem_map.1 he
    exact plain_textNode k
  · intro e he
    obtain ⟨⟨k, v⟩, hmem, rfl⟩ := List.mem_map.1 he
    exact h _ hmem

theorem plain_listEntry {key : String} {items : List Node} (h : ∀ n ∈ items, n.Plain) :
    ∀ e ∈ listEntry key items, e.2.Plain := by
  cases items with
  | nil => exact fun _ he => nomatch he
  | cons => exact List.forall_mem_singleton.2 (plain_listNode h)

theorem plain_trueEntry {key : String} {b : Bool} : ∀ e ∈ trueEntry key b, e.2.Plain := by
  cases b with
  | false => exact fun _ he => nomatch he
  | true => exact List.forall_mem_singleton.2 (.scalar rfl)

theorem plain_typeEntry {key : String} {t : Ty} {n : Node} (h : n.Plain) :
    ∀ e ∈ typeEntry key t n, e.2.Plain := by
  rw [typeEntry]
  split
  · exact fun _ he => nomatch he
  · exact List.forall_mem_singleton.2 h

theorem plain_typeParams {ts : List TypeParam} (h : ∀ x ∈ ts.map (·.bound), (encode x).Plain) :
    ∀ n ∈ encodeTypeParams ts, n.Plain := by
  rw [encodeTypeParams_eq_map]
  intro n hn
  obtain ⟨⟨name, b⟩, ht, rfl⟩ := List.mem_map.1 hn
  rw [encodeTypeParam]
  exact plain_mapNode (List.forall_mem_append.2
    ⟨List.forall_mem_singleton.2 (plain_textNode name),
      plain_typeEntry (h b (List.mem_map_of_mem ht))⟩)

theorem plain_signature {s : Signature} (h : ∀ x ∈ s.parts, (encode x).Plain) :
    (encodeSignature s).Plain := by
  cases s with
  | absent =>
    exact plain_mapNode (List.forall_mem_singleton.2 (plain_listNode fun _ hn => nomatch hn))
  | mk ts ps r =>
    simp only [Signature.parts, List.mem_append, List.mem_singleton] at h
    have hparams : ∀ n ∈ encodeParams ps, n.Plain := by
      rw [encodeParams_eq_map]
      intro n hn
      obtain ⟨⟨pattern, t⟩, hp, rfl⟩ := List.mem_map.1 hn
      have ht := h t (.inl (.inr (List.mem_map_of_mem hp)))
      rw [encodeParam]
      exact plain_mapNode
        (List.forall_mem_append.2 ⟨List.forall_mem_append.2 ⟨List.forall_mem_append.2
        ⟨List.forall_mem_singleton.2 (plain_textNode _), plain_typeEntry ht⟩, plain_trueEntry⟩,
        plain_trueEntry⟩)
    rw [encodeSignature]
    exact plain_mapNode (List.forall_mem_append.2 ⟨List.forall_mem_append.2
      ⟨plain_listEntry (plain_typeParams fun x hx => h x (.inl (.inl hx))),
        List.forall_mem_singleton.2 (plain_listNode hparams)⟩, plain_typeEntry (h r (.inr rfl))⟩)

theorem plain_memberEntries {key : String} {ms : List Member}
    (h : ∀ x ∈ ms.flatMap (·.parts), (encode x).Plain) :
    ∀ e ∈ memberEntries key (encodeMembers ms), e.2.Plain := by
  have hparts {m : Member} (hm : m ∈ ms) : ∀ x ∈ m.parts, (encode x).Plain :=
    fun x hx => h x (List.mem_flatMap.2 ⟨m, hm, hx⟩)
  have hpick {α : Type} (pick : MemberNode → Option α) (P : α → Prop)
      (hP : ∀ m ∈ ms, ∀ a, pick (encodeMember m) = some a → P a) :
      ∀ a ∈ (encodeMembers ms).filterMap pick, P a := by
    rw [encodeMembers_eq_map]
    intro a ha
    obtain ⟨_, hmem, hpick⟩ := List.mem_filterMap.1 ha
    obtain ⟨m, hm, rfl⟩ := List.mem_map.1 hmem
    exact hP m hm a hpick
  have hnamed := hpick (·.named?) (fun e => e.2.Plain) fun m hm a ha => by
    cases m with
    | property k t o r =>
      obtain rfl := Option.some.inj ha
      exact hparts hm t (.head _)
    | method k o s =>
      obtain rfl := Option.some.inj ha
      exact plain_mapNode (List.forall_mem_singleton.2 (plain_signature (hparts hm)))
    | _ => cases ha
  have hcalls := hpick (·.call?) Node.Plain fun m hm a ha => by
    cases m with
    | call s =>
      obtain rfl := Option.some.inj ha
      exact plain_signature (hparts hm)
    | _ => cases ha
  have hconstructs := hpick (·.construct?) Node.Plain fun m hm a ha => by
    cases m with
    | construct s =>
      obtain rfl := Option.some.inj ha
      exact plain_signature (hparts hm)
    | _ => cases ha
  have hindexes := hpick (·.index?) Node.Plain fun m hm a ha => by
    cases m with
    | index p k t r =>
      obtain rfl := Option.some.inj ha
      refine plain_mapNode (List.forall_mem_append.2 ⟨?_, plain_trueEntry⟩)
      exact List.forall_mem_cons.2 ⟨plain_textNode p, List.forall_mem_cons.2 ⟨hparts hm k (.head _),
        List.forall_mem_singleton.2 (hparts hm t (.tail _ (.head _)))⟩⟩
    | _ => cases ha
  rw [memberEntries]
  exact List.forall_mem_append.2 ⟨List.forall_mem_append.2 ⟨List.forall_mem_append.2
    ⟨List.forall_mem_singleton.2 (plain_mapNode hnamed), plain_listEntry hcalls⟩,
    plain_listEntry hconstructs⟩, plain_listEntry hindexes⟩

theorem plain_encodeAll {ts : List Ty} (h : ∀ x ∈ ts, (encode x).Plain) :
    ∀ n ∈ encodeAll ts, n.Plain := by
  rw [encodeAll_eq_map]
  intro n hn
  obtain ⟨t, ht, rfl⟩ := List.mem_map.1 hn
  exact h t ht

theorem plain_layer {t : Ty} (h : ∀ x ∈ t.parts, (encode x).Plain) : (encode t).Plain := by
  have hsingle {key : String} {n : Node} (hn : n.Plain) : (mapNode [(key, n)]).Plain :=
    plain_mapNode (List.forall_mem_singleton.2 hn)
  cases t with
  | missing | keyword | this | regExp => exact .scalar rfl
  | literal l =>
    refine hsingle ?_
    cases l <;> exact .scalar rfl
  | array e => exact hsingle (h e (.head _))
  | param name b =>
    rw [encode]
    exact plain_mapNode (List.forall_mem_append.2
      ⟨List.forall_mem_singleton.2 (plain_textNode name), plain_typeEntry (h b (.head _))⟩)
  | tuple ts | union ts | inter ts => exact hsingle (plain_listNode (plain_encodeAll h))
  | function s | ctor s => exact hsingle (plain_signature h)
  | object ms => exact plain_mapNode (plain_memberEntries h)
  | interface name ts ms bs =>
    simp only [Ty.parts, List.mem_append] at h
    rw [encode]
    exact plain_mapNode
      (List.forall_mem_append.2 ⟨List.forall_mem_append.2 ⟨List.forall_mem_append.2
      ⟨List.forall_mem_singleton.2 (plain_textNode name),
        plain_listEntry (plain_typeParams fun x hx => h x (.inl (.inl hx)))⟩,
      plain_memberEntries fun x hx => h x (.inl (.inr hx))⟩,
      plain_listEntry (plain_encodeAll fun x hx => h x (.inr hx))⟩)
  | classType name ts ms b =>
    simp only [Ty.parts, List.mem_append, List.mem_singleton] at h
    rw [encode]
    exact plain_mapNode
      (List.forall_mem_append.2 ⟨List.forall_mem_append.2 ⟨List.forall_mem_append.2
      ⟨List.forall_mem_singleton.2 (plain_textNode name),
        plain_listEntry (plain_typeParams fun x hx => h x (.inl (.inl hx)))⟩,
      plain_memberEntries fun x hx => h x (.inl (.inr hx))⟩, plain_typeEntry (h b (.inr rfl))⟩)
  | enum name ms c =>
    rw [encode]
    exact plain_mapNode (List.forall_mem_append.2 ⟨List.forall_mem_cons.2 ⟨plain_textNode name,
      List.forall_mem_singleton.2 (plain_wordsNode ms)⟩, plain_trueEntry⟩)
  | variant | other | named => exact hsingle (plain_textNode _)
  | indexed o i => exact hsingle (plain_listNode (plain_encodeAll h))

theorem plain_encode (t : Ty) : (encode t).Plain :=
  plain_layer fun x _ => plain_encode x
termination_by t.height
decreasing_by exact Ty.height_lt_of_mem_parts (by assumption)

/-- The document of a written type is its node. -/
theorem ofTree_encode (t : Ty) : Document.ofTree (encode t) = ⟨encode t, []⟩ :=
  Node.ofTree_of_plain (plain_encode t)

end StructuralTyping.Yaml
