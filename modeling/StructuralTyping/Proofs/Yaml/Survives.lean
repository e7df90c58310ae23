import StructuralTyping.Proofs.Yaml.Decoded
import StructuralTyping.Proofs.Yaml.RoundTrip

/-!
# Decoded types survive being written

A type that came out of a document is written and read back as an equal type, whatever the
document left out and however it spelt its keys (`decode_encode_of_decode`).  It does not
survive if its written form says something else, and `Ty.SurvivesLayer` lists how that
comes about:

* a literal is infinite or not a number, which has no text that is read as a number;
* a type parameter hides the name of a fixed type that is written in its scope;
* the name of a parameter has marks left after those that were read off it;
* a method has the word `readonly` in front of its name, which is read off as a mark;
* an index signature has no key or no value, and a missing type is written as null;
* two members of a shape are written with the same key, which is refused.

Nothing else can go wrong: a layer that a document can say and that survives is read back.
-/

namespace StructuralTyping

open Yaml (memberKey)

/-! ## Layers that survive -/

/-- The name of the parameter has no marks left. -/
def Pattern.Survives : Pattern → Prop
  | .ident name _ | .rest (.ident name _) =>
    ¬ "...".toList <+: name.toList ∧ ¬ "?".toList <:+ name.toList
  | _ => True

/-- The type parameters hide nothing, and the names of parameters have no marks left. -/
def Signature.SurvivesLayer : Signature → Prop
  | .absent => True
  | .mk ts ps r => TypeParam.HideNothing ts (ps.map (·.type) ++ [r]) ∧ ∀ p ∈ ps, p.pattern.Survives

/-- The word `readonly` stands in front of no method, and an index signature is complete. -/
def Member.SurvivesLayer : Member → Prop
  | .property _ _ _ _ => True
  | .method k o s => ¬ "readonly ".toList <+: (memberKey k o).toList ∧ s.SurvivesLayer
  | .call s => s.SurvivesLayer
  | .construct s => s.SurvivesLayer
  | .index _ k t _ => k.isMissing = false ∧ t.isMissing = false

/-- All members survive, and no two are written with the same key. -/
structure SurvivingMembers (ms : List Member) : Prop where
  each : ∀ m ∈ ms, m.SurvivesLayer
  distinct : (ms.filterMap (·.writtenKey?)).Nodup

/-- What the outermost layer is written as does not say something else. -/
def Ty.SurvivesLayer : Ty → Prop
  | .literal l => l.Writable
  | .function s | .ctor s => s.SurvivesLayer
  | .object ms => SurvivingMembers ms
  | .interface _ ts ms bs =>
    TypeParam.HideNothing ts (ms.flatMap (·.parts) ++ bs) ∧ SurvivingMembers ms
  | .classType _ ts ms b =>
    TypeParam.HideNothing ts (ms.flatMap (·.parts) ++ [b]) ∧ SurvivingMembers ms
  | _ => True

/-- What the layers are written as does not say something else. -/
def Ty.Survives (t : Ty) : Prop := t.Everywhere Ty.SurvivesLayer

/-! ## Decoded layers that survive are read back -/

theorem Pattern.Decoded.writable {p : Pattern} (h : p.Decoded) (hs : p.Survives) : p.Writable := by
  cases p with
  | ident name isOptional => exact ⟨h, hs.1, hs.2⟩
  | rest inner =>
    cases inner with
    | ident name isOptional => exact ⟨h.1, h.2, hs.1, hs.2⟩
    | _ => cases h
  | _ => cases h

theorem Signature.DecodedLayer.recoverable {s : Signature} (h : s.DecodedLayer)
    (hs : s.SurvivesLayer) : s.Recoverable := by
  cases s with
  | absent => cases h
  | mk ts ps r =>
    obtain ⟨hts, hps, hr⟩ := h
    exact ⟨⟨hs.1, hts⟩, fun p hp => (hps p hp).writable (hs.2 p hp), hr⟩

theorem Member.DecodedLayer.recoverable {m : Member} (h : m.DecodedLayer) (hs : m.SurvivesLayer) :
    m.Recoverable := by
  cases m with
  | property k t o r =>
    obtain ⟨raw, hraw⟩ := h
    exact hraw.property
  | method k o s =>
    obtain ⟨⟨raw, r, hraw⟩, hsignature⟩ := h
    exact ⟨hraw.method hs.1, hsignature.recoverable hs.2⟩
  | call s => exact Signature.DecodedLayer.recoverable h hs
  | construct s => exact Signature.DecodedLayer.recoverable h hs
  | index p k t r => exact hs

theorem recoverable_members {ms : List Member} (h : ∀ m ∈ ms, m.DecodedLayer)
    (hs : SurvivingMembers ms) : RecoverableMembers ms where
  each m hm := (h m hm).recoverable (hs.each m hm)
  distinct := hs.distinct

theorem Ty.DecodedLayer.recoverable {t : Ty} (h : t.DecodedLayer) (hs : t.SurvivesLayer) :
    t.RecoverableLayer := by
  cases t with
  | literal l => exact hs
  | function s => exact Signature.DecodedLayer.recoverable h hs
  | ctor s => exact Signature.DecodedLayer.recoverable h hs
  | object ms => exact recoverable_members h hs
  | interface name ts ms bs =>
    obtain ⟨hts, hms, hbs⟩ := h
    exact ⟨⟨hs.1, hts⟩, recoverable_members hms hs.2, hbs⟩
  | classType name ts ms b =>
    obtain ⟨hts, hms⟩ := h
    exact ⟨⟨hs.1, hts⟩, recoverable_members hms hs.2⟩
  | _ => exact h

theorem Ty.Decoded.recoverable {t : Ty} (h : t.Decoded) (hs : t.Survives) : t.Recoverable :=
  h.imp₂ (fun _ => Ty.DecodedLayer.recoverable) hs

/-! ## Documents -/

namespace Yaml

/-- A type that a document said is written and read back as an equal type, whatever is
declared, if it survives and is not nested too deeply. -/
theorem decode_encode_of_decode {d : Document} {t : Ty} (h : d.decode {} = .ok t) (hs : t.Survives)
    (hheight : t.height ≤ maxEqualDepth + 1) :
    ∃ t', (Document.ofTree (encode t)).decode {} = .ok t' ∧
      ∀ D : Decls, D.equal t' t = true ∧ D.equal t t' = true := by
  have hrecoverable : t.Recoverable :=
    (decoded_decode d TypeSource.Names.decoded_empty h).recoverable hs
  exact ⟨t.reread, decode_ofTree_encode hrecoverable, fun D =>
    Decls.equalTypes_reread hrecoverable.isTree hheight⟩

/-- A document that leaves out results and annotations and spells keys with marks. -/
def sparseRow : Document := .ofTree (mapNode
  [("interface", textNode "Row"),
    ("typeParams", listNode [mapNode [("name", textNode "T"), ("extends", textNode "string")]]),
    ("members", mapNode [("readonly  size??", textNode "number"), ("[at]?", nullNode),
      ("add", mapNode [("method", nullNode)])]),
    ("calls", listNode [mapNode [("params", listNode [mapNode [("...rest?", textNode "T[]")]])]]),
    ("extends", listNode [listNode [textNode "this | \"none\""]])])

/-- The type that the document says. -/
def sparseRowType : Ty :=
  .interface "Row" [⟨"T", .string⟩]
    [.property ⟨"size?", false⟩ .number true true, .property ⟨"at", true⟩ .missing true false,
      .method ⟨"add", false⟩ false (.mk [] [] .void),
      .call (.mk [] [⟨.rest (.ident "rest" false), .array (.param "T" .string)⟩] .void)]
    [.tuple [.union [.this, .literal (.string "none")]]]

theorem sparseRowType_survives : sparseRowType.Survives := by
  have hkeyword (k : Keyword) : (Ty.keyword k).Survives := .leaf trivial rfl
  refine .intro ⟨TypeParam.hideNothing_of_free (by decide) _, ?_, by decide⟩ fun x hx hmissing => ?_
  · intro m hm
    simp only [List.mem_cons, List.not_mem_nil, or_false] at hm
    rcases hm with rfl | rfl | rfl | rfl
    · trivial
    · trivial
    · exact ⟨by decide, TypeParam.hideNothing_of_free (by decide) _, List.forall_mem_nil _⟩
    · exact ⟨TypeParam.hideNothing_of_free (by decide) _,
        List.forall_mem_singleton.2 ⟨by decide, by decide⟩⟩
  · simp only [sparseRowType, Ty.parts, Member.parts, Signature.parts, List.map_cons, List.map_nil,
      List.flatMap_cons, List.flatMap_nil, List.append_nil, List.nil_append, List.cons_append,
      List.mem_cons, List.not_mem_nil, or_false] at hx
    rcases hx with rfl | rfl | rfl | rfl | rfl | rfl | rfl
    · exact hkeyword .string
    · exact hkeyword .number
    · cases hmissing
    · exact hkeyword .void
    · refine .intro trivial fun y hy _ => List.mem_singleton.1 hy ▸ .intro trivial fun z hz _ => ?_
      exact List.mem_singleton.1 hz ▸ hkeyword .string
    · exact hkeyword .void
    · refine .intro trivial fun y hy _ => List.mem_singleton.1 hy ▸ .intro trivial fun z hz _ => ?_
      simp only [Ty.parts, List.mem_cons, List.not_mem_nil, or_false] at hz
      rcases hz with rfl | rfl <;> exact .leaf trivial rfl

theorem decode_encode_of_decode_sparseRow :
    ∃ t', (Document.ofTree (encode sparseRowType)).decode {} = .ok t' ∧
      ∀ D : Decls, D.equal t' sparseRowType = true ∧ D.equal sparseRowType t' = true :=
  decode_encode_of_decode (d := sparseRow) rfl sparseRowType_survives (by decide)

/-- An index signature that leaves out its key and its value is not read back. -/
theorem decode_encode_bareIndex :
    let bareIndex :=
      Document.ofTree (mapNode [("object", mapNode []), ("indexes", listNode [mapNode []])])
    ∃ t, bareIndex.decode {} = .ok t ∧ t.height ≤ maxEqualDepth + 1 ∧
      ¬ ∃ t', (Document.ofTree (encode t)).decode {} = .ok t' ∧ Decls.empty.equal t' t = true := by
  refine ⟨.object [.index "key" .missing .missing false], rfl, by decide, ?_⟩
  rintro ⟨t', hread, hequal⟩
  obtain rfl : .object [.index "key" .null .null false] = t' := Except.ok.inj hread
  cases hequal

end Yaml

end StructuralTyping
