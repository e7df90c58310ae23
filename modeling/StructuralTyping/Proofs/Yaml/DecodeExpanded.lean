import StructuralTyping.Proofs.Yaml.Comparison
import StructuralTyping.Proofs.Yaml.Tags

/-!
# Types of expanded documents

A document decodes to the same type as its expansion (`Anchors.decode_expanded`), provided
that its aliases are acyclic and are seen through.

The document and its expansion are put side by side (`Anchors.expansion`): everything that is
looked at in a node is found in its expansion as well.  An alias that is not seen through
makes the left side fail, except at the places that `Anchors.SeesThrough` excludes.  A member
that is an alias is the one node that is looked at differently on the two sides
(`Anchors.refines_decodeMember_alias`).  `Anchors.refines_decodeWithin` closes the recursion
by induction on the steps that are left for the document.  The steps that are left for the
expansion bound its depth.

At the excluded places the two may differ (`Anchors.decode_text_alias`).
-/

namespace StructuralTyping.Yaml

open TypeSource (Names)

namespace Anchors

variable {A B : Anchors} {root : Node} {k : Nat} {r : Role} {n n' : Node} {f f' : Fields}

/-! ## Texts and wanted values -/

theorem refines_orFail {w w' : Wanted α} (h : w = .failed ∨ w = w') (d : α) :
    Refines Eq (w.orFail d) (w'.orFail d) := by
  rcases h with rfl | rfl
  · exact .error _ _
  · exact .refl _

theorem SeesThrough.value_eq (hsees : A.SeesThrough root) (h : A.Related root k .text n n') :
    n.value = n'.value := by
  have hn : n.isAlias = false := by
    cases n with
    | «alias» => exact absurd h.stands hsees.text
    | _ => rfl
  exact congrArg ByteText.shown (h.expands.text_eq hn)

/-! ## Literals -/

/-- The tag of a literal is that of its expansion. -/
theorem SeesThrough.ownTag?_eq {fuel : Nat} {tag : Tag} (hsees : A.SeesThrough root)
    (hstands : A.StandsAt root .literal n) (h : A.Expands n n')
    (htag : A.tagWithin fuel n = .ok (some tag)) : n'.ownTag? = some tag := by
  induction fuel generalizing n with
  | zero => cases htag
  | succ fuel ih =>
    by_cases hn : n.isAlias = false
    · rw [tagWithin_of_isAlias hn] at htag
      exact (h.ownTag?_eq hn).symm.trans (Except.ok.inj htag)
    · cases n with
      | «alias» i s t =>
        obtain ⟨hnone, -⟩ := hsees.literal hstands
        obtain ⟨t, m, rfl, htarget⟩ := h.exists_target
        rw [tagWithin_succ (by simp [Node.tagTarget?, hnone]) htarget] at htag
        exact ih (hstands.target htarget) (h.target htarget) htag
      | _ => exact absurd rfl hn

theorem refines_decodeBool (h : A.Expands n n') : Refines Eq (A.decodeBool n) (B.decodeBool n') :=
  (refines_orFail (h.wanted _) _).mapEq _

theorem refines_decodeNumber (h : A.Expands n n') :
    Refines Eq (A.decodeNumber n) (B.decodeNumber n') :=
  (refines_orFail (h.wanted _) _).mapEq _

theorem refines_decodeScalar (N : Names) (h : A.Expands n n) :
    Refines Eq (A.decodeScalar N n) (B.decodeScalar N n) := by
  rw [decodeScalar, decodeScalar]
  split
  · exact .refl _
  · exact refines_decodeBool h
  · exact refines_decodeNumber h
  · exact refines_decodeNumber h
  · exact .refl _

theorem refines_decodeLiteral (hsees : A.SeesThrough root) (h : A.Related root k .literal n n') :
    Refines Eq (A.decodeLiteral n) (B.decodeLiteral n') := by
  rw [decodeLiteral, decodeLiteral]
  cases htag : A.tag n with
  | error p => exact .error _ _
  | ok tag? =>
    cases tag? with
    | none => exact .error _ _
    | some tag =>
      rw [tag_of_ownTag? (hsees.ownTag?_eq h.stands h.expands htag)]
      cases tag with
      | bool => exact refines_decodeBool h.expands
      | int => exact refines_decodeNumber h.expands
      | float => exact refines_decodeNumber h.expands
      | text =>
        have hn : n.isAlias = false := by
          cases n with
          | «alias» => exact absurd htag (hsees.literal h.stands).2
          | _ => rfl
        dsimp only
        rw [h.expands.text_eq hn]
        exact .refl _
      | _ => exact .error _ _

/-! ## The comparison -/

/-- The members that are read off related entries. -/
theorem refines_named (hf : A.RelatedFields root k .members f f')
    {one one' : String × Node → Outcome Member} (hone : ∀ raw v v', A.Related root k .member v v' →
      Refines (Member.Alike true Eq) (one (raw, v)) (one' (raw, v'))) :
    Refines Eq (decodeEach one f.entries) (decodeEach one' f'.entries) := by
  have heach : Refines (List.Forall₂ (Member.Alike true Eq)) (decodeEach one f.entries)
      (decodeEach one' f'.entries) := by
    refine OutcomeComparison.refining.each hf ?_
    rintro ⟨raw, v⟩ ⟨_, v'⟩ ⟨rfl, hv⟩
    exact hone raw v v' hv
  exact OutcomeComparison.refining.imp heach fun _ _ => eq_of_forall₂ fun _ _ => Member.Alike.eq

/-- A document and its expansion side by side. -/
def expansion (B : Anchors) (hsees : A.SeesThrough root) (k : Nat) : A.Comparison B where
  toOutcomeComparison := .refining
  toTypeComparison := .equal
  Nodes := A.Related root k
  Entries := A.RelatedFields root k
  bare {_ n _} h := by
    cases n with
    | «alias» i s t => exact .inr ⟨⟨i, s, t, rfl⟩, fun _ => .error⟩
    | _ => exact .inl (h.expands.bare_eq rfl)
  value h := ⟨h.stands.value, h.expands, h.depth_le⟩
  text h := hsees.value_eq h
  literal h := refines_decodeLiteral hsees h
  flag h := refines_orFail (h.expands.wanted _) _
  texts h := refines_orFail h.expands.wantedTexts _
  items h := refines_items h.succ
  itemsOf key h := refines_itemsOf key h
  fields h := refines_fields h.succ
  get? hf key := hf.get? key
  single hf := hf.single
  named hf hone := refines_named hf hone
  source source hN := hN.eq ▸ .refl _

/-! ## Members that are aliases -/

/-- Behind an alias of a member there is a type and no method. -/
theorem LeadsTo.member {x : Node} (h : A.LeadsTo n x) (hn : n.isAlias = true)
    (hx : x.isAlias = false) (hsees : A.SeesThrough root) (hstands : A.StandsAt root .member n) :
    x.isNullScalar = false ∧ x.hasMethod = false := by
  induction h with
  | refl => simp [hn] at hx
  | @step i s t m x htarget h ih =>
    cases hm : m.isAlias with
    | true => exact ih hm hx (hstands.target htarget)
    | false =>
      obtain rfl := h.eq_of_isAlias hm
      exact hsees.member hstands htarget

theorem fields_of_decodeWithin {fuel : Nat} {expanding : List Nat} {N : Names} {i : Info}
    {es : List (Node × Node)} {t : Ty}
    (h : A.decodeWithin fuel expanding N (.mapping i es) = .ok t) :
    ∃ f, A.fields (.mapping i es) = .ok f := by
  cases fuel with
  | zero => cases h
  | succ fuel =>
    rw [decodeWithin, decodeMapping] at h
    cases hf : A.fields (.mapping i es) with
    | error p =>
      rw [hf] at h
      cases h
    | ok f => exact ⟨f, rfl⟩

/-- A mapping that is a type has fields. -/
theorem methodNode?_eq_none {fuel : Nat} {expanding : List Nat} {N : Names} {t : Ty}
    (ht : A.decodeWithin fuel expanding N n = .ok t) (hn : n.hasMethod = false) :
    A.methodNode? n = .ok none := by
  cases n with
  | mapping i es =>
    obtain ⟨f, hf⟩ := fields_of_decodeWithin ht
    have hnone : f.get? "method" = none := get?_eq_none_of_fields hf hn
    rw [methodNode?, hf]
    exact congrArg Except.ok hnone
  | _ => rfl

theorem decodeMember_property {ask : Ask} {N : Names} {raw : String}
    (hmethod : A.methodNode? n = .ok none) (hnull : n.isNullScalar = false) :
    A.decodeMember ask N raw n = (ask N n).map fun t => let form := MemberForm.read raw
      .property form.key t form.isOptional form.isReadonly := by
  simp only [decodeMember, hmethod, hnull, bind, Except.bind, Bool.false_eq_true, if_false]
  cases ask N n <;> rfl

/-- A member that is an alias is a property with the type of its target. -/
theorem refines_decodeMember_alias {ask : Ask} {fuel : Nat} {N : Names} {i : Info} {s : String}
    {t : Option Nat} (hsees : A.SeesThrough root)
    (hask : Refines Eq (ask N (.alias i s t)) (B.decodeWithin fuel [] N n'))
    (raw : String) (h : A.Related root k .member (.alias i s t) n') :
    Refines (Member.Alike true Eq) (A.decodeMember ask N raw (.alias i s t))
      (B.decodeMember (B.decodeWithin fuel []) N raw n') := by
  obtain ⟨x, hlead, hexpands, hx⟩ := h.expands.leadsTo
  obtain ⟨hnull, hmethod⟩ := hlead.member rfl hx hsees h.stands
  have hnull' : n'.isNullScalar = false := (hexpands.isNullScalar_eq hx).symm.trans hnull
  rw [decodeMember_property rfl rfl]
  cases ht : ask N (.alias i s t) with
  | error p => exact .error _ _
  | ok u =>
    obtain ⟨_, ht', rfl⟩ := hask u ht
    have hmethod' := methodNode?_eq_none ht' ((hexpands.hasMethod_eq hx).symm.trans hmethod)
    rw [decodeMember_property hmethod' hnull', ht']
    exact .ok (.property rfl rfl)

/-! ## The recursion -/

theorem depth_pos (n : Node) : 0 < n.depth := by cases n <;> simp [Node.depth]

/-- What a node decodes to, its expansion decodes to as well. -/
theorem refines_decodeWithin (hsees : A.SeesThrough root) (fuel : Nat)
    (expanding : List Nat) (N : Names) (h : A.Related root k .type n n') :
    Refines Eq (A.decodeWithin fuel expanding N n) (B.decodeWithin k [] N n') := by
  induction fuel generalizing k expanding N n n' with
  | zero => exact .error _ _
  | succ fuel ih =>
    cases k with
    | zero => exact absurd h.depth_le (Nat.not_le.2 (depth_pos n'))
    | succ k =>
      let C := expansion B hsees k
      have hN : Names.Related Eq N N := .refl (fun _ => rfl) N
      have hask : C.Answers (A.decodeWithin fuel expanding) (B.decodeWithin k []) := by
        constructor
        · intro N N' n n' hN hn
          exact Names.Related.eq hN ▸ ih expanding N hn
        · intro N N' i s t n' raw hN hn _
          obtain rfl := Names.Related.eq hN
          exact refines_decodeMember_alias hsees (ih expanding N (C.value hn)) raw hn
      cases n with
      | scalar i s =>
        have hexpands := h.expands
        rw [h.expands.scalar_inv] at hexpands ⊢
        exact refines_decodeScalar N hexpands
      | sequence i ns =>
        obtain ⟨ns', rfl, _⟩ := h.expands.sequence_inv
        exact C.map (C.decodeList hask hN (refines_items h)) fun _ _ => C.tuple
      | mapping i es =>
        obtain ⟨es', rfl, _⟩ := h.expands.mapping_inv
        exact C.decodeMapping hask hN rfl (refines_fields h)
      | unknown => exact .error _ _
      | document i cs =>
        obtain ⟨cs', rfl, hcs⟩ := h.expands.document_inv
        have hdepth := h.depth_le
        rw [Node.depth] at hdepth
        have hrelated :=
          related_items (fun c hc => h.stands.child hc) hcs (Nat.le_of_succ_le_succ hdepth)
        cases hrelated with
        | nil => exact .error _ _
        | cons hc _ =>
          rw [decodeWithin, decodeWithin]
          exact ih expanding N hc
      | «alias» i s t =>
        cases t with
        | none => exact .error _ _
        | some t =>
          simp only [decodeWithin]
          split
          · exact .error _ _
          · split
            · next m htarget =>
              exact ih _ N ⟨h.stands.target htarget, h.expands.target htarget, h.depth_le⟩
            · exact .error _ _

theorem depth_le_decodeFuel (n : Node) : n.depth ≤ A.decodeFuel n := by
  calc n.depth ≤ max n.depth (Node.depths A) + 1 := Nat.le_succ_of_le (Nat.le_max_left _ _)
    _ ≤ A.decodeFuel n := Nat.le_mul_of_pos_left _ A.length.succ_pos

/-- A document and its expansion decode to the same type, provided that its aliases are
acyclic and none stands where its own form is looked at. -/
theorem decode_expanded {N : Names} {t : Ty} (hacyclic : A.Acyclic root)
    (hsees : A.SeesThrough root) (h : A.decode N root = .ok t) :
    (∃ n, A.Expands root n) ∧ ∀ n, A.Expands root n → ∀ B : Anchors, B.decode N n = .ok t := by
  refine ⟨hacyclic.exists_expands, fun n hn B => ?_⟩
  have hrelated : A.Related root (B.decodeFuel n) .type root n := ⟨.root, hn, depth_le_decodeFuel n⟩
  obtain ⟨_, hdecode, rfl⟩ := refines_decodeWithin hsees _ [] N hrelated t h
  exact hdecode

/-- A mapping with one key. -/
def keyed (i : Info) (key : String) (v : Node) : Node := .mapping i [(.scalar {} key, v)]

/-- An anchored truth value. -/
def flag : Node := .scalar { anchor := "b" } "true"

/-- An anchored literal that is an alias of the truth value. -/
def flagged : Node := keyed { anchor := "a" } "literal" (.alias {} "b" (some 0))

/-- The literal of the truth value, the one behind an alias, and an alias of that. -/
def flags : List Node := [keyed {} "literal" flag, flagged, .alias {} "a" (some 1)]

theorem standsAt_flags {r : Role} {n : Node}
    (h : StandsAt [flag, flagged] (keyed {} "tuple" (.sequence {} flags)) r n) :
    (r = .type ∧ n ∈ keyed {} "tuple" (.sequence {} flags) :: .sequence {} flags :: flags) ∨
      (r = .literal ∧ n ∈ [flag, .alias {} "b" (some 0)]) := by
  induction h with
  | root => exact .inl ⟨rfl, .head _⟩
  | child h hc ih => simp [flags, flagged, keyed, flag] at ih
  | item h hn ih =>
    obtain ⟨rfl, -, rfl⟩ : _ = Role.type ∧ _ = ({} : Info) ∧ _ = flags := by
      simpa [flags, flagged, keyed, flag] using ih
    exact .inl ⟨rfl, .tail _ (.tail _ hn)⟩
  | entry h he ih =>
    simp only [flags, flagged, keyed, flag, List.mem_cons, Node.mapping.injEq,
      reduceCtorEq, false_or, or_false, List.not_mem_nil, and_false] at ih
    obtain ⟨rfl, ⟨-, rfl⟩ | ⟨-, rfl⟩ | ⟨-, rfl⟩⟩ := ih <;> obtain rfl := List.mem_singleton.1 he
    · exact .inl ⟨rfl, .tail _ (.head _)⟩
    · exact .inr ⟨rfl, .head _⟩
    · exact .inr ⟨rfl, .tail _ (.head _)⟩
  | target h htarget ih =>
    simp only [flags, flagged, keyed, flag, List.mem_cons, Node.alias.injEq, reduceCtorEq, false_or,
      or_false, List.not_mem_nil, Option.some.injEq] at ih
    obtain ⟨rfl, -, -, rfl⟩ | ⟨rfl, -, -, rfl⟩ := ih
    · cases htarget
      exact .inl ⟨rfl, .tail _ (.tail _ (.tail _ (.head _)))⟩
    · cases htarget
      exact .inr ⟨rfl, .head _⟩
  | value h ih => simp at ih

theorem seesThrough_flags :
    SeesThrough [flag, flagged] (keyed {} "tuple" (.sequence {} flags)) where
  text h := by simpa using standsAt_flags h
  literal := by
    intro i s t h
    obtain ⟨hrole, -⟩ | ⟨-, hmem⟩ := standsAt_flags h
    · cases hrole
    · obtain ⟨rfl, rfl, rfl⟩ : i = {} ∧ s = "b" ∧ t = some 0 := by simpa [flag] using hmem
      have htag : tag [flag, flagged] (.alias {} "b" (some 0)) = .ok (some .bool) := rfl
      exact ⟨rfl, by simp [htag]⟩
  member h := by simpa using standsAt_flags h

theorem lt_of_refers_flags {t u : Nat} (h : Refers [flag, flagged] t u) : u < t := by
  obtain ⟨n, hn, hu⟩ := h
  match t with
  | 0 =>
    cases hn
    cases hu
  | 1 =>
    cases hn
    obtain rfl : u = 0 := by
      simpa [flagged, keyed, Node.targets, Node.entryTargetsOf, Node.entryTargets] using hu
    exact Nat.one_pos

theorem acyclic_flags : Acyclic [flag, flagged] (keyed {} "tuple" (.sequence {} flags)) where
  linked := by
    simp [keyed, flags, flag, flagged, Node.targets, Node.targetsOf, Node.entryTargetsOf,
      Node.entryTargets]
  acyclic t h := by
    have hlt : Relation.TransGen (fun t u : Nat => u < t) t t :=
      Relation.TransGen.mono (fun _ _ => lt_of_refers_flags) t t h
    rw [Relation.transGen_eq_self] at hlt
    exact Nat.lt_irrefl t hlt

/-- A chain of two aliases in a document of three equal literals. -/
theorem decode_expanded_flags :
    let A : Anchors := [flag, flagged]
    let root := keyed {} "tuple" (.sequence {} flags)
    let t := Ty.tuple [.literal (.bool true), .literal (.bool true), .literal (.bool true)]
    A.Acyclic root ∧ A.SeesThrough root ∧ A.decode {} root = .ok t ∧
      (∃ n, A.Expands root n) ∧ ∀ n, A.Expands root n → ∀ B : Anchors, B.decode {} n = .ok t :=
  ⟨acyclic_flags, seesThrough_flags, rfl, decode_expanded acyclic_flags seesThrough_flags rfl⟩

/-- An anchored text. -/
def word : Node := .scalar { anchor := "a" } "foo"

/-- The literal of the text and another one. -/
def wordAnd (n : Node) : Node :=
  keyed {} "tuple" (.sequence {} [keyed {} "literal" word, keyed {} "literal" n])

theorem not_refers_word {t u : Nat} : ¬ Refers [word] t u := by
  rintro ⟨n, hn, hu⟩
  obtain rfl : n = word := List.mem_singleton.1 (List.mem_of_getElem? hn)
  cases hu

/-- A literal that is an alias of a text is read as the name of the alias.  In the expansion
it is the text. -/
theorem decode_text_alias :
    let aliased := wordAnd (.alias {} "a" (some 0))
    Acyclic [word] aliased ∧ Expands [word] aliased (wordAnd word) ∧
      decode [word] {} aliased = .ok (.tuple [.literal (.string "foo"), .literal (.string "a")]) ∧
      decode [word] {} (wordAnd word) =
        .ok (.tuple [.literal (.string "foo"), .literal (.string "foo")]) := by
  refine ⟨⟨?_, ?_⟩, ?_, rfl, rfl⟩
  · simp [wordAnd, word, keyed, Node.targets, Node.targetsOf, Node.entryTargetsOf,
      Node.entryTargets]
  · intro t h
    obtain ⟨u, hu, -⟩ := Relation.TransGen.head'_iff.1 h
    exact not_refers_word hu
  · have hword : Expands [word] word word := .scalar (.refl _)
    have halias : Expands [word] (.alias {} "a" (some 0)) word := .of_target rfl hword
    have hkeyed {n n' : Node} (key : String) (h : Expands [word] n n') :
        Expands [word] (keyed {} key n) (keyed {} key n') := .mapping (.refl _) rfl (.cons h .nil)
    exact hkeyed "tuple" (.sequence (.refl _)
      (.cons (hkeyed "literal" hword) (.cons (hkeyed "literal" halias) .nil)))

end Anchors

end StructuralTyping.Yaml
