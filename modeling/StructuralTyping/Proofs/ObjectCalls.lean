import Mathlib.Data.List.Induction
import StructuralTyping.Proofs.Session
import StructuralTyping.Ty.Build

/-!
# Calls of the members of an object literal

An object literal has one property for each key, in the order in which the keys occur first, and
a property has the type of the last entry with its key.  A call of a member finds the property
with its key, and resolves to a call of that type (`Checker.call_of_object_eq_extract`).

The keys of entries and the keys of accesses are normalized in different places.  They come to
the same, since the key of an index is that of a computed entry (`accessKey_eq_propKey`), and the
name after a dot is the key of an entry that is written as an identifier.
-/

namespace StructuralTyping

namespace Checker

/-! ## Properties that are set in order -/

/-- The properties that are left when all are set in order. -/
def properties (zs : List (PropKey × Ty)) : List (PropKey × Ty) :=
  zs.foldl (fun ps z => setProperty z.1 z.2 ps) []

theorem properties_append_singleton (zs : List (PropKey × Ty)) (z : PropKey × Ty) :
    properties (zs ++ [z]) = setProperty z.1 z.2 (properties zs) :=
  List.foldl_append

theorem keys_setProperty (key : PropKey) (t : Ty) (ps : List (PropKey × Ty)) :
    (setProperty key t ps).map (·.1) =
      if key ∈ ps.map (·.1) then ps.map (·.1) else ps.map (·.1) ++ [key] := by
  induction ps with
  | nil => rfl
  | cons p ps ih =>
    obtain ⟨k, u⟩ := p
    rw [setProperty]
    by_cases hk : k = key
    · simp [hk]
    · rw [if_neg (by simpa using hk), List.map_cons, List.map_cons, ih, apply_ite (List.cons k)]
      simp only [List.mem_cons, Ne.symm hk, false_or, List.cons_append]

/-- A property that is set is found before the properties that were there. -/
theorem lookup_setProperty (key : PropKey) (t : Ty) (ps : List (PropKey × Ty)) (k : PropKey) :
    (setProperty key t ps).lookup k = ((key, t) :: ps).lookup k := by
  induction ps with
  | nil => rfl
  | cons p ps ih =>
    obtain ⟨l, u⟩ := p
    rw [setProperty]
    by_cases hl : l = key
    · subst hl
      rw [if_pos (beq_self_eq_true l), List.lookup_cons, List.lookup_cons, List.lookup_cons]
      cases k == l <;> rfl
    · rw [if_neg (by simpa using hl), List.lookup_cons, ih, List.lookup_cons, List.lookup_cons,
        List.lookup_cons]
      by_cases hk : k = l
      · subst hk
        rw [beq_self_eq_true, beq_false_of_ne hl]
      · rw [beq_false_of_ne hk]

/-- Each key is kept once, where it occurs first. -/
theorem keys_properties (zs : List (PropKey × Ty)) :
    (properties zs).map (·.1) = (zs.map (·.1)).eraseDups := by
  induction zs using List.reverseRecOn with
  | nil => rfl
  | append_singleton zs z ih =>
    rw [properties_append_singleton, keys_setProperty, ih, List.map_append, List.eraseDups_append]
    rw [List.map_singleton, List.cons_removeAll, List.nil_removeAll]
    by_cases hz : z.1 ∈ zs.map (·.1)
    · rw [if_pos (List.mem_eraseDups.2 hz), if_neg (by simpa using hz), List.eraseDups_nil,
        List.append_nil]
    · rw [if_neg (mt List.mem_eraseDups.1 hz), if_pos (by simpa using hz)]
      rfl

/-- The last type of a key counts. -/
theorem lookup_properties (zs : List (PropKey × Ty)) (key : PropKey) :
    (properties zs).lookup key = zs.reverse.lookup key := by
  induction zs using List.reverseRecOn with
  | nil => rfl
  | append_singleton zs z ih =>
    rw [properties_append_singleton, lookup_setProperty, List.reverse_append, List.lookup_cons, ih]
    rfl

/-! ## The type of an object literal -/

/-- The object type with the given properties. -/
def shape (ps : List (PropKey × Ty)) : Ty := .object (ps.map fun p => .property p.1 p.2 false false)

/-- An entry has a normalized key and a type. -/
structure EntryInfers (C : Checker) (levels : Nat) (e : ObjectEntry) (z : PropKey × Ty) : Prop where
  isMissing_key : e.key.isMissing = false
  key : propKey C.decls e.key e.computed = .ok z.1
  type : (C.answer levels (.typeOf e.value)).outcome = .ok z.2

section Literal

variable {C : Checker} {levels : Nat} {entries : List ObjectEntry} {zs : List (PropKey × Ty)}

theorem outcome_entryTypes (h : List.Forall₂ (C.EntryInfers levels) entries zs) (span : Span)
    (kept : List (PropKey × Ty)) :
    (C.entryTypes span kept entries).outcome (C.answer levels) C.assignment =
      .ok (zs.foldl (fun ps z => setProperty z.1 z.2 ps) kept) := by
  induction h generalizing kept with
  | nil => rfl
  | @cons e z entries zs he _ ih =>
    have htype : (Inference.ask (.typeOf e.value)).outcome (C.answer levels) C.assignment =
        .ok z.2 := he.type
    rw [entryTypes, if_neg (by simp [he.isMissing_key]), he.key, Inference.outcome_bind]
    change (_ >>= _ : Inference _).outcome _ _ = _
    rw [Inference.outcome_bind, htype]
    exact ih _

theorem outcome_typeOf_object (h : List.Forall₂ (C.EntryInfers levels) entries zs) (place : Span) :
    (C.answer (levels + 1) (.typeOf ⟨place, .object entries⟩)).outcome =
      .ok (shape (properties zs)) := by
  rw [outcome_answer_typeOf levels rfl]
  change (C.objectType place entries).outcome _ _ = _
  rw [objectType, Inference.outcome_bind, outcome_entryTypes h]
  rfl

end Literal

/-! ## Calls of a member -/

/-- The member with a key is the first property with it. -/
theorem candidates_shape (ps : List (PropKey × Ty)) (key : PropKey) :
    candidates (findMembers (ps.map fun p => .property p.1 p.2 false false) key) =
      match ps.lookup key with
      | some t => .property t
      | none => .methods [] := by
  induction ps with
  | nil => rfl
  | cons p ps ih =>
    obtain ⟨k, t⟩ := p
    rw [findMembers] at ih ⊢
    rw [List.lookup_cons, List.map_cons, List.filter_cons]
    by_cases hk : k = key
    · simp [Member.key?, hk, candidates]
    · rw [if_neg (by simpa [Member.key?] using hk), ih, beq_false_of_ne (Ne.symm hk)]

/-- A property of an object type is called as a value of its type is, where a level is left for
it. -/
theorem outcome_extractMember_shape (C : Checker) {levels : Nat} {ps : List (PropKey × Ty)}
    {key : PropKey} (hlevels : (ps.lookup key).isSome = true → 0 < levels) (site : CallSite) :
    (C.answer (levels + 1) (.extractMember (shape ps) key site)).outcome =
      match ps.lookup key with
      | some t => (C.answer levels (.extract t site)).outcome
      | none => .error (noSignature site (memberCallee (shape ps) key)) := by
  change (C.extractMemberStep (shape ps) key site).outcome (C.answer levels) C.assignment = _
  have hmembers : C.decls.allMembers? (shape ps) = some _ := Decls.allMembers?_of_object rfl
  simp only [extractMemberStep, hmembers, candidates_shape]
  cases hlookup : ps.lookup key with
  | none => cases site.isNew <;> rfl
  | some t =>
    -- A missing type is `any` to both sides, but the call needs a level to find that out.
    obtain ⟨rest, rfl⟩ := Nat.exists_eq_succ_of_ne_zero (hlevels (hlookup ▸ rfl)).ne'
    cases t <;> rfl

section Callee

variable {C : Checker} {levels : Nat} {o i : Expr} {t : Ty} {key : PropKey}
  (ho : (Inference.ask (.typeOf o)).outcome (C.answer levels) C.assignment = .ok t)
  (place : Span) (site : CallSite)
include ho

/-- A call of a name after a dot goes on from the type of the object. -/
theorem outcome_callType_member (hsuper : o.node ≠ .super) (name : String) :
    (C.callType ⟨place, .member o name⟩ site).outcome (C.answer levels) C.assignment =
      (C.answer levels (.extractMember t ⟨name, false⟩ site)).outcome := by
  have hcallee : C.callType ⟨place, .member o name⟩ site =
      Inference.ask (.typeOf o) >>= fun t => .ask (.extractMember t ⟨name, false⟩ site) := by
    obtain ⟨span, node⟩ := o
    cases node with
    | super => exact absurd rfl hsuper
    | _ => rfl
  rw [hcallee, Inference.outcome_bind, ho]
  rfl

/-- A call of an index goes on from the type of the object, too, with the key of a computed
entry. -/
theorem outcome_callType_index (hkey : propKey C.decls i true = .ok key) :
    (C.callType ⟨place, .index o i⟩ site).outcome (C.answer levels) C.assignment =
      (C.answer levels (.extractMember t key site)).outcome := by
  have hcallee : C.callType ⟨place, .index o i⟩ site =
      Inference.ask (.typeOf o) >>= fun t => .ask (.extractMember t key site) := by
    change (Inference.ask (.typeOf o) >>= fun t =>
      Inference.ofExcept (accessKey C.decls i) >>= _ : Inference Ty) = _
    rw [accessKey_eq_propKey, hkey]
    rfl
  rw [hcallee, Inference.outcome_bind, ho]
  rfl

end Callee

/-- Each computed key is a key. -/
theorem exists_propKey_computed (D : Decls) (i : Expr) : ∃ key, propKey D i true = .ok key := by
  obtain ⟨span, node⟩ := i
  cases node <;> exact ⟨_, rfl⟩

/-- A call of a member resolves to a call of the type of the last entry with its key, and to a
failure if no entry has the key.  The arguments may be any. -/
def CallsLast (C : Checker) (levels : Nat) (zs : List (PropKey × Ty)) (object : Ty) (callee : Expr)
    (key : PropKey) : Prop :=
  ∀ (typeArgs : List Ty) (args : List Expr) (span : Span),
    (C.answer (levels + 2) (.typeOf ⟨span, .call callee typeArgs args⟩)).outcome =
      match zs.reverse.lookup key with
      | some t => (C.answer levels (.extract t ⟨false, args, typeArgs, span⟩)).outcome
      | none => .error (.noCallSignature span (memberCallee object key))

section Call

variable {C : Checker} {levels : Nat} {entries : List ObjectEntry} {zs : List (PropKey × Ty)}

/-- Entries with types leave a level. -/
theorem levels_pos (h : List.Forall₂ (C.EntryInfers levels) entries zs) {key : PropKey}
    (hkey : (zs.reverse.lookup key).isSome = true) : 0 < levels := by
  cases h with
  | nil => cases hkey
  | cons he _ =>
    cases levels with
    | zero => cases he.type
    | succ levels => exact Nat.succ_pos levels

theorem callsLast_of_callType (h : List.Forall₂ (C.EntryInfers levels) entries zs) {callee : Expr}
    {key : PropKey}
    (hcallee : ∀ site : CallSite,
      (C.callType callee site).outcome (C.answer (levels + 1)) C.assignment =
      (C.answer (levels + 1) (.extractMember (shape (properties zs)) key site)).outcome) :
    C.CallsLast levels zs (shape (properties zs)) callee key := by
  intro typeArgs args span
  have hlookup : (properties zs).lookup key = zs.reverse.lookup key := lookup_properties zs key
  rw [outcome_answer_typeOf (levels + 1) rfl]
  change (C.callType callee ⟨false, args, typeArgs, span⟩).outcome _ _ = _
  rw [hcallee, outcome_extractMember_shape C (fun hkey => levels_pos h (hlookup ▸ hkey)), hlookup]
  rfl

/-- An object literal has one property for each key, in the order in which the keys occur first,
with the type of the last entry that has the key.  A call of one of its members resolves to a call
of that type, whether the member is named after a dot or by an index.  A key that no entry has
is no member to call. -/
theorem call_of_object_eq_extract (h : List.Forall₂ (C.EntryInfers levels) entries zs)
    (place : Span) : ∃ ps : List (PropKey × Ty),
      (C.answer (levels + 1) (.typeOf ⟨place, .object entries⟩)).outcome = .ok (shape ps) ∧
      ps.map (·.1) = (zs.map (·.1)).eraseDups ∧
      (∀ key, ps.lookup key = zs.reverse.lookup key) ∧
      (∀ span name,
        C.CallsLast levels zs (shape ps) ⟨span, .member ⟨place, .object entries⟩ name⟩
          ⟨name, false⟩) ∧
      ∀ span i, ∃ key, propKey C.decls i true = .ok key ∧
        C.CallsLast levels zs (shape ps) ⟨span, .index ⟨place, .object entries⟩ i⟩ key := by
  have htype := outcome_typeOf_object h place
  refine ⟨properties zs, htype, keys_properties zs, lookup_properties zs, fun span name => ?_,
    fun span i => ?_⟩
  · exact callsLast_of_callType h fun site => outcome_callType_member htype span site nofun name
  · obtain ⟨key, hkey⟩ := exists_propKey_computed C.decls i
    exact ⟨key, hkey, callsLast_of_callType h fun site =>
      outcome_callType_index htype span site hkey⟩

/-- The keys are written in every way, and one of them twice. -/
theorem call_of_object_eq_extract_spellings :
    let returns (t : Ty) : Ty := .function (.mk [] [] t)
    let C : Checker :=
      { scope := (((Environment.define {} "text" (returns .string)).define "count"
        (returns .number)).define
          "flag" (returns .boolean)).scope }
    let entry (key : ExprNode) (computed : Bool) (value : String) : ObjectEntry :=
      ⟨⟨{}, key⟩, ⟨{}, .ident value⟩, computed, false⟩
    let entries : List ObjectEntry :=
      [entry (.ident "a") false "text", entry (.ident "k") true "flag",
        entry (.number (.finite false 1 0)) false "text", entry (.string "a") true "count"]
    let zs : List (PropKey × Ty) :=
      [(⟨"a", false⟩, returns .string), (⟨"k", true⟩, returns .boolean),
        (⟨"1", false⟩, returns .string), (⟨"a", false⟩, returns .number)]
    let object : Expr := ⟨{}, .object entries⟩
    let called (callee : ExprNode) : Except Diagnostic Ty :=
      (C.answer 3 (.typeOf ⟨{}, .call ⟨{}, callee⟩ [] []⟩)).outcome
    List.Forall₂ (C.EntryInfers 1) entries zs ∧
      ∃ ps, (C.answer 2 (.typeOf object)).outcome = .ok (shape ps) ∧
        ps.map (·.1) = [⟨"a", false⟩, ⟨"k", true⟩, ⟨"1", false⟩] ∧
        called (.member object "a") = .ok .number ∧
        called (.index object ⟨{}, .string "a"⟩) = .ok .number ∧
        called (.index object ⟨{}, .number (.finite false 1 0)⟩) = .ok .string ∧
        called (.index object ⟨{}, .ident "k"⟩) = .ok .boolean ∧
        called (.member object "k") =
          .error (.noCallSignature {} (memberCallee (shape ps) ⟨"k", false⟩)) := by
  intro returns C entry entries zs object called
  have hentries : List.Forall₂ (C.EntryInfers 1) entries zs :=
    .cons ⟨rfl, rfl, rfl⟩
      (.cons ⟨rfl, rfl, rfl⟩ (.cons ⟨rfl, rfl, rfl⟩ (.cons ⟨rfl, rfl, rfl⟩ .nil)))
  obtain ⟨ps, htype, hkeys, -, hmember, hindex⟩ := call_of_object_eq_extract hentries {}
  have hcalled (i : Expr) (key : PropKey) (hkey : propKey C.decls i true = .ok key) :
      C.CallsLast 1 zs (shape ps) ⟨{}, .index object i⟩ key := by
    obtain ⟨found, hfound, hcalls⟩ := hindex {} i
    exact Except.ok.inj (hkey.symm.trans hfound) ▸ hcalls
  exact ⟨hentries, ps, htype, hkeys, hmember {} "a" [] [] {}, hcalled _ ⟨"a", false⟩ rfl [] [] {},
    hcalled _ ⟨"1", false⟩ rfl [] [] {}, hcalled _ ⟨"k", true⟩ rfl [] [] {},
    hmember {} "k" [] [] {}⟩

end Call

end Checker

end StructuralTyping
