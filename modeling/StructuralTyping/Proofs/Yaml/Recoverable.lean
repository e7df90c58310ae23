import StructuralTyping.Proofs.Yaml.Marks

/-!
# Types that a document gives back

`Ty.Writable` asks of a name that it does not look like a name with marks, and of a type
parameter that its name is not fixed.  That is more than reading back needs.  A key that
came out of a document may look so and is still read as it was, and a fixed name may be
hidden where it is not written.  `Ty.Recoverable` asks of the written key itself that it is
read as the form of its member, of a scope that its type parameters hide nothing that is
written inside, and of all else what `Ty.Writable` asks.
-/

namespace StructuralTyping

open Yaml (memberKey)
open Yaml.Anchors (MemberForm)
open TypeSource (Names)

/-! ## All layers -/

/-- The property holds of the type and, at every depth, of the parts that are there. -/
inductive Ty.Everywhere (P : Ty → Prop) : Ty → Prop where
  | intro {t : Ty} (hlayer : P t)
      (hparts : ∀ x ∈ t.parts, x.isMissing = false → x.Everywhere P) : t.Everywhere P

namespace Ty.Everywhere

variable {P Q R : Ty → Prop} {t x : Ty}

theorem layer : t.Everywhere P → P t
  | .intro hlayer _ => hlayer

theorem part : t.Everywhere P → x ∈ t.parts → x.isMissing = false → x.Everywhere P
  | .intro _ hparts, hx, hmissing => hparts x hx hmissing

/-- A leaf has no layer but its own. -/
theorem leaf (hlayer : P t) (hparts : t.parts = []) : t.Everywhere P :=
  .intro hlayer fun x hx => by rw [hparts] at hx; cases hx

/-- What follows from two properties in each layer follows from them everywhere. -/
theorem imp₂ (h : ∀ t, P t → Q t → R t) (hP : t.Everywhere P) (hQ : t.Everywhere Q) :
    t.Everywhere R := by
  induction hP with
  | intro hlayer _ ih =>
    exact .intro (h _ hlayer hQ.layer) fun x hx hmissing => ih x hx hmissing (hQ.part hx hmissing)

end Ty.Everywhere

/-! ## Fixed names that are written -/

/-- The fixed name that a type is written by. -/
def Ty.fixedName? : Ty → Option String
  | .keyword k => some k.text
  | .this => some "this"
  | .regExp => some "RegExp"
  | _ => none

/-- The fixed name is written somewhere in the node of the type. -/
inductive Ty.Writes (name : String) : Ty → Prop where
  | here {t : Ty} (hfixed : name ∈ fixedNames) (h : t.fixedName? = some name) : t.Writes name
  | inside {t x : Ty} (hx : x ∈ t.parts) (h : x.Writes name) : t.Writes name

theorem Ty.Writes.mem_fixedNames {name : String} {t : Ty} (h : t.Writes name) :
    name ∈ fixedNames := by
  induction h with
  | here hfixed _ => exact hfixed
  | inside _ _ ih => exact ih

/-- No type parameter in scope hides a name that is written in the type. -/
def TypeSource.Names.Spares (N : Names) (t : Ty) : Prop :=
  ∀ name, t.Writes name → N.typeParam? name = none

namespace TypeSource.Names

variable {N : Names} {t x : Ty}

theorem LeavesFixed.spares (h : N.LeavesFixed) (t : Ty) : N.Spares t :=
  fun name hwrites => h name hwrites.mem_fixedNames

theorem Spares.part (h : N.Spares t) (hx : x ∈ t.parts) : N.Spares x :=
  fun name hwrites => h name (.inside hx hwrites)

/-- Entering a scope hides nothing in a type that writes none of its names. -/
theorem Spares.enter (h : N.Spares t) {ts : List TypeParam} (hts : ∀ u ∈ ts, ¬ t.Writes u.name) :
    (N.enter ts).Spares t := by
  intro name hwrites
  have hscope : (scopeOf ts).lookup name = none := by
    refine List.lookup_eq_none_iff.2 fun p hp => ?_
    obtain ⟨u, hu, rfl⟩ := List.mem_map.1 (List.mem_reverse.1 hp)
    exact bne_iff_ne.2 fun (heq : name = u.name) => hts u hu (heq ▸ hwrites)
  simp only [typeParam?, Names.enter, List.findSome?_cons, hscope]
  exact h name hwrites

end TypeSource.Names

/-- The type parameters hide no name that is written in the bounds after them or in the
types of their scope. -/
structure TypeParam.HideNothing (ts : List TypeParam) (inside : List Ty) : Prop where
  bounds : ts.Pairwise fun t u => ¬ u.bound.Writes t.name
  inside : ∀ t ∈ ts, ∀ x ∈ inside, ¬ x.Writes t.name

/-- The type parameters have names, and they hide nothing. -/
structure TypeParam.Scoped (ts : List TypeParam) (inside : List Ty) : Prop
    extends TypeParam.HideNothing ts inside where
  named : ∀ t ∈ ts, t.name ≠ ""

/-- Names that are not fixed hide nothing. -/
theorem TypeParam.hideNothing_of_free {ts : List TypeParam} (h : ∀ t ∈ ts, t.name ∉ fixedNames)
    (inside : List Ty) : TypeParam.HideNothing ts inside where
  bounds := List.pairwise_of_forall_mem_list fun t ht _ _ hwrites => h t ht hwrites.mem_fixedNames
  inside t ht _ _ hwrites := h t ht hwrites.mem_fixedNames

theorem TypeParam.scoped_of_free {ts : List TypeParam} (h : ∀ t ∈ ts, IsTypeParamName t.name)
    (inside : List Ty) : TypeParam.Scoped ts inside :=
  ⟨TypeParam.hideNothing_of_free (fun t ht => (h t ht).free) inside, fun t ht => (h t ht).nonempty⟩

/-! ## Signatures and members -/

/-- The signature is there with its result, its names have no marks, and its type parameters
are scoped. -/
def Signature.Recoverable : Signature → Prop
  | .absent => False
  | .mk ts ps r =>
    TypeParam.Scoped ts (ps.map (·.type) ++ [r]) ∧ (∀ p ∈ ps, p.pattern.Writable) ∧
      r.isMissing = false

theorem Signature.Writable.recoverable {s : Signature} (h : s.Writable) : s.Recoverable := by
  cases s with
  | absent => cases h
  | mk ts ps r => exact ⟨TypeParam.scoped_of_free h.1 _, h.2⟩

/-- The key stands in a document as it is, and says of itself what the form is. -/
structure ReadsAs (key : String) (form : MemberForm) : Prop where
  trimmed : trimSpace key = key
  read : MemberForm.read key = form

/-- The key that a name with its marks stands for, and whether it is optional. -/
def nameMarks (name : String) : PropKey × Bool :=
  let (inner, isOptional) :=
    match beforeEnding? "?" name with
    | some rest => (rest, true)
    | none => (name, false)
  let key :=
    match (afterBeginning? "[" inner).bind (beforeEnding? "]") with
    | some inner => ⟨inner, true⟩
    | none => ⟨inner, false⟩
  (key, isOptional)

/-- A key is read as the marks of what stands behind the word `readonly`. -/
theorem read_eq_nameMarks (raw : String) :
    MemberForm.read raw =
      match afterBeginning? "readonly " raw with
      | some rest => ⟨(nameMarks (trimSpace rest)).1, (nameMarks (trimSpace rest)).2, true⟩
      | none => ⟨(nameMarks raw).1, (nameMarks raw).2, false⟩ := by
  unfold MemberForm.read nameMarks
  cases afterBeginning? "readonly " raw with
  | none =>
    cases hmark : beforeEnding? "?" raw with
    | none =>
      cases hinner : (afterBeginning? "[" raw).bind (beforeEnding? "]") <;>
        simp only [hmark, hinner]
    | some name =>
      cases hinner : (afterBeginning? "[" name).bind (beforeEnding? "]") <;>
        simp only [hmark, hinner]
  | some rest =>
    cases hmark : beforeEnding? "?" (trimSpace rest) with
    | none =>
      cases hinner : (afterBeginning? "[" (trimSpace rest)).bind (beforeEnding? "]") <;>
        simp only [hmark, hinner]
    | some name =>
      cases hinner : (afterBeginning? "[" name).bind (beforeEnding? "]") <;>
        simp only [hmark, hinner]

/-- Whatever marks are read off a name, it is written with them again. -/
theorem memberKey_nameMarks (name : String) :
    memberKey (nameMarks name).1 (nameMarks name).2 = name := by
  have htext (inner : String) :
      PropKey.text (match (afterBeginning? "[" inner).bind (beforeEnding? "]") with
      | some inner => ⟨inner, true⟩
      | none => ⟨inner, false⟩) = inner := by
    cases hinner : (afterBeginning? "[" inner).bind (beforeEnding? "]") with
    | none => rfl
    | some s =>
      obtain ⟨rest, hrest, hbefore⟩ := Option.bind_eq_some_iff.1 hinner
      rw [eq_append_of_afterBeginning? hrest, eq_append_of_beforeEnding? hbefore]
      simp [PropKey.text, String.append_assoc]
  unfold nameMarks
  cases hmark : beforeEnding? "?" name with
  | none => simp [memberKey, htext]
  | some rest =>
    rw [eq_append_of_beforeEnding? hmark]
    simp [memberKey, htext]

/-- The key of a property as it is written. -/
def propertyKey (k : PropKey) (isOptional isReadonly : Bool) : String :=
  (if isReadonly then "readonly " else "") ++ memberKey k isOptional

section Rewritten

variable {raw : String} {k : PropKey} {isOptional isReadonly : Bool}

/-- The key of a property that was read off a key is read back. -/
theorem ReadsAs.property (h : ReadsAs raw ⟨k, isOptional, isReadonly⟩) :
    ReadsAs (propertyKey k isOptional isReadonly) ⟨k, isOptional, isReadonly⟩ := by
  have hread := h.read
  rw [read_eq_nameMarks] at hread
  cases hword : afterBeginning? "readonly " raw with
  | none =>
    rw [hword] at hread
    obtain ⟨rfl, rfl, rfl⟩ := MemberForm.mk.inj hread
    simpa [propertyKey, memberKey_nameMarks] using h
  | some rest =>
    rw [hword] at hread
    obtain ⟨rfl, rfl, rfl⟩ := MemberForm.mk.inj hread
    obtain rfl := eq_append_of_afterBeginning? hword
    rw [propertyKey, memberKey_nameMarks, if_pos rfl]
    refine ⟨trimSpace_of_trimmed ?_, ?_⟩
    · -- The key does not end in white space, so something stands behind the word.
      have hlast := (h.trimmed ▸ trimmed_trimSpace ("readonly " ++ rest)).2
      have hrest : rest ≠ "" := by
        rintro rfl
        simp [isSpace] at hlast
      rw [String.toList_append, List.getLast?_append_of_ne_nil _ (toList_ne_nil hrest)] at hlast
      exact trimmed_append (by simp) (trimSpace_ne_empty hrest hlast) (by simp [isSpace])
        (trimmed_trimSpace rest).2
    · rw [read_eq_nameMarks, afterBeginning?_append]
      simp only [trimSpace_trimSpace]

/-- The key of a method that was read off a key is read back, unless the word `readonly`
stands in front of it, which would be read as a mark. -/
theorem ReadsAs.method (h : ReadsAs raw ⟨k, isOptional, isReadonly⟩)
    (hword : ¬ "readonly ".toList <+: (memberKey k isOptional).toList) :
    ReadsAs (memberKey k isOptional) ⟨k, isOptional, false⟩ := by
  obtain ⟨name, htrimmed, rfl, rfl⟩ : ∃ name, trimSpace name = name ∧ (nameMarks name).1 = k ∧
      (nameMarks name).2 = isOptional := by
    have hread := h.read
    rw [read_eq_nameMarks] at hread
    cases hraw : afterBeginning? "readonly " raw with
    | none =>
      rw [hraw] at hread
      obtain ⟨hk, ho, -⟩ := MemberForm.mk.inj hread
      exact ⟨raw, h.trimmed, hk, ho⟩
    | some rest =>
      rw [hraw] at hread
      obtain ⟨hk, ho, -⟩ := MemberForm.mk.inj hread
      exact ⟨trimSpace rest, trimSpace_trimSpace rest, hk, ho⟩
  rw [memberKey_nameMarks] at hword ⊢
  exact ⟨htrimmed, by rw [read_eq_nameMarks, afterBeginning?_eq_none hword]⟩

end Rewritten

/-- The member has a key that is read back, and what it needs is there. -/
def Member.Recoverable : Member → Prop
  | .property k _ o r => ReadsAs (propertyKey k o r) ⟨k, o, r⟩
  | .method k o s => ReadsAs (memberKey k o) ⟨k, o, false⟩ ∧ s.Recoverable
  | .call s => s.Recoverable
  | .construct s => s.Recoverable
  | .index _ k t _ => k.isMissing = false ∧ t.isMissing = false

/-- All members are read back, and no two keys are the same. -/
structure RecoverableMembers (ms : List Member) : Prop where
  each : ∀ m ∈ ms, m.Recoverable
  distinct : (ms.filterMap (·.writtenKey?)).Nodup

/-- A key stands in a document as it was written. -/
theorem Member.Recoverable.trimmed {m : Member} {key : String} (h : m.Recoverable)
    (hkey : m.writtenKey? = some key) : trimSpace key = key := by
  cases m with
  | property k t o r =>
    obtain rfl := Option.some.inj hkey
    exact ReadsAs.trimmed h
  | method k o s =>
    obtain rfl := Option.some.inj hkey
    exact h.1.trimmed
  | _ => cases hkey

theorem Member.Writable.recoverable {m : Member} (h : m.Writable) : m.Recoverable := by
  cases m with
  | property k t o r => exact ⟨trimmed_writtenKey h rfl, read_writtenKey h⟩
  | method k o s => exact ⟨⟨trimmed_writtenKey h rfl, read_memberKey h.1⟩, h.2.recoverable⟩
  | call s => exact Signature.Writable.recoverable h
  | construct s => exact Signature.Writable.recoverable h
  | index => exact h

theorem WritableMembers.recoverable {ms : List Member} (h : WritableMembers ms) :
    RecoverableMembers ms where
  each m hm := (h.each m hm).recoverable
  distinct := h.distinct

/-! ## Types -/

/-- The outermost layer is read back. -/
def Ty.RecoverableLayer : Ty → Prop
  | .function s | .ctor s => s.Recoverable
  | .object ms => RecoverableMembers ms
  | .interface _ ts ms bs =>
    TypeParam.Scoped ts (ms.flatMap (·.parts) ++ bs) ∧ RecoverableMembers ms ∧
      ∀ b ∈ bs, b.isMissing = false
  | .classType _ ts ms b =>
    TypeParam.Scoped ts (ms.flatMap (·.parts) ++ [b]) ∧ RecoverableMembers ms
  | t => t.WritableLayer

/-- All layers are read back. -/
def Ty.Recoverable (t : Ty) : Prop := t.Everywhere Ty.RecoverableLayer

theorem Ty.WritableLayer.recoverable {t : Ty} (h : t.WritableLayer) : t.RecoverableLayer := by
  cases t with
  | function s => exact Signature.Writable.recoverable h
  | ctor s => exact Signature.Writable.recoverable h
  | object ms => exact WritableMembers.recoverable h
  | interface name ts ms bs => exact ⟨TypeParam.scoped_of_free h.1 _, h.2.1.recoverable, h.2.2⟩
  | classType name ts ms b => exact ⟨TypeParam.scoped_of_free h.1 _, h.2.recoverable⟩
  | _ => exact h

theorem Ty.Writable.recoverable {t : Ty} (h : t.Writable) : t.Recoverable := by
  induction h with
  | intro hlayer _ ih => exact .intro hlayer.recoverable ih

/-- A type that is read back is a tree. -/
theorem Ty.Recoverable.isTree {t : Ty} (h : t.Recoverable) : t.IsTree := by
  induction h with
  | @intro t hlayer _ ih =>
    refine .intro (by cases t <;> first | rfl | cases hlayer) fun x hx => ?_
    cases hmissing : x.isMissing with
    | true =>
      rw [Decls.eq_missing_of_isMissing hmissing]
      exact .intro rfl fun _ h => nomatch h
    | false => exact ih x hx hmissing

/-- A type that can be written is a tree. -/
theorem Ty.Writable.isTree {t : Ty} (h : t.Writable) : t.IsTree := h.recoverable.isTree

end StructuralTyping
