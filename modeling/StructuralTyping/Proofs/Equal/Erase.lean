import Mathlib.Data.Multiset.MapFold
import StructuralTyping.Proofs.Equal.Height
import StructuralTyping.Ty.Build

/-!
# Equality without names

`Ty.erase` replaces every name in a type by the empty name: the names of members
and of parameters, of type parameters, of interfaces, classes and enums.  Keys
stay computed or not, and declared nodes keep their identity.

Ignoring names is comparing the erased types (`Decls.bisimilar_erase_iff`).  The
two comparisons match members in different ways, since without names more members
are equal.  So the statement is about bisimilarity, where the matching is only
known to exist, and equality inherits it.
-/

namespace StructuralTyping

/-! ## Erasing names -/

mutual

/-- The type without names. -/
def Ty.erase : Ty → Ty
  | .missing => .missing
  | .keyword k => .keyword k
  | .literal l => .literal l
  | .array e => .array e.erase
  | .tuple es => .tuple (Ty.eraseList es)
  | .union bs => .union (Ty.eraseList bs)
  | .inter bs => .inter (Ty.eraseList bs)
  | .object ms => .object (Member.eraseList ms)
  | .interface _ ts ms bs =>
    .interface "" (TypeParam.eraseList ts) (Member.eraseList ms) (Ty.eraseList bs)
  | .classType _ ts ms b => .classType "" (TypeParam.eraseList ts) (Member.eraseList ms) b.erase
  | .function s => .function s.erase
  | .ctor s => .ctor s.erase
  | .enum _ ms c => .enum "" (ms.map fun _ => "") c
  | .variant _ _ => .variant "" ""
  | .param _ b => .param "" b.erase
  | .this => .this
  | .indexed o i => .indexed o.erase i.erase
  | .other raw => .other raw
  | .regExp => .regExp
  | .named n => .named n
termination_by structural t => t

/-- The types without names. -/
def Ty.eraseList : List Ty → List Ty
  | [] => []
  | t :: ts => t.erase :: Ty.eraseList ts
termination_by structural ts => ts

/-- The member without names. -/
def Member.erase : Member → Member
  | .property k t o r => .property (k.seen false) t.erase o r
  | .method k o s => .method (k.seen false) o s.erase
  | .call s => .call s.erase
  | .construct s => .construct s.erase
  | .index _ k t r => .index "" k.erase t.erase r
termination_by structural m => m

/-- The members without names. -/
def Member.eraseList : List Member → List Member
  | [] => []
  | m :: ms => m.erase :: Member.eraseList ms
termination_by structural ms => ms

/-- The signature without names. -/
def Signature.erase : Signature → Signature
  | .absent => .absent
  | .mk ts ps r => .mk (TypeParam.eraseList ts) (Param.eraseList ps) r.erase
termination_by structural s => s

/-- The parameter without names. -/
def Param.erase : Param → Param
  | ⟨p, t⟩ => ⟨p.seen false, t.erase⟩
termination_by structural p => p

/-- The parameters without names. -/
def Param.eraseList : List Param → List Param
  | [] => []
  | p :: ps => p.erase :: Param.eraseList ps
termination_by structural ps => ps

/-- The type parameter without its name. -/
def TypeParam.erase : TypeParam → TypeParam
  | ⟨_, b⟩ => ⟨"", b.erase⟩
termination_by structural t => t

/-- The type parameters without their names. -/
def TypeParam.eraseList : List TypeParam → List TypeParam
  | [] => []
  | t :: ts => t.erase :: TypeParam.eraseList ts
termination_by structural ts => ts

end

/-- The declarations without names.  What is declared under which node stays. -/
def Decls.erase (D : Decls) : Decls := ⟨D.entries.map fun e => (e.1, e.2.erase)⟩

@[simp] theorem Ty.eraseList_eq_map (ts : List Ty) : Ty.eraseList ts = ts.map Ty.erase := by
  induction ts with
  | nil => rfl
  | cons t ts ih => rw [Ty.eraseList, List.map_cons, ih]

@[simp] theorem Member.eraseList_eq_map (ms : List Member) :
    Member.eraseList ms = ms.map Member.erase := by
  induction ms with
  | nil => rfl
  | cons m ms ih => rw [Member.eraseList, List.map_cons, ih]

@[simp] theorem Param.eraseList_eq_map (ps : List Param) :
    Param.eraseList ps = ps.map Param.erase := by
  induction ps with
  | nil => rfl
  | cons p ps ih => rw [Param.eraseList, List.map_cons, ih]

@[simp] theorem TypeParam.eraseList_eq_map (ts : List TypeParam) :
    TypeParam.eraseList ts = ts.map TypeParam.erase := by
  induction ts with
  | nil => rfl
  | cons t ts ih => rw [TypeParam.eraseList, List.map_cons, ih]

/-! ## What is seen without names -/

theorem seen_seen (m n : Bool) (s : String) : seen n (seen m s) = seen (m && n) s := by
  cases m <;> cases n <;> rfl

theorem PropKey.seen_seen (m n : Bool) (k : PropKey) : (k.seen m).seen n = k.seen (m && n) := by
  simp [PropKey.seen, StructuralTyping.seen_seen]

mutual

theorem Pattern.seen_seen (m n : Bool) : ∀ p : Pattern, (p.seen m).seen n = p.seen (m && n)
  | .hole => rfl
  | .ident a o => by simp [Pattern.seen, StructuralTyping.seen_seen]
  | .array ps => by simp [Pattern.seen, Pattern.seenList_seenList m n ps]
  | .object es r => by
      simp [Pattern.seen, Pattern.seenEntries_seenEntries m n es, Pattern.seen_seen m n r]
  | .rest p => by simp [Pattern.seen, Pattern.seen_seen m n p]
termination_by structural p => p

theorem Pattern.seenList_seenList (m n : Bool) :
    ∀ ps : List Pattern, Pattern.seenList n (Pattern.seenList m ps) = Pattern.seenList (m && n) ps
  | [] => rfl
  | p :: ps => by simp [Pattern.seenList, Pattern.seen_seen m n p, Pattern.seenList_seenList m n ps]
termination_by structural ps => ps

theorem Pattern.seenEntries_seenEntries (m n : Bool) :
    ∀ es : List (PropKey × Pattern),
      Pattern.seenEntries n (Pattern.seenEntries m es) = Pattern.seenEntries (m && n) es
  | [] => rfl
  | e :: es => by
      simp [Pattern.seenEntries, Pattern.seenEntry_seenEntry m n e,
        Pattern.seenEntries_seenEntries m n es]
termination_by structural es => es

theorem Pattern.seenEntry_seenEntry (m n : Bool) :
    ∀ e : PropKey × Pattern,
      Pattern.seenEntry n (Pattern.seenEntry m e) = Pattern.seenEntry (m && n) e
  | (k, p) => by simp [Pattern.seenEntry, PropKey.seen_seen, Pattern.seen_seen m n p]
termination_by structural e => e

end

section Ignoring

variable {R : Ty → Ty → Prop}

theorem PropKey.seen_false_of_seen_true {k l : PropKey} (h : k.seen true = l.seen true) :
    k.seen false = l.seen false := by
  simpa only [PropKey.seen_seen, Bool.and_false] using congrArg (PropKey.seen false) h

theorem TypeParam.Alike.ignoringNames {t u : TypeParam} (h : t.Alike true R u) :
    t.Alike false R u :=
  ⟨rfl, h.2⟩

theorem Param.Alike.ignoringNames {p q : Param} (h : p.Alike true R q) : p.Alike false R q :=
  ⟨by simpa only [Pattern.seen_seen, Bool.and_false] using congrArg (Pattern.seen false) h.1, h.2⟩

theorem Signature.Alike.ignoringNames {s t : Signature} (h : s.Alike true R t) :
    s.Alike false R t := by
  cases h with
  | absent => exact .absent
  | mk htypeParams hparams hresult =>
    exact .mk (htypeParams.imp fun _ _ => .ignoringNames)
      (hparams.imp fun _ _ => .ignoringNames) hresult

theorem Member.Alike.ignoringNames {m n : Member} (h : m.Alike true R n) : m.Alike false R n := by
  cases h with
  | property hkey h => exact .property (PropKey.seen_false_of_seen_true hkey) h
  | method hkey h => exact .method (PropKey.seen_false_of_seen_true hkey) h.ignoringNames
  | call h => exact .call h.ignoringNames
  | construct h => exact .construct h.ignoringNames
  | index _ hkey h => exact .index rfl hkey h

theorem rel_members_ignoringNames {s t : Multiset Member}
    (h : Multiset.Rel (Member.Alike true R) s t) :
    Multiset.Rel (Member.Alike false R) s t := h.mono fun _ _ _ _ => .ignoringNames

/-- Layers that are alike are alike when names are ignored. -/
theorem Ty.Alike.ignoringNames {a b : Ty} (h : a.Alike true R b) : a.Alike false R b := by
  cases h with
  | missing => exact .missing
  | keyword k => exact .keyword k
  | literal h => exact .literal h
  | array h => exact .array h
  | tuple h => exact .tuple h
  | union h => exact .union h
  | inter h => exact .inter h
  | object h => exact .object (rel_members_ignoringNames h)
  | interface _ htypeParams hmembers hbases =>
    exact .interface rfl (htypeParams.imp fun _ _ => .ignoringNames)
      (rel_members_ignoringNames hmembers) hbases
  | classType _ htypeParams hmembers hbase =>
    exact .classType rfl (htypeParams.imp fun _ _ => .ignoringNames)
      (rel_members_ignoringNames hmembers) hbase
  | function h => exact .function h.ignoringNames
  | ctor h => exact .ctor h.ignoringNames
  | enum _ hmembers =>
    refine .enum rfl ?_
    simpa [Function.comp_def, seen_seen] using congrArg (List.map (seen false)) hmembers
  | variant => exact .variant rfl rfl
  | param _ h => exact .param rfl h
  | this => exact .this
  | indexed hobject hindex => exact .indexed hobject hindex
  | raw ha hb => exact .raw ha hb
  | named n => exact .named n

end Ignoring

theorem Decls.bisimilar_ignoringNames {D : Decls} {a b : Ty} (h : D.Bisimilar true a b) :
    D.Bisimilar false a b :=
  ⟨D.Bisimilar true, fun x y hxy => (isBisimulation_bisimilar x y hxy).ignoringNames, h⟩

/-! ## Layers of erased types -/

section Layers

variable {R S : Ty → Ty → Prop}

theorem TypeParam.erase_alike (t : TypeParam) : t.erase.Alike false (fun x y => x = y.erase) t := by
  cases t
  exact ⟨rfl, rfl⟩

theorem Param.erase_alike (p : Param) : p.erase.Alike false (fun x y => x = y.erase) p := by
  cases p
  exact ⟨Pattern.seen_seen false false _, rfl⟩

theorem Signature.erase_alike (s : Signature) : s.erase.Alike false (fun x y => x = y.erase) s := by
  cases s with
  | absent => exact .absent
  | mk ts ps r =>
    rw [Signature.erase, TypeParam.eraseList_eq_map, Param.eraseList_eq_map]
    exact .mk (forall₂_map_self fun t _ => t.erase_alike)
      (forall₂_map_self fun p _ => p.erase_alike) rfl

theorem Member.erase_alike (m : Member) : m.erase.Alike false (fun x y => x = y.erase) m := by
  cases m with
  | property => exact .property (PropKey.seen_seen false false _) rfl
  | method => exact .method (PropKey.seen_seen false false _) (Signature.erase_alike _)
  | call => exact .call (Signature.erase_alike _)
  | construct => exact .construct (Signature.erase_alike _)
  | index => exact .index rfl rfl rfl

/-- A layer is alike to its erasure when names are ignored. -/
theorem Ty.erase_alike (t : Ty) : t.erase.Alike false (fun x y => x = y.erase) t := by
  have htypes (ts : List Ty) : List.Forall₂ (fun x y => x = y.erase) (Ty.eraseList ts) ts := by
    rw [Ty.eraseList_eq_map]
    exact forall₂_map_self fun _ _ => rfl
  have htypeParams (ts : List TypeParam) :
      List.Forall₂ (TypeParam.Alike false fun x y => x = y.erase) (TypeParam.eraseList ts) ts := by
    rw [TypeParam.eraseList_eq_map]
    exact forall₂_map_self fun t _ => t.erase_alike
  have hmembers (ms : List Member) :
      Multiset.Rel (Member.Alike false fun x y => x = y.erase)
        (Member.eraseList ms : Multiset Member) (ms : Multiset Member) := by
    rw [Member.eraseList_eq_map]
    exact rel_of_forall₂ (forall₂_map_self fun m _ => m.erase_alike)
  cases t with
  | missing => exact .missing
  | keyword k => exact .keyword k
  | literal l => exact .literal (Literal.sameValue_equivalence.refl l)
  | array => exact .array rfl
  | tuple => exact .tuple (htypes _)
  | union => exact .union (rel_of_forall₂ (htypes _))
  | inter => exact .inter (rel_of_forall₂ (htypes _))
  | object => exact .object (hmembers _)
  | interface => exact .interface rfl (htypeParams _) (hmembers _) (htypes _)
  | classType => exact .classType rfl (htypeParams _) (hmembers _) rfl
  | function => exact .function (Signature.erase_alike _)
  | ctor => exact .ctor (Signature.erase_alike _)
  | enum => exact .enum rfl (by rw [List.map_map]; rfl)
  | variant => exact .variant rfl rfl
  | param => exact .param rfl rfl
  | this => exact .this
  | indexed => exact .indexed rfl rfl
  | other => exact .raw rfl rfl
  | regExp => exact .raw rfl rfl
  | named n => exact .named n

theorem rel_map_of_rel {α : Type*} {R S : α → α → Prop} {f : α → α} {as bs : List α}
    (h : Multiset.Rel R (as : Multiset α) (bs : Multiset α)) (hRS : ∀ a b, R a b → S (f a) (f b)) :
    Multiset.Rel S (as.map f : Multiset α) (bs.map f : Multiset α) := by
  rw [← Multiset.map_coe, ← Multiset.map_coe, Multiset.rel_map]
  exact h.mono fun a _ b _ => hRS a b

theorem TypeParam.Alike.erase (hRS : ∀ x y, R x y → S x.erase y.erase) {t u : TypeParam}
    (h : t.Alike false R u) : t.erase.Alike true S u.erase := by
  cases t
  cases u
  exact ⟨rfl, hRS _ _ h.2⟩

theorem Param.Alike.erase (hRS : ∀ x y, R x y → S x.erase y.erase) {p q : Param}
    (h : p.Alike false R q) : p.erase.Alike true S q.erase := by
  cases p
  cases q
  exact ⟨congrArg _ h.1, hRS _ _ h.2⟩

theorem Signature.Alike.erase (hRS : ∀ x y, R x y → S x.erase y.erase) {s t : Signature}
    (h : s.Alike false R t) : s.erase.Alike true S t.erase := by
  cases h with
  | absent => exact .absent
  | mk htypeParams hparams hresult =>
    simp only [Signature.erase, TypeParam.eraseList_eq_map, Param.eraseList_eq_map]
    exact .mk (List.rel_map (fun _ _ h => h.erase hRS) htypeParams)
      (List.rel_map (fun _ _ h => h.erase hRS) hparams) (hRS _ _ hresult)

theorem Member.Alike.erase (hRS : ∀ x y, R x y → S x.erase y.erase) {m n : Member}
    (h : m.Alike false R n) : m.erase.Alike true S n.erase := by
  cases h with
  | property hkey h => exact .property (congrArg _ hkey) (hRS _ _ h)
  | method hkey h => exact .method (congrArg _ hkey) (h.erase hRS)
  | call h => exact .call (h.erase hRS)
  | construct h => exact .construct (h.erase hRS)
  | index _ hkey h => exact .index rfl (hRS _ _ hkey) (hRS _ _ h)

/-- Layers that are alike when names are ignored have erasures that are alike. -/
theorem Ty.Alike.erase (hRS : ∀ x y, R x y → S x.erase y.erase) {a b : Ty} (h : a.Alike false R b) :
    a.erase.Alike true S b.erase := by
  have htypeParams {ts us : List TypeParam} (h : List.Forall₂ (TypeParam.Alike false R) ts us) :
      List.Forall₂ (TypeParam.Alike true S) (TypeParam.eraseList ts) (TypeParam.eraseList us) := by
    simp only [TypeParam.eraseList_eq_map]
    exact List.rel_map (fun _ _ h => h.erase hRS) h
  have hmembers {ms ns : List Member}
      (h : Multiset.Rel (Member.Alike false R) (ms : Multiset Member) (ns : Multiset Member)) :
      Multiset.Rel (Member.Alike true S) (Member.eraseList ms : Multiset Member)
        (Member.eraseList ns : Multiset Member) := by
    simp only [Member.eraseList_eq_map]
    exact rel_map_of_rel h fun _ _ => .erase hRS
  have htypes {ts us : List Ty} (h : List.Forall₂ R ts us) :
      List.Forall₂ S (Ty.eraseList ts) (Ty.eraseList us) := by
    simp only [Ty.eraseList_eq_map]
    exact List.rel_map hRS h
  have hbranches {ts us : List Ty} (h : Multiset.Rel R (ts : Multiset Ty) (us : Multiset Ty)) :
      Multiset.Rel S (Ty.eraseList ts : Multiset Ty) (Ty.eraseList us : Multiset Ty) := by
    simp only [Ty.eraseList_eq_map]
    exact rel_map_of_rel h hRS
  have hraw {t : Ty} {text : String} (h : t.raw? = some text) : t.erase.raw? = some text := by
    cases t <;> exact h
  cases h with
  | missing => exact .missing
  | keyword k => exact .keyword k
  | literal h => exact .literal h
  | array h => exact .array (hRS _ _ h)
  | tuple h => exact .tuple (htypes h)
  | union h => exact .union (hbranches h)
  | inter h => exact .inter (hbranches h)
  | object h => exact .object (hmembers h)
  | interface _ hts hms hbases =>
    exact .interface rfl (htypeParams hts) (hmembers hms) (htypes hbases)
  | classType _ hts hms hbase =>
    exact .classType rfl (htypeParams hts) (hmembers hms) (hRS _ _ hbase)
  | function h => exact .function (h.erase hRS)
  | ctor h => exact .ctor (h.erase hRS)
  | enum _ hmembers => exact .enum rfl (congrArg _ hmembers)
  | variant => exact .variant rfl rfl
  | param _ h => exact .param rfl (hRS _ _ h)
  | this => exact .this
  | indexed hobject hindex => exact .indexed (hRS _ _ hobject) (hRS _ _ hindex)
  | raw ha hb => exact .raw (hraw ha) (hraw hb)
  | named n => exact .named n

end Layers

namespace Decls

variable {D : Decls}

/-! ## Erased declarations -/

theorem find?_erase (D : Decls) (name : TypeName) :
    D.erase.find? name = (D.find? name).map Ty.erase := by
  simp only [find?, erase]
  induction D.entries with
  | nil => rfl
  | cons e entries ih =>
    obtain ⟨other, t⟩ := e
    simp only [List.map_cons, List.lookup_cons]
    cases name == other with
    | true => rfl
    | false => exact ih

theorem head_erase (D : Decls) (t : Ty) : D.erase.head t.erase = (D.head t).erase := by
  cases t with
  | named name =>
    simp only [Ty.erase, head, find?_erase]
    cases D.find? name <;> rfl
  | _ => rfl

/-- Erasing names does not change how high a type is. -/
theorem HasHeight.erase {n : Nat} {t : Ty} (h : D.HasHeight n t) : D.erase.HasHeight n t.erase := by
  induction h with
  | missing => exact .missing
  | @layer n t hdeclared hlayer _ ih =>
    have hmissing : ∀ t : Ty, t.erase.isMissing = t.isMissing := fun t => by cases t <;> rfl
    have hnamed : ∀ t : Ty, t.erase.isNamed = t.isNamed := fun t => by cases t <;> rfl
    refine .layer ?_ ?_ fun x hx => ?_
    · rw [head_erase, hmissing, hdeclared]
    · rw [head_erase, hnamed, hlayer]
    · rw [head_erase] at hx
      obtain ⟨y, hy, rfl⟩ := (Ty.erase_alike _).exists_part hx
      exact ih y hy

/-- Types are bisimilar up to names exactly when their erasures are bisimilar. -/
theorem bisimilar_erase_iff {a b : Ty} :
    D.erase.Bisimilar true a.erase b.erase ↔ D.Bisimilar false a b := by
  constructor
  · intro h
    refine ⟨fun x y => D.erase.Bisimilar true x.erase y.erase, fun x y hxy => ?_, h⟩
    have hlayer := isBisimulation_bisimilar _ _ hxy
    rw [head_erase, head_erase] at hlayer
    -- A layer and its erasure differ in names only, so they can be put before and after.
    refine (((D.head x).erase_alike.flip.comp hlayer.ignoringNames).comp
      (D.head y).erase_alike).mono ?_
    rintro u - v - ⟨_, ⟨_, rfl, huv⟩, rfl⟩
    exact huv
  · intro h
    refine ⟨fun x y => ∃ u v, D.Bisimilar false u v ∧ x = u.erase ∧ y = v.erase, ?_, a,
      b, h, rfl, rfl⟩
    rintro _ _ ⟨u, v, huv, rfl, rfl⟩
    rw [head_erase, head_erase]
    exact (isBisimulation_bisimilar u v huv).erase fun x y hxy => ⟨x, y, hxy, rfl, rfl⟩

/-! ## The comparison -/

/-- Ignoring names is comparing the erased types, and types that are equal are equal
up to names. -/
theorem equalIgnoringNames_eq_equal_erase {a b : Ty} (ha : D.HasHeight (maxEqualDepth + 1) a)
    (hb : D.HasHeight (maxEqualDepth + 1) b) :
    D.equalIgnoringNames a b = D.erase.equal a.erase b.erase ∧
      (D.equal a b = true → D.equalIgnoringNames a b = true) := by
  have hnames : ∀ names, D.equalTypes names a b = true ↔ D.Bisimilar names a b := fun _ =>
    equalTypes_iff_bisimilar ha.acyclic hb.acyclic (.inl ha)
  have herased : D.erase.equal a.erase b.erase = true ↔ D.erase.Bisimilar true a.erase b.erase :=
    equalTypes_iff_bisimilar ha.erase.acyclic hb.erase.acyclic (.inl ha.erase)
  refine ⟨?_, fun h => ?_⟩
  · rw [Bool.eq_iff_iff, herased, bisimilar_erase_iff]
    exact hnames false
  · exact (hnames false).2 (bisimilar_ignoringNames ((hnames true).1 h))

/-- Two shapes whose members go together only when names are ignored, and then not
in the order of their keys. -/
theorem equalIgnoringNames_eq_equal_erase_swapped :
    let left : Ty := .object [.required "width" .number, .required "label" .string]
    let right : Ty := .object [.required "width" .string, .required "height" .number]
    let turned : Ty := .object [.required "label" .string, .required "width" .number]
    empty.equal left right = false ∧ empty.equalIgnoringNames left right = true ∧
      empty.equalIgnoringNames left turned = true := by
  intro left right turned
  have hleft : empty.HasHeight 2 left := by decide
  have hright : empty.HasHeight 2 right := by decide
  have hturned : empty.HasHeight 2 turned := by decide
  have hdepth : 2 ≤ maxEqualDepth + 1 := by decide
  refine ⟨rfl, ?_, ?_⟩
  · rw [(equalIgnoringNames_eq_equal_erase (hleft.mono hdepth) (hright.mono hdepth)).1]
    rfl
  · exact (equalIgnoringNames_eq_equal_erase (hleft.mono hdepth) (hturned.mono hdepth)).2 rfl

end Decls

end StructuralTyping
