import StructuralTyping.Proofs.Leaves
import StructuralTyping.Proofs.Reads
import StructuralTyping.Proofs.Session

/-!
# Inferred types are there

An annotation may be left out, of a result, a property or a parameter, and the type that stands
for it is missing.  Inference never ends with a missing type
(`Checker.isMissing_typeOf`).  The result of a call is that of a signature, and every way out of a
call turns a missing result into `any`, or into the class that is constructed.  Parts of types are
only looked at and put into other types.

What is left are types that are taken over as they are: those of names, and those that casts name.
So these have to be there, and of the casts only those that the type of the expression is made of.
Joining and narrowing drop missing branches, and what they come to is there in any case
(`Decls.isMissing_join`, `Decls.isMissing_without`).
-/

namespace StructuralTyping

/-! ## Joined and narrowed types -/

namespace Decls

variable (D : Decls)

/-- Joined types are there, even if the types are not. -/
theorem isMissing_join (ts : List Ty) : (D.join ts).isMissing = false := by
  rw [join]
  split
  · rfl
  · next t ht =>
    exact isMissing_of_mem_unionLeaves (mem_of_mem_distinct (ht ▸ List.mem_singleton_self t))
  · rfl

/-- The intersection of types is there, even if the types are not. -/
theorem isMissing_meet (ts : List Ty) : (D.meet ts).isMissing = false := by
  rw [meet]
  split
  · rfl
  · next t ht =>
    exact isMissing_of_mem_interLeaves (mem_of_mem_distinct (ht ▸ List.mem_singleton_self t))
  · split
    · rfl
    · split <;> rfl

theorem isMissing_without_of_names {nameWithout : TypeName → Ty} {drops : Ty → Bool} {t : Ty}
    (hnames : ∀ n, (nameWithout n).isMissing = false) (ht : t.isMissing = false) :
    (t.without D nameWithout drops).isMissing = false := by
  cases t with
  | missing => cases ht
  | union bs => exact D.isMissing_join _
  | inter bs =>
    simp only [Ty.without]
    split
    · rfl
    · exact D.isMissing_meet _
  | named n => exact hnames n
  | _ =>
    simp only [Ty.without]
    split <;> rfl

theorem isMissing_nameWithout (drops : Ty → Bool) (fuel : Nat) (n : TypeName) :
    (D.nameWithout drops fuel n).isMissing = false := by
  induction fuel generalizing n with
  | zero => rfl
  | succ fuel ih =>
    rw [nameWithout]
    split
    · exact D.isMissing_without_of_names ih rfl
    · exact D.isMissing_without_of_names ih rfl
    · split <;> rfl
    · rfl

/-- What is left of a type is there. -/
theorem isMissing_without {drops : Ty → Bool} {t : Ty} (ht : t.isMissing = false) :
    (D.without drops t).isMissing = false :=
  D.isMissing_without_of_names (D.isMissing_nameWithout drops D.size) ht

end Decls

theorem Ty.isMissing_orAny (t : Ty) : t.orAny.isMissing = false := by cases t <;> rfl

/-! ## Programs that yield types -/

namespace Inference

/-- What the program comes to satisfies a condition. -/
def Yields (ask : Question → Infer Ty) (assign : Ty → Ty → Span → Infer Unit) (m : Inference α)
    (p : α → Prop) : Prop :=
  ∀ a, m.outcome ask assign = .ok a → p a

/-- The program comes to a type that is there. -/
abbrev YieldsType (ask : Question → Infer Ty) (assign : Ty → Ty → Span → Infer Unit)
    (m : Inference Ty) : Prop :=
  m.Yields ask assign (·.isMissing = false)

section Yields

variable {ask : Question → Infer Ty} {assign : Ty → Ty → Span → Infer Unit} {p : α → Prop}
  {q : β → Prop}

theorem yields_pure {a : α} (h : p a) : (pure a).Yields ask assign p := by
  rintro _ ⟨⟩
  exact h

theorem yields_fail (d : Diagnostic) : (fail d).Yields ask assign p := nofun

theorem yields_ask {p : Ty → Prop} {question : Question}
    (h : ∀ t, (ask question).outcome = .ok t → p t) :
    (Inference.ask question).Yields ask assign p := h

theorem yields_bind {m : Inference α} {f : α → Inference β} (hm : m.Yields ask assign p)
    (hf : ∀ a, p a → (f a).Yields ask assign q) : (m >>= f).Yields ask assign q := by
  intro b hb
  rw [outcome_bind] at hb
  cases hcase : m.outcome ask assign with
  | ok a =>
    rw [hcase] at hb
    exact hf a (hm a hcase) b hb
  | error d =>
    rw [hcase] at hb
    cases hb

/-- The last step counts. -/
theorem yields_last {m : Inference α} {f : α → Inference β} (hf : ∀ a, (f a).Yields ask assign q) :
    (m >>= f).Yields ask assign q :=
  yields_bind (p := fun _ => True) (fun _ _ => trivial) fun a _ => hf a

theorem yields_map {m : Inference α} {f : α → β} (hf : ∀ a, q (f a)) :
    (do return f (← m) : Inference β).Yields ask assign q :=
  yields_last fun a => yields_pure (hf a)

/-- Alternatives that are tried in order come to what one of them comes to. -/
theorem yields_firstSuccess {f : α → Inference β} (hf : ∀ a, (f a).Yields ask assign q)
    (as : List α) : (firstSuccess f as).Yields ask assign fun r => ∀ b, r = .ok b → q b := by
  rintro _ h b rfl
  obtain ⟨ds, hattempts⟩ := outcome_firstSuccess ask assign f as
  rw [hattempts] at h
  split at h
  · next b' hb =>
    obtain rfl : b' = b := by injection h with h; injection h
    obtain ⟨a, -, ha⟩ := List.exists_of_findSome?_eq_some hb
    cases hcase : (f a).outcome ask assign with
    | ok c =>
      rw [hcase] at ha
      cases ha
      exact hf a _ hcase
    | error d =>
      rw [hcase] at ha
      cases ha
  · cases h

end Yields

end Inference

/-! ## Names and casts -/

/-- An export has a type, or a declaration that can be used in its place.  An interface is
expanded to an object, and what else is without a type is not used as a value. -/
def Export.hasType (x : Export) : Bool :=
  !x.type.isMissing ||
    match x.form with
    | .alias _ t | .enum t => !t.isMissing
    | .interface _ | .namespaceDecl _ | .none => true

/-- The names that can be looked up have types. -/
structure Checker.NamesHaveTypes (C : Checker) : Prop where
  var {name : String} {t : Ty} : C.scope.var? name = some t → t.isMissing = false
  imported {name : String} {x : Export} : C.scope.imported? name = some x → x.hasType = true
  type {name : String} {x : Export} : C.scope.type? name = some x → x.hasType = true
  global {name : String} {t : Ty} : C.options.globals.lookup name = some t → t.isMissing = false

theorem Frame.exists_mem_of_findSome? {bindings : Frame → List (String × α)} {frames : List Frame}
    {name : String} {a : α} (h : (frames.findSome? fun f => (bindings f).lookup name) = some a) :
    ∃ f ∈ frames, (name, a) ∈ bindings f := by
  obtain ⟨f, hf, hlookup⟩ := List.exists_of_findSome?_eq_some h
  obtain ⟨before, after, heq, -⟩ := List.lookup_eq_some_iff.1 hlookup
  exact ⟨f, hf, heq ▸ List.mem_append_right _ List.mem_cons_self⟩

/-- The names of an environment have types if everything that is bound in it does. -/
theorem Environment.namesHaveTypes {e : Environment} (D : Decls) {o : Options}
    (hvars : ∀ f ∈ e.frames, ∀ b ∈ f.vars, b.2.isMissing = false)
    (himports : ∀ f ∈ e.frames, ∀ b ∈ f.imports, b.2.hasType = true)
    (htypes : ∀ f ∈ e.frames, ∀ b ∈ f.types, b.2.hasType = true)
    (hglobals : ∀ b ∈ o.globals, b.2.isMissing = false) :
    Checker.NamesHaveTypes ⟨D, e.scope, o⟩ where
  var h := by
    obtain ⟨f, hf, hmem⟩ := Frame.exists_mem_of_findSome? h
    exact hvars f hf _ hmem
  imported h := by
    obtain ⟨f, hf, hmem⟩ := Frame.exists_mem_of_findSome? h
    exact himports f hf _ hmem
  type h := by
    obtain ⟨f, hf, hmem⟩ := Frame.exists_mem_of_findSome? h
    exact htypes f hf _ hmem
  global h := by
    obtain ⟨before, after, heq, -⟩ := List.lookup_eq_some_iff.1 h
    exact hglobals _ (heq ▸ List.mem_append_right _ List.mem_cons_self)

/-- The types that a form of expression names itself. -/
def ExprNode.castTypes : ExprNode → List Ty
  | .cast _ t | .assertion _ t => [t]
  | _ => []

/-- Inference of an expression may come to a cast to a type. -/
inductive Expr.CastsTo (o : Options) : Expr → Ty → Prop where
  | cast {e : Expr} {t : Ty} (h : t ∈ e.node.castTypes) : Expr.CastsTo o e t
  | part {e p : Expr} {t : Ty} (hp : p ∈ e.node.typedParts o) (h : Expr.CastsTo o p t) :
      Expr.CastsTo o e t

/-- The casts that inference may come to name types. -/
def Expr.CastsHaveTypes (o : Options) (e : Expr) : Prop := ∀ t, e.CastsTo o t → t.isMissing = false

namespace Expr.CastsHaveTypes

variable {o : Options} {e p : Expr}

theorem part (h : e.CastsHaveTypes o) (hp : p ∈ e.node.typedParts o) : p.CastsHaveTypes o :=
  fun t ht => h t (.part hp ht)

theorem intro (hcasts : ∀ t ∈ e.node.castTypes, t.isMissing = false)
    (hparts : ∀ p ∈ e.node.typedParts o, p.CastsHaveTypes o) : e.CastsHaveTypes o
  | t, .cast h => hcasts t h
  | t, .part hp h => hparts _ hp t h

end Expr.CastsHaveTypes

/-- The casts in the expression that a question is about name types.  A question about a
call is about no expression. -/
def Question.CastsHaveTypes (o : Options) : Question → Prop
  | .typeOf e => e.CastsHaveTypes o
  | .extract _ _ | .extractMember _ _ _ => True

namespace Checker

open Inference (YieldsType yields_pure yields_fail yields_ask yields_bind yields_last yields_map
  yields_firstSuccess)

variable {C : Checker} {ask : Question → Infer Ty} {assign : Ty → Ty → Span → Infer Unit}

/-! ## Calls -/

theorem isMissing_constructed (D : Decls) (callee : Ty) (site : CallSite) (result : Ty) :
    (constructed D callee site result).isMissing = false := by
  rw [constructed]
  split
  · next hresult => simpa using hresult
  · split
    · next hclass =>
      split
      · cases callee with
        | missing => cases hclass
        | _ => rfl
      · rfl
    · rfl

section Calls

variable {site : CallSite} {f : Ty → Inference Ty}

theorem yieldsType_firstBranch (hf : ∀ b, (f b).YieldsType ask assign) (callee : Ty)
    (bs : List Ty) : (firstBranch site callee f bs).YieldsType ask assign := by
  refine yields_bind (yields_firstSuccess hf bs) fun r hr => ?_
  cases r with
  | ok t => exact yields_pure (hr t rfl)
  | error ds => cases ds <;> exact yields_fail _

theorem yieldsType_someBranch (hf : ∀ b, (f b).YieldsType ask assign) (callee : Ty) (bs : List Ty) :
    (someBranch site callee f bs).YieldsType ask assign := by
  refine yields_bind (yields_firstSuccess hf bs) fun r hr => ?_
  cases r with
  | ok t => exact yields_pure (hr t rfl)
  | error ds => exact yields_fail _

theorem yieldsType_extractStep
    (hask : ∀ callee, (Inference.ask (.extract callee site)).YieldsType ask assign) (callee : Ty) :
    (C.extractStep callee site).YieldsType ask assign := by
  simp only [extractStep]
  split
  · exact yields_map fun t => isMissing_constructed _ _ _ _
  · split
    · split
      · exact yields_fail _
      · exact yields_map Ty.isMissing_orAny
    · split
      · exact yields_map Ty.isMissing_orAny
      · exact yields_fail _
    · exact yieldsType_firstBranch hask _ _
    · exact yieldsType_someBranch hask _ _
    · split
      · exact yields_fail _
      · exact hask _
    · split
      · exact yields_pure rfl
      · exact yields_fail _

theorem yieldsType_extractMemberStep
    (hask : ∀ callee, (Inference.ask (.extract callee site)).YieldsType ask assign)
    (haskMember : ∀ object key,
      (Inference.ask (.extractMember object key site)).YieldsType ask assign)
    (object : Ty) (key : PropKey) :
    (C.extractMemberStep object key site).YieldsType ask assign := by
  simp only [extractMemberStep]
  split
  · split
    · split
      · exact yields_pure rfl
      · exact hask _
    · exact yields_map Ty.isMissing_orAny
  · split
    · exact yieldsType_firstBranch (haskMember · key) _ _
    · exact yieldsType_someBranch (haskMember · key) _ _
    · split
      · exact yields_fail _
      · exact haskMember _ key
    · split
      · exact yields_pure rfl
      · split
        · exact yields_fail _
        · exact yields_fail _

theorem yieldsType_calleeResult
    (hask : ∀ callee, (Inference.ask (.extract callee site)).YieldsType ask assign)
    (haskMember : ∀ object key,
      (Inference.ask (.extractMember object key site)).YieldsType ask assign)
    (callee : Expr) : (C.calleeResult callee site).YieldsType ask assign := by
  rw [calleeResult]
  split
  · exact yields_pure rfl
  · exact yields_last fun t => haskMember t _
  · exact yields_last fun t => yields_last fun key => haskMember t key
  · exact yields_last hask

/-- A call of `require` comes to nothing. -/
theorem yieldsType_requireType (args : List Expr) (span : Span) :
    (C.requireType args span).YieldsType ask assign := by
  unfold requireType
  split
  · exact yields_fail _
  · split
    · exact yields_fail _
    · split <;> exact yields_fail _
    · exact yields_fail _

theorem yieldsType_callType
    (hask : ∀ callee, (Inference.ask (.extract callee site)).YieldsType ask assign)
    (haskMember : ∀ object key,
      (Inference.ask (.extractMember object key site)).YieldsType ask assign)
    (callee : Expr) : (C.callType callee site).YieldsType ask assign := by
  rw [callType]
  split
  · exact yields_pure rfl
  · exact yieldsType_requireType _ _
  · exact yieldsType_calleeResult hask haskMember callee

end Calls

/-! ## Expressions -/

theorem yieldsType_expandExport {x : Export} (hx : x.hasType = true) (D : Decls) (span : Span) :
    (expandExport D x span).YieldsType ask assign := by
  obtain ⟨t, form⟩ := x
  rw [expandExport]
  split
  · next h => exact yields_pure (by simpa using h)
  · next h =>
    simp only [Export.hasType, h, Bool.false_or] at hx
    cases form with
    | interface declaration => exact yields_pure rfl
    | «alias» name t | enum t => exact yields_pure (by simpa using hx)
    | namespaceDecl | none => exact yields_fail _

theorem isMissing_builtin? {name : String} {t : Ty} (h : builtin? name = some t) :
    t.isMissing = false := by
  rw [builtin?] at h
  split at h
  · cases h
    rfl
  · split at h <;> cases h
    rfl

theorem yieldsType_identType (hnames : C.NamesHaveTypes) (name : String) (span : Span) :
    (C.identType name span).YieldsType ask assign := by
  rw [identType]
  split
  · exact yields_fail _
  · split
    · next h => exact yields_pure (hnames.var h)
    · split
      · next h => exact yieldsType_expandExport (hnames.imported h) _ _
      · split
        · next h => exact yieldsType_expandExport (hnames.type h) _ _
        · split
          · next h =>
            rcases Option.or_eq_some_iff.1 h with h | ⟨-, h⟩
            · exact yields_pure (hnames.global h)
            · exact yields_pure (isMissing_builtin? h)
          · exact yields_fail _

theorem yieldsType_regexType (pattern flags : String) (span : Span) :
    (regexType pattern flags span).YieldsType ask assign := by
  rw [regexType]
  split
  · exact yields_fail _
  · split
    · exact yields_fail _
    · exact yields_pure rfl

theorem yieldsType_arrayType (es : List Expr) : (C.arrayType es).YieldsType ask assign := by
  refine yields_last fun ts => ?_
  split <;> exact yields_pure rfl

theorem isMissing_negate (D : Decls) (t : Ty) : (D.negate t).isMissing = false := by
  rw [Decls.negate]
  split <;> rfl

theorem yieldsType_unaryType (span : Span) (operator : String) (operand : Expr) :
    (C.unaryType span operator operand).YieldsType ask assign := by
  unfold unaryType
  split
  · exact yields_map fun t => isMissing_negate _ t
  · split <;> exact yields_pure rfl
  · exact yields_pure rfl
  · exact yields_pure rfl
  · exact yields_pure rfl
  · exact yields_fail _

theorem yieldsType_functionType (f : Func) : (C.functionType f).YieldsType ask assign := by
  rw [functionType]
  split
  · exact yields_fail _
  · refine yields_last fun params => ?_
    split
    · exact yields_map fun r => rfl
    · exact yields_map fun r => rfl

theorem yieldsType_classType (c : ClassDef) : (C.classType c).YieldsType ask assign :=
  yields_map fun _ => rfl

/-- The type of a sequence is that of its last part, so the parts before it need not yield
types. -/
theorem yieldsType_sequenceType (span : Span) {es : List Expr}
    (hask : ∀ e ∈ es, (Inference.ask (.typeOf e)).YieldsType ask assign) :
    (sequenceType span es).YieldsType ask assign := by
  induction es with
  | nil => exact yields_fail _
  | cons e es ih =>
    cases es with
    | nil => exact hask e (List.mem_singleton_self e)
    | cons => exact yields_last fun _ => ih fun e he => hask e (List.mem_cons_of_mem _ he)

theorem yieldsType_binaryType (span : Span) (left : Expr) (operator : String) (right : Expr)
    (hask : (operator == "&&" || operator == "||") = true →
      (Inference.ask (.typeOf right)).YieldsType ask assign) :
    (C.binaryType span left operator right).YieldsType ask assign := by
  rw [binaryType]
  split
  · next h => exact hask h
  · split
    · exact yields_last fun l => yields_map fun r => C.decls.isMissing_join _
    · split
      · exact yields_pure rfl
      · split
        · exact yields_pure rfl
        · exact yields_fail _

/-- The type of an expression is there if the types that it is made of are. -/
theorem yieldsType_typeOfStep (hnames : C.NamesHaveTypes)
    (hask : ∀ q : Question, q.CastsHaveTypes C.options → (Inference.ask q).YieldsType ask assign)
    {e : Expr} (he : e.CastsHaveTypes C.options) : (C.typeOfStep e).YieldsType ask assign := by
  have hpart (p : Expr) (hp : p ∈ e.node.typedParts C.options) :
      (Inference.ask (.typeOf p)).YieldsType ask assign :=
    hask (.typeOf p) (he.part hp)
  have hextract (site : CallSite) (callee : Ty) :
      (Inference.ask (.extract callee site)).YieldsType ask assign :=
    hask _ trivial
  have hextractMember (site : CallSite) (object : Ty) (key : PropKey) :
      (Inference.ask (.extractMember object key site)).YieldsType ask assign :=
    hask _ trivial
  obtain ⟨span, node⟩ := e
  cases node with
  | missing | super | spread | await | yield | metaProperty | arrow => exact yields_fail _
  | bool | number | string | null | template | this | typeOf | void | update =>
    exact yields_pure rfl
  | ident name => exact yieldsType_identType hnames name span
  | regex pattern flags => exact yieldsType_regexType pattern flags span
  | array es => exact yieldsType_arrayType es
  | object entries => exact yields_map fun _ => rfl
  | paren inner | assign operator target inner => exact hpart inner (List.mem_singleton_self inner)
  | unary operator operand => exact yieldsType_unaryType span operator operand
  | binary l operator r =>
    refine yieldsType_binaryType span l operator r fun h => hpart r ?_
    simp [ExprNode.typedParts, h]
  | ternary condition a b =>
    refine yields_bind (hpart a (by simp [ExprNode.typedParts])) fun s hs =>
      yields_last fun t => yields_pure ?_
    split
    · exact hs
    · exact C.decls.isMissing_join _
  | sequence es => exact yieldsType_sequenceType span hpart
  | call callee typeArgs args => exact yieldsType_callType (hextract _) (hextractMember _) callee
  | construct callee typeArgs args =>
    exact yieldsType_calleeResult (hextract _) (hextractMember _) callee
  | member object property =>
    obtain ⟨objectSpan, node⟩ := object
    cases node with
    | super => exact yields_pure rfl
    | _ => exact yields_map fun _ => rfl
  | index object i => exact yields_last fun _ => yields_map fun _ => rfl
  | assertion inner t | cast inner t => exact yields_pure (he t (.cast (List.mem_singleton_self t)))
  | nonNull inner =>
    exact yields_bind (hpart inner (List.mem_singleton_self inner)) fun t ht =>
      yields_pure (C.decls.isMissing_without ht)
  | function f => exact yieldsType_functionType f
  | classExpr c => exact yieldsType_classType c

theorem yieldsType_step (hnames : C.NamesHaveTypes)
    (hask : ∀ q : Question, q.CastsHaveTypes C.options → (Inference.ask q).YieldsType ask assign)
    {q : Question} (hq : q.CastsHaveTypes C.options) : (C.step q).YieldsType ask assign := by
  cases q with
  | typeOf e =>
    intro t ht
    rw [step, Inference.outcome_noteOutcome] at ht
    exact yieldsType_typeOfStep hnames hask hq t ht
  | extract callee site => exact yieldsType_extractStep (fun _ => hask _ trivial) callee
  | extractMember object key site =>
    exact yieldsType_extractMemberStep (fun _ => hask _ trivial)
      (fun _ _ => hask _ trivial) object key

/-! ## Any number of levels -/

theorem isMissing_answer (hnames : C.NamesHaveTypes) (levels : Nat) {q : Question} {t : Ty}
    (hq : q.CastsHaveTypes C.options) (h : (C.answer levels q).outcome = .ok t) :
    t.isMissing = false := by
  induction levels generalizing q t with
  | zero => cases h
  | succ levels ih =>
    rw [answer] at h
    split at h
    · cases h
    · exact yieldsType_step hnames (fun q hq => yields_ask fun t ht => ih hq ht) hq t h

/-- Where names have types, the type of an expression is there, unless it comes from a cast that
names none.  The result of a call is there in any case, although signatures, properties and
parameters may be without types. -/
theorem isMissing_typeOf (hnames : C.NamesHaveTypes) :
    (∀ e : Expr, e.CastsHaveTypes C.options →
      ∀ t, (C.typeOf e).outcome = .ok t → t.isMissing = false) ∧
      ∀ callee site t, (C.extract callee site).outcome = .ok t → t.isMissing = false := by
  refine ⟨fun e he t h => ?_, fun callee site t h => ?_⟩
  · rw [typeOf_eq_answer] at h
    exact isMissing_answer (q := .typeOf e) hnames _ he h
  · rw [extract_eq_answer] at h
    exact isMissing_answer (q := .extract callee site) hnames _ trivial h

/-- A call of a function without a result type, a cast that is narrowed, and the construction of
a class with a constructor that declares no result. -/
theorem isMissing_typeOf_unannotated :
    let unannotated : Signature := .mk [] [.plain "x" .missing] .missing
    let point : Ty :=
      .classType "Point" [] [.construct unannotated, .required "x" .missing] .missing
    let env : Environment :=
      ⟨{ vars := [("run", .function unannotated), ("test", .boolean)],
          types := [("Point", ⟨point, .none⟩)] },
        [{ imports := [("Shape", ⟨.missing, .interface point⟩)] }]⟩
    let C : Checker := { scope := env.scope, options := { globals := [("process", .object [])] } }
    let name (s : String) : Expr := ⟨{}, .ident s⟩
    let call : Expr := ⟨{}, .call (name "run") [] [name "Shape"]⟩
    let narrowed : Expr := ⟨{}, .nonNull ⟨{}, .cast (name "process") (.union [.string, .null])⟩⟩
    let e : Expr := ⟨{}, .ternary (name "test") call narrowed⟩
    let site : CallSite := ⟨true, [name "test"], [], {}⟩
    C.NamesHaveTypes ∧ e.CastsHaveTypes C.options ∧
      (∃ t, (C.typeOf e).outcome = .ok t ∧ t.isMissing = false) ∧
      (C.extract point site).outcome = .ok point ∧ point.isMissing = false := by
  intro unannotated point env C name call narrowed e site
  have hnames : C.NamesHaveTypes :=
    Environment.namesHaveTypes {} (by decide) (by decide) (by decide) (by decide)
  have hcall : call.CastsHaveTypes C.options :=
    .intro nofun (List.forall_mem_singleton.2 (.intro nofun nofun))
  have hnarrowed : narrowed.CastsHaveTypes C.options :=
    .intro nofun (List.forall_mem_singleton.2 (.intro (List.forall_mem_singleton.2 rfl) nofun))
  have hcasts : e.CastsHaveTypes C.options :=
    .intro nofun (List.forall_mem_cons.2 ⟨hcall, List.forall_mem_singleton.2 hnarrowed⟩)
  have h := isMissing_typeOf hnames
  have htype : (C.typeOf e).outcome = .ok (.union [.any, .string]) := rfl
  have hconstruct : (C.extract point site).outcome = .ok point := rfl
  exact ⟨hnames, hcasts, ⟨_, htype, h.1 e hcasts _ htype⟩, hconstruct, h.2 _ _ _ hconstruct⟩

end Checker

end StructuralTyping
