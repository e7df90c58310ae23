import StructuralTyping.Proofs.Assign.Positions
import StructuralTyping.Proofs.Coincidence

/-!
# Inference does not depend on positions

Two expressions that differ only in their spans have the same type, or fail with trees of
diagnostics that say the same (`Checker.typeOf_congr_unplaced`).

An expression is compared with itself without positions.  The two programs of a step stay
in step (`Inference.InStep`): they ask the same question up to positions, they check the
same assignment at their own positions, and they go on in step after answers that agree.
What they branch on has no positions: the shape of the syntax, the types that were found,
and whether an attempt succeeded.  Records are left out, since they hold the expressions
themselves.
-/

namespace StructuralTyping

/-! ## Questions without positions -/

/-- The call without positions. -/
def CallSite.unplaced (site : CallSite) : CallSite :=
  ⟨site.isNew, Expr.allUnplaced site.args, site.typeArgs, Span.none⟩

/-- The question without positions. -/
def Question.unplaced : Question → Question
  | .typeOf e => .typeOf e.unplaced
  | .extract callee site => .extract callee site.unplaced
  | .extractMember object key site => .extractMember object key site.unplaced

namespace CallSite

@[simp] theorem isNew_unplaced (site : CallSite) : site.unplaced.isNew = site.isNew := rfl

@[simp] theorem typeArgs_unplaced (site : CallSite) : site.unplaced.typeArgs = site.typeArgs := rfl

@[simp] theorem args_unplaced (site : CallSite) :
    site.unplaced.args = Expr.allUnplaced site.args := rfl

end CallSite

@[simp] theorem Question.isMissing_unplaced (q : Question) :
    q.unplaced.isMissing = q.isMissing := by
  cases q with
  | typeOf e => exact e.isMissing_unplaced
  | extract | extractMember => rfl

/-! ## Programs in step -/

namespace Inference

/-- Two programs in step.  The second one asks without positions.  Their results are
related by `V`, or they fail alike. -/
inductive InStep (V : α → α → Prop) : Inference α → Inference α → Prop where
  | done {r r' : Except Diagnostic α} (h : Agree Diagnostic.Alike V r r') :
      InStep V (.done r) (.done r')
  | record {r r' : TraceRecord} {m m' : Inference α} (h : InStep V m m') :
      InStep V (.record r m) (.record r' m')
  | question {q : Question} {next next' : Except Diagnostic Ty → Inference α}
      (h : ∀ a a', SameReport a a' → InStep V (next a) (next' a')) :
      InStep V (.question q next) (.question q.unplaced next')
  | assignment {target source : Ty} {span span' : Span}
      {next next' : Except Diagnostic Unit → Inference α}
      (h : ∀ a a', SameReport a a' → InStep V (next a) (next' a')) :
      InStep V (.assignment target source span next) (.assignment target source span' next')

/-- Two programs in step with the same result. -/
abbrev Tracks (m m' : Inference α) : Prop := InStep Eq m m'

namespace InStep

variable {V : α → α → Prop} {W : β → β → Prop} {m m' : Inference α}

theorem andThen (h : InStep V m m') {f f' : Except Diagnostic α → Inference β}
    (hf : ∀ r r', Agree Diagnostic.Alike V r r' → InStep W (f r) (f' r')) :
    InStep W (m.andThen f) (m'.andThen f') := by
  induction h with
  | done h => exact hf _ _ h
  | record _ ih => exact .record ih
  | question _ ih => exact .question ih
  | assignment _ ih => exact .assignment ih

theorem bind_of (h : InStep V m m') {f f' : α → Inference β}
    (hf : ∀ a a', V a a' → InStep W (f a) (f' a')) : InStep W (m >>= f) (m' >>= f') := by
  refine h.andThen fun r r' hr => ?_
  cases hr with
  | ok h => exact hf _ _ h
  | error h => exact .done (.error h)

/-- The outcome of an attempt as a value. -/
theorem attempt (h : InStep V m m') : InStep (Agree Diagnostic.Alike V) m.attempt m'.attempt :=
  h.andThen fun _ _ hr => .done (.ok hr)

theorem pure (a : α) : Tracks (Inference.pure a) (Inference.pure a) := .done (.ok rfl)

theorem fail {d d' : Diagnostic} (h : d.Alike d') :
    Tracks (Inference.fail d : Inference α) (Inference.fail d') :=
  .done (.error h)

theorem ofExcept {r r' : Except Diagnostic α} (h : SameReport r r') :
    Tracks (Inference.ofExcept r) (Inference.ofExcept r') := .done h

theorem ask (q : Question) : Tracks (Inference.ask q) (Inference.ask q.unplaced) :=
  .question fun _ _ h => .done h

theorem assign (target source : Ty) (span span' : Span) :
    Tracks (Inference.assign target source span) (Inference.assign target source span') :=
  .assignment fun _ _ h => .done h

theorem bind (h : Tracks m m') {f f' : α → Inference β} (hf : ∀ a, Tracks (f a) (f' a)) :
    Tracks (m >>= f) (m' >>= f') :=
  h.bind_of fun a _ ha => ha ▸ hf a

/-- A test that is the same may come first. -/
theorem ite (c : Prop) [Decidable c] {n n' : Inference α} (h : InStep V m m') (h' : InStep V n n') :
    InStep V (if c then m else n) (if c then m' else n') := by
  split
  · exact h
  · exact h'

/-- The reasons of all attempts agree when none succeeds. -/
theorem firstSuccess {f f' : α → Inference β} {xs : List α} (h : ∀ x ∈ xs, Tracks (f x) (f' x)) :
    InStep (Agree Diagnostic.AllAlike Eq) (Inference.firstSuccess f xs)
      (Inference.firstSuccess f' xs) := by
  induction xs with
  | nil => exact .done (.ok (.error rfl))
  | cons x xs ih =>
    refine (InStep.attempt (h x (.head _))).bind_of fun r r' hr => ?_
    cases hr with
    | ok ht => exact .done (.ok (.ok ht))
    | error hd =>
      refine (ih fun y hy => h y (.tail _ hy)).bind_of fun r r' hr => ?_
      cases hr with
      | ok ht => exact .done (.ok (.ok ht))
      | error hds => exact .done (.ok (.error (.cons hd hds)))

/-- Programs in step lead to outcomes that agree when their answers do. -/
theorem run_agree (h : InStep V m m') {ask : Question → Infer Ty}
    {assign : Ty → Ty → Span → Infer Unit}
    (hask : ∀ q, SameReport (ask q).outcome (ask q.unplaced).outcome)
    (hassign : ∀ target source span span',
      SameReport (assign target source span).outcome (assign target source span').outcome) :
    Agree Diagnostic.Alike V (m.run ask assign).outcome (m'.run ask assign).outcome := by
  induction h with
  | done h => exact h
  | record _ ih => exact ih
  | question _ ih => exact ih _ _ (hask _)
  | assignment _ ih => exact ih _ _ (hassign _ _ _ _)

end InStep

end Inference

/-! ## Keys and patterns -/

theorem propKey_agree (D : Decls) (key : Expr) (computed : Bool) :
    SameReport (propKey D key computed) (propKey D key.unplaced computed) := by
  obtain ⟨span, node⟩ := key
  have htext : (Expr.unplaced ⟨span, node⟩).text D = Expr.text D ⟨span, node⟩ :=
    Expr.text_unplaced D _
  unfold propKey
  rw [htext]
  cases node <;> cases computed <;> first | exact .ok rfl | exact .error rfl

theorem accessKey_agree (D : Decls) (index : Expr) :
    SameReport (accessKey D index) (accessKey D index.unplaced) := by
  rw [accessKey_eq_propKey, accessKey_eq_propKey]
  exact propKey_agree D index true

mutual

/-- The pattern of a binding target. -/
theorem Binding.toPattern_agree (D : Decls) (isOptional : Bool) :
    ∀ b : Binding, SameReport (b.toPattern D isOptional) (b.unplaced.toPattern D isOptional)
  | ⟨_, node⟩ => node.toPattern_agree D isOptional
termination_by structural b => b

theorem BindingNode.toPattern_agree (D : Decls) (isOptional : Bool) :
    ∀ b : BindingNode, SameReport (b.toPattern D isOptional) (b.unplaced.toPattern D isOptional)
  | .missing => .error rfl
  | .ident _ => .ok rfl
  | .withDefault b _ => b.toPattern_agree D true
  | .rest b => (b.toPattern_agree D false).map _
  | .array bs => (Binding.toPatterns_agree D bs).map _
  | .object entries remaining => by
    have hremaining := remaining.toPattern_agree D false
    simp only [BindingNode.toPattern, BindingNode.unplaced, Binding.isMissing_unplaced]
    exact (BindingEntry.toPatterns_agree D entries).bind fun es =>
      .ite _ (.ok rfl) (hremaining.bind fun _ => .ok rfl)
termination_by structural b => b

theorem Binding.toPatterns_agree (D : Decls) :
    ∀ bs : List Binding,
      SameReport (Binding.toPatterns D bs) (Binding.toPatterns D (Binding.allUnplaced bs))
  | [] => .ok rfl
  | b :: bs => by
    have hbs := Binding.toPatterns_agree D bs
    simp only [Binding.toPatterns, Binding.allUnplaced, Binding.isMissing_unplaced]
    exact .ite _ (hbs.bind fun _ => .ok rfl)
      ((b.toPattern_agree D false).bind fun _ => hbs.bind fun _ => .ok rfl)
termination_by structural bs => bs

theorem BindingEntry.toPatterns_agree (D : Decls) :
    ∀ es : List BindingEntry,
      SameReport (BindingEntry.toPatterns D es)
        (BindingEntry.toPatterns D (BindingEntry.allUnplaced es))
  | [] => .ok rfl
  | e :: es => (e.toPattern_agree D).bind fun _ =>
      (BindingEntry.toPatterns_agree D es).bind fun _ => .ok rfl
termination_by structural es => es

theorem BindingEntry.toPattern_agree (D : Decls) :
    ∀ e : BindingEntry,
      SameReport (BindingEntry.toPattern D e) (BindingEntry.toPattern D e.unplaced)
  | ⟨key, value, computed⟩ =>
    (propKey_agree D key computed).bind fun _ =>
    (value.toPattern_agree D false).bind fun _ => .ok rfl
termination_by structural e => e

end

theorem signatureParams_agree (D : Decls) (ps : List Parameter) :
    SameReport (signatureParams D ps) (signatureParams D (Parameter.allUnplaced ps)) := by
  induction ps with
  | nil => exact .ok rfl
  | cons p ps ih =>
    obtain ⟨span, pattern, type, isOptional, accessibility, isReadonly⟩ := p
    exact (pattern.toPattern_agree D isOptional).bind fun _ => ih.bind fun _ => .ok rfl

namespace Checker

open Inference (InStep Tracks)

variable {C : Checker}

theorem tracks_unsupported (span span' : Span) (shape : Unsupported) :
    Tracks (unsupported span shape : Inference α) (unsupported span' shape) := .fail rfl

/-! ## Calls -/

theorem alike_noSignature (site : CallSite) (callee : Ty) :
    (noSignature site callee).Alike (noSignature site.unplaced callee) := by
  unfold noSignature CallSite.unplaced
  cases site.isNew <;> rfl

theorem tracks_firstBranch (site : CallSite) (callee : Ty) {f f' : Ty → Inference Ty} (bs : List Ty)
    (hf : ∀ b, Tracks (f b) (f' b)) :
    Tracks (firstBranch site callee f bs) (firstBranch site.unplaced callee f' bs) := by
  refine InStep.bind_of (InStep.firstSuccess fun b _ => hf b) fun r r' hr => ?_
  cases hr with
  | ok ht => exact ht ▸ .pure _
  | @error ds ds' hds =>
    match ds, ds', hds with
    | [], [], _ => exact .fail (alike_noSignature site callee)
    | _ :: _, _ :: _, hds => exact .fail (congrArg (Diagnostic.unionFailed Span.none) hds)

theorem tracks_someBranch (site : CallSite) (callee : Ty) {f f' : Ty → Inference Ty} (bs : List Ty)
    (hf : ∀ b, Tracks (f b) (f' b)) :
    Tracks (someBranch site callee f bs) (someBranch site.unplaced callee f' bs) := by
  refine InStep.bind_of (InStep.firstSuccess fun b _ => hf b) fun r r' hr => ?_
  cases hr with
  | ok ht => exact ht ▸ .pure _
  | error _ => exact .fail (alike_noSignature site callee)

theorem alike_wrongParams (s : Signature) (actual : Nat) (span span' : Span) :
    (wrongParams s actual span).Alike (wrongParams s actual span') := rfl

theorem tracks_checkArguments (s : Signature) (site : CallSite) (i : Nat) (args : List Expr) :
    Tracks (C.checkArguments s site i args)
      (C.checkArguments s site.unplaced i (Expr.allUnplaced args)) := by
  induction args generalizing i with
  | nil => exact .pure _
  | cons arg args ih =>
    simp only [checkArguments, Expr.allUnplaced, Expr.isSpread_unplaced]
    split
    · exact .pure _
    · cases paramType? C.decls s i with
      | none =>
        rw [CallSite.args_unplaced, Expr.length_allUnplaced]
        exact .fail (alike_wrongParams s _ _ _)
      | some t =>
        refine (InStep.ask (.typeOf arg)).bind fun found => ?_
        split
        · exact (InStep.assign t found _ _).bind fun _ => ih _
        · exact ih _

theorem tracks_instantiate (s : Signature) (site : CallSite) :
    Tracks (C.instantiate s site) (C.instantiate s site.unplaced) := by
  simp only [instantiate, CallSite.typeArgs_unplaced, CallSite.args_unplaced,
    Expr.length_allUnplaced]
  split
  · exact .fail rfl
  · split
    · exact .fail (alike_wrongParams s _ _ _)
    · split
      · exact (tracks_checkArguments s site 0 site.args).bind fun _ => .pure _
      · exact .pure _

theorem tracks_pickSignature (sigs : List Signature) (callee : Ty) (site : CallSite) :
    Tracks (C.pickSignature sigs callee site) (C.pickSignature sigs callee site.unplaced) := by
  unfold pickSignature
  rw [CallSite.args_unplaced, Expr.length_allUnplaced]
  split
  · exact .fail (alike_noSignature site callee)
  · exact tracks_instantiate _ site
  · split
    · exact tracks_instantiate _ site
    · exact tracks_unsupported _ _ _
    · refine InStep.bind_of (InStep.firstSuccess fun s _ => tracks_instantiate s site)
        fun r r' hr => ?_
      cases hr with
      | ok ht => exact ht ▸ .pure _
      | error _ => exact .fail (alike_noSignature site callee)

theorem tracks_extract (callee : Ty) (site : CallSite) :
    Tracks (.ask (.extract callee site)) (.ask (.extract callee site.unplaced)) :=
  .ask (.extract callee site)

theorem tracks_extractMember (object : Ty) (key : PropKey) (site : CallSite) :
    Tracks (.ask (.extractMember object key site))
      (.ask (.extractMember object key site.unplaced)) :=
  .ask (.extractMember object key site)

theorem tracks_noSignature (callee : Ty) (site : CallSite) :
    Tracks (.fail (noSignature site callee) : Inference Ty)
      (.fail (noSignature site.unplaced callee)) :=
  .fail (alike_noSignature site callee)

theorem tracks_extractStep (callee : Ty) (site : CallSite) :
    Tracks (C.extractStep callee site) (C.extractStep callee site.unplaced) := by
  unfold extractStep
  split
  · exact (tracks_pickSignature _ callee site).bind fun t => .pure _
  · split
    · exact .ite _ (tracks_noSignature callee site)
        ((tracks_instantiate _ site).bind fun t => .pure _)
    · exact .ite _ ((tracks_instantiate _ site).bind fun t => .pure _)
        (tracks_noSignature callee site)
    · exact tracks_firstBranch site callee _ fun b => tracks_extract b site
    · exact tracks_someBranch site callee _ fun b => tracks_extract b site
    · split
      · exact tracks_noSignature callee site
      · exact tracks_extract _ site
    · split
      · exact .pure _
      · exact tracks_noSignature callee site

theorem tracks_extractMemberStep (object : Ty) (key : PropKey) (site : CallSite) :
    Tracks (C.extractMemberStep object key site)
      (C.extractMemberStep object key site.unplaced) := by
  simp only [extractMemberStep, CallSite.isNew_unplaced]
  split
  · split
    · split
      · exact .pure _
      · exact tracks_extract _ site
    · exact (tracks_pickSignature _ _ site).bind fun t => .pure _
  · split
    · exact tracks_firstBranch site _ _ fun b => tracks_extractMember b key site
    · exact tracks_someBranch site _ _ fun b => tracks_extractMember b key site
    · split
      · exact tracks_noSignature _ site
      · exact tracks_extractMember _ key site
    · split
      · exact .pure _
      · split
        · exact tracks_unsupported _ _ _
        · exact tracks_noSignature _ site

/-- A member of a value is resolved by its key, which may be computed. -/
theorem tracks_calleeResult (callee : Expr) (site : CallSite) :
    Tracks (C.calleeResult callee site) (C.calleeResult callee.unplaced site.unplaced) := by
  have hother : Tracks (do let t ← .ask (.typeOf callee); .ask (.extract t site))
      (do let t ← .ask (.typeOf callee.unplaced); .ask (.extract t site.unplaced)) :=
    (InStep.ask (.typeOf callee)).bind fun t => tracks_extract t site
  obtain ⟨span, node⟩ := callee
  cases node with
  | member o p =>
    obtain ⟨objectSpan, form⟩ := o
    cases form with
    | super => exact .pure _
    | _ =>
      exact (InStep.ask (.typeOf ⟨objectSpan, _⟩)).bind fun t =>
        tracks_extractMember t ⟨p, false⟩ site
  | index o i =>
    exact (InStep.ask (.typeOf o)).bind fun t =>
      (InStep.ofExcept (accessKey_agree C.decls i)).bind fun key => tracks_extractMember t key site
  | _ => exact hother

theorem tracks_requireType (args : List Expr) (span : Span) :
    Tracks (C.requireType args span) (C.requireType (Expr.allUnplaced args) Span.none) := by
  match args with
  | [] => exact tracks_unsupported _ _ _
  | ⟨argSpan, node⟩ :: args =>
    cases node with
    | string s =>
      simp only [requireType, Expr.allUnplaced, Expr.unplaced, ExprNode.unplaced]
      split
      · exact tracks_unsupported _ _ _
      · exact .fail rfl
    | _ => exact tracks_unsupported _ _ _

theorem tracks_callType (callee : Expr) (site : CallSite) :
    Tracks (C.callType callee site) (C.callType callee.unplaced site.unplaced) := by
  have hother := tracks_calleeResult (C := C) callee site
  obtain ⟨span, node⟩ := callee
  cases node with
  | super => exact .pure _
  | ident name =>
    simp only [callType, Expr.unplaced, ExprNode.unplaced]
    split
    · next heq => cases heq
    · exact tracks_requireType site.args site.span
    · exact hother
  | _ => exact hother

/-! ## Names, literals and operators -/

theorem tracks_expandExport (D : Decls) (x : Export) (span span' : Span) :
    Tracks (expandExport D x span) (expandExport D x span') := by
  unfold expandExport
  split
  · exact .pure _
  · split
    · exact .pure _
    · exact .pure _
    · exact .pure _
    · exact tracks_unsupported _ _ _
    · exact tracks_unsupported _ _ _

theorem tracks_identType (name : String) (span span' : Span) :
    Tracks (C.identType name span) (C.identType name span') := by
  unfold identType
  split
  · exact tracks_unsupported _ _ _
  · split
    · exact .pure _
    · split
      · exact tracks_expandExport _ _ _ _
      · split
        · exact tracks_expandExport _ _ _ _
        · split
          · exact .pure _
          · exact .fail rfl

theorem tracks_regexType (pattern flags : String) (span span' : Span) :
    Tracks (regexType pattern flags span) (regexType pattern flags span') := by
  unfold regexType
  split
  · exact tracks_unsupported _ _ _
  · split
    · exact tracks_unsupported _ _ _
    · exact .pure _

theorem tracks_elementTypes (kept : List Ty) (es : List Expr) :
    Tracks (C.elementTypes kept es) (C.elementTypes kept (Expr.allUnplaced es)) := by
  induction es generalizing kept with
  | nil => exact .pure _
  | cons e es ih =>
    simp only [elementTypes, Expr.allUnplaced, Expr.isMissing_unplaced, Expr.isSpread_unplaced]
    split
    · exact ih _
    · split
      · exact tracks_unsupported _ _ _
      · exact (InStep.ask (.typeOf e)).bind fun t => ih _

theorem tracks_arrayType (es : List Expr) :
    Tracks (C.arrayType es) (C.arrayType (Expr.allUnplaced es)) := by
  refine (tracks_elementTypes [] es).bind fun ts => ?_
  match ts with
  | [] => exact .pure _
  | [t] => exact .pure _
  | t :: u :: ts => exact .pure _

theorem tracks_entryTypes (span span' : Span) (kept : List (PropKey × Ty)) (es : List ObjectEntry) :
    Tracks (C.entryTypes span kept es) (C.entryTypes span' kept (ObjectEntry.allUnplaced es)) := by
  induction es generalizing kept with
  | nil => exact .pure _
  | cons e es ih =>
    obtain ⟨key, value, computed, shorthand⟩ := e
    simp only [entryTypes, ObjectEntry.allUnplaced, ObjectEntry.unplaced, Expr.isMissing_unplaced]
    split
    · exact tracks_unsupported _ _ _
    · refine (InStep.ofExcept (propKey_agree C.decls key computed)).bind fun k => ?_
      exact (InStep.ask (.typeOf value)).bind fun t => ih _

theorem tracks_objectType (span span' : Span) (es : List ObjectEntry) :
    Tracks (C.objectType span es) (C.objectType span' (ObjectEntry.allUnplaced es)) :=
  (tracks_entryTypes span span' [] es).bind fun _ => .pure _

theorem tracks_unaryType (span span' : Span) (operator : String) (operand : Expr) :
    Tracks (C.unaryType span operator operand) (C.unaryType span' operator operand.unplaced) := by
  unfold unaryType
  split
  · exact (InStep.ask (.typeOf operand)).bind fun t => .pure _
  · obtain ⟨operandSpan, node⟩ := operand
    cases node <;> exact .pure _
  · exact .pure _
  · exact .pure _
  · exact .pure _
  · exact tracks_unsupported _ _ _

theorem tracks_binaryType (span span' : Span) (left : Expr) (operator : String) (right : Expr) :
    Tracks (C.binaryType span left operator right)
      (C.binaryType span' left.unplaced operator right.unplaced) := by
  unfold binaryType
  split
  · exact .ask (.typeOf right)
  · split
    · exact (InStep.ask (.typeOf left)).bind fun l =>
        (InStep.ask (.typeOf right)).bind fun r => .pure _
    · split
      · exact .pure _
      · split
        · exact .pure _
        · exact tracks_unsupported _ _ _

theorem tracks_sequenceType (span span' : Span) (es : List Expr) :
    Tracks (sequenceType span es) (sequenceType span' (Expr.allUnplaced es)) := by
  fun_induction sequenceType span es with
  | case1 => exact tracks_unsupported _ _ _
  | case2 e => exact .ask (.typeOf e)
  | case3 e es hne ih =>
    cases es with
    | nil => exact absurd rfl hne
    | cons e' es => exact (InStep.ask (.typeOf e)).bind fun _ => ih

/-! ## Functions and classes -/

theorem tracks_returnTypes (es : List Expr) :
    Tracks (returnTypes es) (returnTypes (Expr.allUnplaced es)) := by
  induction es with
  | nil => exact .pure _
  | cons e es ih =>
    have he : Tracks (if e.isMissing then .pure .undefined else .ask (.typeOf e))
        (if e.unplaced.isMissing then .pure .undefined else .ask (.typeOf e.unplaced)) := by
      rw [Expr.isMissing_unplaced]
      split
      · exact .pure _
      · exact .ask (.typeOf e)
    exact he.bind fun t => ih.bind fun ts => .pure _

theorem tracks_inferResult (f : Func) : Tracks (C.inferResult f) (C.inferResult f.unplaced) := by
  obtain ⟨span, name, typeParams, params, result, body, isAsync, isGenerator⟩ := f
  simp only [inferResult, Func.unplaced, Stmt.isMissing_unplaced, Stmt.returns_unplaced,
    Returns.unplaced]
  split
  · exact tracks_unsupported _ _ _
  · refine (tracks_returnTypes body.returns.values).bind fun ts => ?_
    rcases ts with _ | ⟨t, _ | ⟨u, ts⟩⟩
    · exact .pure _
    · exact .pure _
    · exact .pure _

theorem tracks_functionType (f : Func) : Tracks (C.functionType f) (C.functionType f.unplaced) := by
  have hresult := tracks_inferResult (C := C) f
  obtain ⟨span, name, typeParams, params, result, body, isAsync, isGenerator⟩ := f
  simp only [functionType, Func.unplaced]
  refine .ite _ (tracks_unsupported _ _ _) ?_
  refine (InStep.ofExcept (signatureParams_agree C.decls params)).bind fun params => ?_
  exact .ite _ (hresult.bind fun result => .pure _) ((InStep.pure _).bind fun result => .pure _)

theorem isPrivate_unplaced (key : Expr) : isPrivate key.unplaced = isPrivate key := by
  obtain ⟨span, node⟩ := key
  cases node <;> rfl

theorem parameterProperties_unplaced (ps : List Parameter) :
    parameterProperties (Parameter.allUnplaced ps) = parameterProperties ps := by
  induction ps with
  | nil => rfl
  | cons p ps ih =>
    obtain ⟨span, ⟨patternSpan, node⟩, type, isOptional, accessibility, isReadonly⟩ := p
    simp only [parameterProperties, Parameter.allUnplaced, Parameter.unplaced, Binding.unplaced,
      Parameter.isProperty, List.filterMap_cons] at ih ⊢
    rw [ih]
    cases !accessibility.isEmpty || isReadonly with
    | false => cases node <;> rfl
    | true =>
      cases node with
      | withDefault b e =>
        obtain ⟨targetSpan, target⟩ := b
        cases target <;> rfl
      | _ => rfl

theorem tracks_skip (m m' : ClassMember) :
    Tracks (do Inference.note (.memberSkipped m); return ([] : List Member))
      (do Inference.note (.memberSkipped m'); return []) :=
  InStep.bind (.record (.pure _)) fun _ => .pure _

theorem tracks_classMembers (m : ClassMember) :
    Tracks (C.classMembers m) (C.classMembers m.unplaced) := by
  cases m with
  | property span key computed type value isOptional isReadonly isStatic =>
    simp only [classMembers, ClassMember.unplaced, isPrivate_unplaced, Expr.isMissing_unplaced]
    refine .ite _ (tracks_skip _ _) ?_
    refine (InStep.ofExcept (propKey_agree C.decls key computed)).bind fun k => ?_
    exact .ite _ ((InStep.ask (.typeOf value)).bind fun t => .pure _)
      ((InStep.pure _).bind fun t => .pure _)
  | method span kind key computed f isStatic =>
    obtain ⟨functionSpan, name, typeParams, params, result, body, isAsync, isGenerator⟩ := f
    cases kind with
    | constructor =>
      refine (InStep.ofExcept (signatureParams_agree C.decls params)).bind fun ps => ?_
      simp only [Func.unplaced, parameterProperties_unplaced]
      exact .pure _
    | _ => exact tracks_skip _ _
  | index span signature => exact tracks_skip _ _

theorem any_isConstructor_unplaced (ms : List ClassMember) :
    (ClassMember.allUnplaced ms).any isConstructor = ms.any isConstructor := by
  induction ms with
  | nil => rfl
  | cons m ms ih =>
    have hm : isConstructor m.unplaced = isConstructor m := by
      cases m with
      | method span kind => cases kind <;> rfl
      | property | index => rfl
    rw [ClassMember.allUnplaced, List.any_cons, List.any_cons, hm, ih]

theorem tracks_memberShapes (ms : List ClassMember) :
    Tracks (Inference.mapList C.classMembers ms)
      (Inference.mapList C.classMembers (ClassMember.allUnplaced ms)) := by
  induction ms with
  | nil => exact .pure _
  | cons m ms ih => exact (tracks_classMembers m).bind fun x => ih.bind fun xs => .pure _

theorem tracks_classType (c : ClassDef) : Tracks (C.classType c) (C.classType c.unplaced) := by
  obtain ⟨span, name, base, members⟩ := c
  simp only [classType, ClassDef.unplaced, any_isConstructor_unplaced]
  exact (tracks_memberShapes members).bind fun ms => .pure _

/-! ## The questions answered -/

theorem tracks_typeOfStep (e : Expr) : Tracks (C.typeOfStep e) (C.typeOfStep e.unplaced) := by
  obtain ⟨span, node⟩ := e
  cases node with
  | ident name => exact tracks_identType name span Span.none
  | regex pattern flags => exact tracks_regexType pattern flags span Span.none
  | array es => exact tracks_arrayType es
  | object es => exact tracks_objectType span Span.none es
  | paren inner => exact .ask (.typeOf inner)
  | unary operator operand => exact tracks_unaryType span Span.none operator operand
  | binary l operator r => exact tracks_binaryType span Span.none l operator r
  | ternary c a b =>
    exact (InStep.ask (.typeOf a)).bind fun s => (InStep.ask (.typeOf b)).bind fun t => .pure _
  | assign operator target value => exact .ask (.typeOf value)
  | sequence es => exact tracks_sequenceType span Span.none es
  | call f ts args => exact tracks_callType f ⟨false, args, ts, span⟩
  | construct f ts args => exact tracks_calleeResult f ⟨true, args, ts, span⟩
  | member o p =>
    obtain ⟨objectSpan, form⟩ := o
    cases form with
    | super => exact .pure _
    | _ => exact (InStep.ask (.typeOf ⟨objectSpan, _⟩)).bind fun t => .pure _
  | index o i =>
    exact (InStep.ask (.typeOf o)).bind fun s => (InStep.ask (.typeOf i)).bind fun t => .pure _
  | nonNull inner => exact (InStep.ask (.typeOf inner)).bind fun t => .pure _
  | function f => exact tracks_functionType f
  | classExpr c => exact tracks_classType c
  | bool | number | string | null | template | this | typeOf | void | update | assertion | cast =>
    exact .pure _
  | missing | super | spread | await | yield | metaProperty | arrow =>
    exact tracks_unsupported _ _ _

/-- The programs that answer a question with and without positions stay in step. -/
theorem tracks_step (q : Question) : Tracks (C.step q) (C.step q.unplaced) := by
  cases q with
  | typeOf e => exact (tracks_typeOfStep e).andThen fun r r' hr => .record (.done hr)
  | extract callee site => exact tracks_extractStep callee site
  | extractMember object key site => exact tracks_extractMemberStep object key site

theorem refusal_agree (q : Question) :
    SameReport (refusal q).outcome (refusal q.unplaced).outcome := by
  rw [refusal, refusal, Question.isMissing_unplaced]
  split <;> exact .error rfl

theorem assignment_agree (target source : Ty) (span span' : Span) :
    SameReport (C.assignment target source span).outcome
      (C.assignment target source span').outcome := by
  rw [assignment, assignment]
  obtain ⟨_, hok, hok'⟩ | ⟨d, d', herror, herror', hd⟩ :=
    (C.decls.assign_agree C.options.maxDepth target source span span').inv
  · rw [hok, hok']
    exact .ok rfl
  · rw [herror, herror']
    exact .error hd

theorem answer_agree (levels : Nat) (q : Question) :
    SameReport (C.answer levels q).outcome (C.answer levels q.unplaced).outcome := by
  induction levels generalizing q with
  | zero => exact refusal_agree q
  | succ levels ih =>
    rw [answer, answer, Question.isMissing_unplaced]
    split
    · exact refusal_agree q
    · exact (tracks_step q).run_agree ih assignment_agree

theorem typeOf_agree_unplaced (C : Checker) (e : Expr) :
    SameReport (C.typeOf e).outcome (C.typeOf e.unplaced).outcome := by
  rw [typeOf_eq_answer, typeOf_eq_answer]
  exact answer_agree _ (.typeOf e)

/-- Positions never influence inference.  Expressions that differ only in their spans have
the same type, or they fail with trees of diagnostics of the same shape, with the same kind
and the same message at each node. -/
theorem typeOf_congr_unplaced (C : Checker) {e e' : Expr} (h : e.unplaced = e'.unplaced) :
    (C.typeOf e).outcome.mapError (·.wording C.decls) =
      (C.typeOf e').outcome.mapError (·.wording C.decls) := by
  have he := (C.typeOf_agree_unplaced e).mapError_wording C.decls
  have he' := (C.typeOf_agree_unplaced e').mapError_wording C.decls
  rw [he, h, he']

/-- The call `f("a")` on two lines.  It fails on both, each time at its own argument, and the
failures say the same. -/
theorem typeOf_congr_unplaced_call :
    let signature : Signature := .mk [] [⟨.ident "x" false, .number⟩] .number
    let C : Checker :=
      ⟨{}, (({} : Environment).define "f" (.function signature)).scope, { checkArguments := true }⟩
    let call (line : Int) : Expr :=
      ⟨⟨none, line, 1, 0, 6⟩, .call ⟨⟨none, line, 1, 0, 1⟩, .ident "f"⟩ []
        [⟨⟨none, line, 3, 2, 5⟩, .string "a"⟩]⟩
    let failure (line : Int) : Diagnostic :=
      .assignFailed ⟨none, line, 3, 2, 5⟩ .number (.literal (.string "a")) []
    (call 1).unplaced = (call 2).unplaced ∧ (C.typeOf (call 1)).outcome = .error (failure 1) ∧
      (C.typeOf (call 2)).outcome = .error (failure 2) ∧
      (C.typeOf (call 1)).outcome.mapError (·.wording C.decls) =
        (C.typeOf (call 2)).outcome.mapError (·.wording C.decls) :=
  ⟨rfl, rfl, rfl, typeOf_congr_unplaced _ rfl⟩

end Checker

end StructuralTyping
