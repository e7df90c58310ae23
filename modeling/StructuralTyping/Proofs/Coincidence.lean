import StructuralTyping.Proofs.Reads
import StructuralTyping.Proofs.Session

/-!
# Inference depends on the names it reads

Two scopes that agree on the names that are read give an expression the same type, or the
same failure (`Checker.typeOf_congr_of_reads`).  It is enough that they agree on the names
that it mentions (`Checker.typeOf_congr`).

A name is looked up in two places only: the type of an identifier, and a call of `require`
with a string.  Everything else asks about parts.  So the programs of two checkers that
differ in their scopes are compared question by question: they ask the same questions, and
each question is about parts of the one above (`Inference.Alike`).  The rest is an
induction on the levels that are left.
-/

namespace StructuralTyping

/-! ## Programs that ask alike -/

namespace Inference

/-- Two programs ask the same questions, all of them of a given kind, check the same
assignments, leave the same records and end with the same outcome. -/
inductive Alike (P : Question → Prop) : Inference α → Inference α → Prop where
  | done (r : Except Diagnostic α) : Alike P (.done r) (.done r)
  | record {r : TraceRecord} {m m' : Inference α} (h : Alike P m m') :
      Alike P (.record r m) (.record r m')
  | question {q : Question} {next next' : Except Diagnostic Ty → Inference α} (hq : P q)
      (h : ∀ a, Alike P (next a) (next' a)) : Alike P (.question q next) (.question q next')
  | assignment {target source : Ty} {span : Span}
      {next next' : Except Diagnostic Unit → Inference α} (h : ∀ a, Alike P (next a) (next' a)) :
      Alike P (.assignment target source span next) (.assignment target source span next')

namespace Alike

variable {P : Question → Prop} {m m' : Inference α}

theorem pure (a : α) : Alike P (Inference.pure a) (Inference.pure a) := .done _

theorem fail (d : Diagnostic) : Alike P (Inference.fail d : Inference α) (Inference.fail d) :=
  .done _

theorem ask {q : Question} (hq : P q) : Alike P (Inference.ask q) (Inference.ask q) :=
  .question hq .done

theorem andThen (h : Alike P m m') {f f' : Except Diagnostic α → Inference β}
    (hf : ∀ r, Alike P (f r) (f' r)) :
    Alike P (m.andThen f) (m'.andThen f') := by
  induction h with
  | done r => exact hf r
  | record _ ih => exact .record ih
  | question hq _ ih => exact .question hq ih
  | assignment _ ih => exact .assignment ih

theorem bind (h : Alike P m m') {f f' : α → Inference β} (hf : ∀ a, Alike P (f a) (f' a)) :
    Alike P (m >>= f) (m' >>= f') := by
  refine h.andThen fun r => ?_
  cases r with
  | ok a => exact hf a
  | error d => exact .fail d

theorem mapList {f f' : α → Inference β} {xs : List α} (h : ∀ x ∈ xs, Alike P (f x) (f' x)) :
    Alike P (Inference.mapList f xs) (Inference.mapList f' xs) := by
  induction xs with
  | nil => exact .pure _
  | cons x xs ih =>
    exact (h x (.head _)).bind fun y => (ih fun z hz => h z (.tail _ hz)).bind fun ys => .pure _

theorem firstSuccess {f f' : α → Inference β} {xs : List α} (h : ∀ x ∈ xs, Alike P (f x) (f' x)) :
    Alike P (Inference.firstSuccess f xs) (Inference.firstSuccess f' xs) := by
  induction xs with
  | nil => exact .pure _
  | cons x xs ih =>
    refine ((h x (.head _)).andThen fun r => .pure r).bind fun r => ?_
    cases r with
    | ok b => exact .pure _
    | error d =>
      refine (ih fun z hz => h z (.tail _ hz)).bind fun r => ?_
      cases r <;> exact .pure _

/-- Programs that ask alike run alike on answers that are the same where they ask. -/
theorem run_eq (h : Alike P m m') {ask ask' : Question → Infer Ty}
    (hask : ∀ q, P q → ask q = ask' q)
    (assign : Ty → Ty → Span → Infer Unit) : m.run ask assign = m'.run ask' assign := by
  induction h with
  | done r => rfl
  | record _ ih => rw [run, run, ih]
  | question hq _ ih => rw [run, run, hask _ hq, ih]
  | assignment _ ih => simp only [run, ih]

end Alike

end Inference

/-! ## Scopes that agree -/

/-- The names in a question. -/
def Question.names : Question → List String
  | .typeOf e => e.names
  | .extract _ site | .extractMember _ _ site => Expr.namesOf site.args

/-- Two scopes say the same about some names. -/
def Scope.AgreeOn (names : List String) (S S' : Scope) : Prop :=
  ∀ name ∈ names,
    S.var? name = S'.var? name ∧ S.imported? name = S'.imported? name ∧ S.type? name = S'.type? name

namespace Checker

open Inference (Alike)

variable {D : Decls} {S S' : Scope} {o : Options} {P : Expr → Prop}

/-- A question is about expressions of a given kind.  Arguments only count if they are
checked. -/
def About (o : Options) (P : Expr → Prop) : Question → Prop
  | .typeOf e => P e
  | .extract _ site | .extractMember _ _ site => o.checkArguments = true → ∀ arg ∈ site.args, P arg

theorem alike_typeOf {e : Expr} (h : P e) :
    Alike (About o P) (.ask (.typeOf e)) (.ask (.typeOf e)) := .ask h

/-! ### Calls -/

theorem alike_firstBranch (site : CallSite) (callee : Ty) {f f' : Ty → Inference Ty} (bs : List Ty)
    (hf : ∀ b, Alike (About o P) (f b) (f' b)) :
    Alike (About o P) (firstBranch site callee f bs) (firstBranch site callee f' bs) := by
  refine (Alike.firstSuccess fun b _ => hf b).bind fun r => ?_
  match r with
  | .ok t => exact .pure _
  | .error [] => exact .fail _
  | .error (d :: ds) => exact .fail _

theorem alike_someBranch (site : CallSite) (callee : Ty) {f f' : Ty → Inference Ty} (bs : List Ty)
    (hf : ∀ b, Alike (About o P) (f b) (f' b)) :
    Alike (About o P) (someBranch site callee f bs) (someBranch site callee f' bs) := by
  refine (Alike.firstSuccess fun b _ => hf b).bind fun r => ?_
  cases r with
  | ok t => exact .pure _
  | error ds => exact .fail _

theorem alike_checkArguments (s : Signature) (site : CallSite) (i : Nat) {args : List Expr}
    (hargs : ∀ arg ∈ args, P arg) :
    Alike (About o P) (checkArguments ⟨D, S, o⟩ s site i args)
      (checkArguments ⟨D, S', o⟩ s site i args) := by
  induction args generalizing i with
  | nil => exact .pure _
  | cons arg args ih =>
    obtain ⟨harg, hargs⟩ := List.forall_mem_cons.1 hargs
    simp only [checkArguments]
    split
    · exact .pure _
    · cases paramType? D s i with
      | none => exact .fail _
      | some t =>
        refine (alike_typeOf harg).bind fun found => ?_
        split
        · exact (Alike.assignment .done).bind fun _ => ih _ hargs
        · exact ih _ hargs

section Site

variable {site : CallSite} (hsite : o.checkArguments = true → ∀ arg ∈ site.args, P arg)
include hsite

theorem alike_extract (callee : Ty) :
    Alike (About o P) (.ask (.extract callee site)) (.ask (.extract callee site)) := .ask hsite

theorem alike_extractMember (object : Ty) (key : PropKey) :
    Alike (About o P) (.ask (.extractMember object key site))
      (.ask (.extractMember object key site)) :=
  .ask hsite

theorem alike_instantiate (s : Signature) :
    Alike (About o P) (instantiate ⟨D, S, o⟩ s site) (instantiate ⟨D, S', o⟩ s site) := by
  simp only [instantiate]
  split
  · exact .fail _
  · split
    · exact .fail _
    · split
      · next hcheck => exact (alike_checkArguments s site 0 (hsite hcheck)).bind fun _ => .pure _
      · exact .pure _

theorem alike_pickSignature (sigs : List Signature) (callee : Ty) :
    Alike (About o P) (pickSignature ⟨D, S, o⟩ sigs callee site)
      (pickSignature ⟨D, S', o⟩ sigs callee site) := by
  unfold pickSignature
  split
  · exact .fail _
  · exact alike_instantiate hsite _
  · split
    · exact alike_instantiate hsite _
    · exact .fail _
    · refine (Alike.firstSuccess fun s _ => alike_instantiate hsite s).bind fun r => ?_
      cases r with
      | ok t => exact .pure _
      | error ds => exact .fail _

theorem alike_extractStep (callee : Ty) :
    Alike (About o P) (extractStep ⟨D, S, o⟩ callee site) (extractStep ⟨D, S', o⟩ callee site) := by
  simp only [extractStep]
  split
  · exact (alike_pickSignature hsite _ callee).bind fun t => .pure _
  · split
    · split
      · exact .fail _
      · exact (alike_instantiate hsite _).bind fun t => .pure _
    · split
      · exact (alike_instantiate hsite _).bind fun t => .pure _
      · exact .fail _
    · exact alike_firstBranch site callee _ fun b => alike_extract hsite b
    · exact alike_someBranch site callee _ fun b => alike_extract hsite b
    · split
      · exact .fail _
      · exact alike_extract hsite _
    · split
      · exact .pure _
      · exact .fail _

theorem alike_extractMemberStep (object : Ty) (key : PropKey) :
    Alike (About o P) (extractMemberStep ⟨D, S, o⟩ object key site)
      (extractMemberStep ⟨D, S', o⟩ object key site) := by
  simp only [extractMemberStep]
  split
  · split
    · split
      · exact .pure _
      · exact alike_extract hsite _
    · exact (alike_pickSignature hsite _ _).bind fun t => .pure _
  · split
    · exact alike_firstBranch site _ _ fun b => alike_extractMember hsite b key
    · exact alike_someBranch site _ _ fun b => alike_extractMember hsite b key
    · split
      · exact .fail _
      · exact alike_extractMember hsite _ key
    · split
      · exact .pure _
      · split <;> exact .fail _

theorem alike_calleeResult {callee : Expr} (hcallee : P callee.receiver) :
    Alike (About o P) (calleeResult ⟨D, S, o⟩ callee site)
      (calleeResult ⟨D, S', o⟩ callee site) := by
  obtain ⟨span, node⟩ := callee
  simp only [calleeResult]
  split
  · exact .pure _
  · exact (alike_typeOf hcallee).bind fun t => alike_extractMember hsite t _
  · refine (alike_typeOf hcallee).bind fun t => ?_
    exact (Alike.done _).bind fun key => alike_extractMember hsite t key
  · next hmember hindex =>
    have hself : Expr.receiver ⟨span, node⟩ = ⟨span, node⟩ := by
      cases node <;> first | rfl | simp_all
    exact (alike_typeOf (hself ▸ hcallee)).bind fun t => alike_extract hsite t

end Site

/-! ### Names -/

theorem alike_expandExport (x : Export) (span : Span) :
    Alike (About o P) (expandExport D x span) (expandExport D x span) := by
  unfold expandExport
  split
  · exact .pure _
  · split
    · exact .pure _
    · exact .pure _
    · exact .pure _
    · exact .fail _
    · exact .fail _

section Scope

variable {node : ExprNode} (hscope : S.AgreeOn node.lookups S')
include hscope

/-- An identifier is looked up in the scope. -/
theorem alike_identType {name : String} (hnode : node = .ident name) (span : Span) :
    Alike (About o P) (identType ⟨D, S, o⟩ name span) (identType ⟨D, S', o⟩ name span) := by
  simp only [identType]
  split
  · exact .fail _
  · next hrequire =>
    have hmem : name ∈ node.lookups := by simp [hnode, ExprNode.lookups, hrequire]
    obtain ⟨hvar, himported, htype⟩ := hscope name hmem
    simp only [hvar, himported, htype]
    split
    · exact .pure _
    · split
      · exact alike_expandExport _ _
      · split
        · exact alike_expandExport _ _
        · split
          · exact .pure _
          · exact .fail _

/-- The name of a module is looked up in the scope. -/
theorem alike_requireType {calleeSpan : Span} {ts : List Ty} {args : List Expr}
    (hnode : node = .call ⟨calleeSpan, .ident "require"⟩ ts args) (span : Span) :
    Alike (About o P) (requireType ⟨D, S, o⟩ args span) (requireType ⟨D, S', o⟩ args span) := by
  match args with
  | [] => exact .fail _
  | ⟨argSpan, argNode⟩ :: args =>
    simp only [requireType]
    split
    · exact .fail _
    · next name =>
      have hmem : name ∈ node.lookups := by simp [hnode, ExprNode.lookups]
      rw [(hscope name hmem).2.1]
      split <;> exact .fail _
    · exact .fail _

theorem alike_callType {callee : Expr} (hcallee : P callee.receiver) {ts : List Ty}
    {args : List Expr}
    (hargs : o.checkArguments = true → ∀ arg ∈ args, P arg) (hnode : node = .call callee ts args)
    (span : Span) :
    Alike (About o P) (callType ⟨D, S, o⟩ callee ⟨false, args, ts, span⟩)
      (callType ⟨D, S', o⟩ callee ⟨false, args, ts, span⟩) := by
  obtain ⟨calleeSpan, calleeNode⟩ := callee
  simp only [callType]
  split
  · exact .pure _
  · exact alike_requireType hscope hnode _
  · exact alike_calleeResult hargs hcallee

end Scope

/-! ### Literals and operators -/

theorem alike_regexType (pattern flags : String) (span : Span) :
    Alike (About o P) (regexType pattern flags span) (regexType pattern flags span) := by
  unfold regexType
  split
  · exact .fail _
  · split
    · exact .fail _
    · exact .pure _

theorem alike_elementTypes {kept : List Ty} {es : List Expr} (hes : ∀ e ∈ es, P e) :
    Alike (About o P) (elementTypes ⟨D, S, o⟩ kept es) (elementTypes ⟨D, S', o⟩ kept es) := by
  induction es generalizing kept with
  | nil => exact .pure _
  | cons e es ih =>
    obtain ⟨he, hes⟩ := List.forall_mem_cons.1 hes
    simp only [elementTypes]
    split
    · exact ih hes
    · split
      · exact .fail _
      · exact (alike_typeOf he).bind fun t => ih hes

theorem alike_arrayType {es : List Expr} (hes : ∀ e ∈ es, P e) :
    Alike (About o P) (arrayType ⟨D, S, o⟩ es) (arrayType ⟨D, S', o⟩ es) := by
  refine (alike_elementTypes hes).bind fun ts => ?_
  match ts with
  | [] => exact .pure _
  | [t] => exact .pure _
  | t :: u :: ts => exact .pure _

theorem alike_entryTypes (span : Span) {kept : List (PropKey × Ty)} {es : List ObjectEntry}
    (hes : ∀ e ∈ es, P e.value) :
    Alike (About o P) (entryTypes ⟨D, S, o⟩ span kept es) (entryTypes ⟨D, S', o⟩ span kept es) := by
  induction es generalizing kept with
  | nil => exact .pure _
  | cons e es ih =>
    obtain ⟨he, hes⟩ := List.forall_mem_cons.1 hes
    simp only [entryTypes]
    split
    · exact .fail _
    · refine (Alike.done _).bind fun k => ?_
      exact (alike_typeOf he).bind fun t => ih hes

theorem alike_objectType (span : Span) {es : List ObjectEntry} (hes : ∀ e ∈ es, P e.value) :
    Alike (About o P) (objectType ⟨D, S, o⟩ span es) (objectType ⟨D, S', o⟩ span es) :=
  (alike_entryTypes span hes).bind fun _ => .pure _

theorem alike_unaryType (span : Span) {operator : String} {operand : Expr}
    (h : ∀ e ∈ (ExprNode.unary operator operand).typedParts o, P e) :
    Alike (About o P) (unaryType ⟨D, S, o⟩ span operator operand)
      (unaryType ⟨D, S', o⟩ span operator operand) := by
  unfold unaryType
  split
  · exact (alike_typeOf (h operand (.head _))).bind fun t => .pure _
  · split <;> exact .pure _
  · exact .pure _
  · exact .pure _
  · exact .pure _
  · exact .fail _

theorem alike_binaryType (span : Span) {left right : Expr} {operator : String}
    (h : ∀ e ∈ (ExprNode.binary left operator right).typedParts o, P e) :
    Alike (About o P) (binaryType ⟨D, S, o⟩ span left operator right)
      (binaryType ⟨D, S', o⟩ span left operator right) := by
  simp only [ExprNode.typedParts] at h
  unfold binaryType
  split at h
  · next hlogical =>
    rw [if_pos hlogical]
    exact alike_typeOf (h right (.head _))
  · next hlogical =>
    rw [if_neg hlogical]
    split at h
    · next hnullish =>
      rw [if_pos hnullish]
      have hleft : P left := h left (.head _)
      have hright : P right := h right (.tail _ (.head _))
      exact (alike_typeOf hleft).bind fun l => (alike_typeOf hright).bind fun r => .pure _
    · next hnullish =>
      rw [if_neg hnullish]
      split
      · exact .pure _
      · split
        · exact .pure _
        · exact .fail _

theorem alike_sequenceType (span : Span) {es : List Expr} (hes : ∀ e ∈ es, P e) :
    Alike (About o P) (sequenceType span es) (sequenceType span es) := by
  fun_induction sequenceType span es with
  | case1 => exact .fail _
  | case2 e => exact alike_typeOf (hes e (.head _))
  | case3 e es hne ih =>
    obtain ⟨he, hes⟩ := List.forall_mem_cons.1 hes
    exact (alike_typeOf he).bind fun _ => ih hes

/-! ### Functions and classes -/

theorem alike_inferResult {f : Func} (hreturns : ∀ e ∈ f.body.returns.values, P e) :
    Alike (About o P) (inferResult ⟨D, S, o⟩ f) (inferResult ⟨D, S', o⟩ f) := by
  simp only [inferResult]
  split
  · exact .fail _
  · refine (Alike.mapList fun e he => ?_).bind fun ts => ?_
    · split
      · exact .pure _
      · exact alike_typeOf (hreturns e he)
    · match ts with
      | [] => exact .pure _
      | [t] => exact .pure _
      | t :: u :: ts => exact .pure _

/-- Of a function literal only the returned expressions are looked at. -/
theorem alike_functionType {f : Func} (h : ∀ e ∈ (ExprNode.function f).typedParts o, P e) :
    Alike (About o P) (functionType ⟨D, S, o⟩ f) (functionType ⟨D, S', o⟩ f) := by
  simp only [functionType]
  split
  · exact .fail _
  · refine (Alike.done _).bind fun params => ?_
    split
    · next hmissing =>
      simp only [ExprNode.typedParts, hmissing, if_true] at h
      exact (alike_inferResult h).bind fun result => .pure _
    · exact (Alike.pure _).bind fun result => .pure _

theorem alike_skip (m : ClassMember) :
    Alike (About o P) (do Inference.note (.memberSkipped m); return ([] : List Member))
      (do Inference.note (.memberSkipped m); return []) :=
  (Alike.record (.pure _)).bind fun _ => .pure _

theorem alike_classMembers {m : ClassMember} (hm : ∀ e ∈ m.typedParts, P e) :
    Alike (About o P) (classMembers ⟨D, S, o⟩ m) (classMembers ⟨D, S', o⟩ m) := by
  unfold classMembers
  split
  · next span key computed type value isOptional isReadonly isStatic =>
    split
    · exact alike_skip _
    · next hkept =>
      refine (Alike.done _).bind fun k => ?_
      dsimp only
      split
      · next hinferred =>
        have hvalue : value ∈ (ClassMember.property span key computed type value
            isOptional isReadonly isStatic).typedParts := by simp_all [ClassMember.typedParts]
        exact (alike_typeOf (hm value hvalue)).bind fun t => .pure _
      · exact (Alike.pure _).bind fun t => .pure _
  · exact (Alike.done _).bind fun params => .pure _
  · exact alike_skip _

theorem alike_classType {c : ClassDef} (hc : ∀ e ∈ c.members.flatMap ClassMember.typedParts, P e) :
    Alike (About o P) (classType ⟨D, S, o⟩ c) (classType ⟨D, S', o⟩ c) := by
  refine (Alike.mapList fun m hm => alike_classMembers fun e he => ?_).bind fun ms => .pure _
  exact hc e (List.mem_flatMap.2 ⟨m, hm, he⟩)

/-! ## The questions answered -/

theorem alike_typeOfStep {e : Expr} (hscope : S.AgreeOn e.node.lookups S')
    (h : ∀ p ∈ e.node.typedParts o, P p) :
    Alike (About o P) (typeOfStep ⟨D, S, o⟩ e) (typeOfStep ⟨D, S', o⟩ e) := by
  obtain ⟨span, node⟩ := e
  have hcall {f : Expr} {args : List Expr}
      (h : ∀ p ∈ f.receiver :: if o.checkArguments then args else [], P p) :
      P f.receiver ∧ (o.checkArguments = true → ∀ arg ∈ args, P arg) := by
    obtain ⟨hf, hargs⟩ := List.forall_mem_cons.1 h
    exact ⟨hf, fun hcheck => by rwa [if_pos hcheck] at hargs⟩
  cases node with
  | ident name => exact alike_identType hscope rfl span
  | array es => exact alike_arrayType h
  | object es => exact alike_objectType span fun e he => h _ (List.mem_map_of_mem he)
  | unary operator operand => exact alike_unaryType span h
  | binary l operator r => exact alike_binaryType span h
  | ternary c a b =>
    have ha : P a := h a (.head _)
    have hb : P b := h b (.tail _ (.head _))
    exact (alike_typeOf ha).bind fun s => (alike_typeOf hb).bind fun t => .pure _
  | paren inner => exact alike_typeOf (h inner (.head _))
  | assign operator target value => exact alike_typeOf (h value (.head _))
  | sequence es => exact alike_sequenceType span h
  | call f ts args => exact alike_callType hscope (hcall h).1 (hcall h).2 rfl span
  | construct f ts args => exact alike_calleeResult (hcall h).2 (hcall h).1
  | member object property =>
    have hobject : P object := h object (.head _)
    obtain ⟨objectSpan, form⟩ := object
    cases form with
    | super => exact .pure _
    | _ => exact (alike_typeOf hobject).bind fun t => .pure _
  | index object i =>
    have hobject : P object := h object (.head _)
    have hi : P i := h i (.tail _ (.head _))
    exact (alike_typeOf hobject).bind fun s => (alike_typeOf hi).bind fun t => .pure _
  | nonNull inner => exact (alike_typeOf (h inner (.head _))).bind fun t => .pure _
  | function f => exact alike_functionType h
  | classExpr c => exact alike_classType h
  | regex pattern flags => exact alike_regexType pattern flags span
  | missing | bool | number | string | null | template | this | super | spread | typeOf
  | void | update
  | assertion | cast | await | yield | metaProperty | arrow => exact .done _

/-- The scopes agree on all names that an expression reads. -/
def AgreeOnReads (o : Options) (S S' : Scope) (e : Expr) : Prop :=
  ∀ name, e.Reads o name → S.AgreeOn [name] S'

theorem AgreeOnReads.part {e p : Expr} (h : AgreeOnReads o S S' e) (hp : p ∈ e.node.typedParts o) :
    AgreeOnReads o S S' p := fun name hread => h name (.part hp hread)

theorem AgreeOnReads.lookups {e : Expr} (h : AgreeOnReads o S S' e) : S.AgreeOn e.node.lookups S' :=
  fun name hname => h name (.lookup hname) name List.mem_cons_self

/-- Two checkers that differ in their scopes ask alike, and about parts of what they are
asked about. -/
theorem alike_step {q : Question} (h : About o (AgreeOnReads o S S') q) :
    Alike (About o (AgreeOnReads o S S')) (step ⟨D, S, o⟩ q) (step ⟨D, S', o⟩ q) := by
  cases q with
  | typeOf e =>
    exact (alike_typeOfStep h.lookups fun p => h.part).andThen fun r => .record (.done r)
  | extract callee site => exact alike_extractStep h callee
  | extractMember object key site => exact alike_extractMemberStep h object key

theorem answer_congr_of_reads (levels : Nat) {q : Question} (h : About o (AgreeOnReads o S S') q) :
    answer ⟨D, S, o⟩ levels q = answer ⟨D, S', o⟩ levels q := by
  induction levels generalizing q with
  | zero => rfl
  | succ levels ih =>
    rw [answer, answer]
    split
    · rfl
    · exact (alike_step h).run_eq (fun q hq => ih hq) _

theorem answer_congr {names : List String} (hscope : S.AgreeOn names S') (levels : Nat)
    {q : Question}
    (hq : q.names ⊆ names) : answer ⟨D, S, o⟩ levels q = answer ⟨D, S', o⟩ levels q := by
  have hreads {e : Expr} (he : e.names ⊆ names) : AgreeOnReads o S S' e := by
    intro name hread name' hname
    obtain rfl := List.mem_singleton.1 hname
    exact hscope name' (he hread.mem_names)
  refine answer_congr_of_reads levels ?_
  cases q with
  | typeOf e => exact hreads hq
  | extract | extractMember =>
    exact fun _ arg harg => hreads (List.Subset.trans (Expr.names_subset_of_mem harg) hq)

/-- Two scopes that agree on the names that inference may come to look up lead to the same
type or the same failure, and to the same records on the way. -/
theorem typeOf_congr_of_reads (D : Decls) {e : Expr} (h : AgreeOnReads o S S' e) :
    typeOf ⟨D, S, o⟩ e = typeOf ⟨D, S', o⟩ e := by
  rw [typeOf_eq_answer, typeOf_eq_answer]
  exact answer_congr_of_reads _ h

/-- Inference depends on the names that the expression mentions.  Two scopes that agree on
them lead to the same type or the same failure, and to the same records on the way. -/
theorem typeOf_congr (D : Decls) (o : Options) {S S' : Scope} {e : Expr}
    (h : S.AgreeOn e.names S') : typeOf ⟨D, S, o⟩ e = typeOf ⟨D, S', o⟩ e := by
  rw [typeOf_eq_answer, typeOf_eq_answer]
  exact answer_congr h _ (List.Subset.refl _)

/-- A value that the expression does not mention makes no difference. -/
theorem typeOf_congr_unmentioned :
    let E : Environment := ({} : Environment).define "x" .number
    let e : Expr :=
      ⟨{}, .binary ⟨{}, .ident "x"⟩ "??" ⟨{}, .call ⟨{}, .ident "require"⟩ [] [⟨{}, .string "m"⟩]⟩⟩
    E.scope.AgreeOn e.names (E.define "y" .string).scope ∧
      E.scope.var? "y" ≠ (E.define "y" .string).scope.var? "y" ∧
      typeOf ⟨{}, E.scope, {}⟩ e = typeOf ⟨{}, (E.define "y" .string).scope, {}⟩ e := by
  intro E e
  have hagree : E.scope.AgreeOn e.names (E.define "y" .string).scope := by
    intro name hname
    have hname : name = "x" ∨ name = "require" ∨ name = "m" := by
      simpa [e, Expr.names, ExprNode.names, Expr.namesOf] using hname
    rcases hname with rfl | rfl | rfl <;> exact ⟨rfl, rfl, rfl⟩
  exact ⟨hagree, nofun, typeOf_congr {} {} hagree⟩

end Checker

end StructuralTyping
