import StructuralTyping.Proofs.Coincidence
import StructuralTyping.Proofs.TypeSource.Related
import StructuralTyping.Scenario.Read
import StructuralTyping.Scenario.Run

/-!
# Callees that are named by globals

A call in a scenario may name its callee by a global.  The callee is then an identifier, which
is looked up in a frame for the arguments and, outside of it, among the globals.  Without the
name the type of the callee is called by itself, or it is bound to a name of its own when a
member is called.

The two ways lead to the same outcome (`CallCheck.outcome_run_global`).  An identifier takes one
level more than a type, so the run must not reach the depth limit (`Checker.fits`): what is
answered without reaching it is answered alike with more levels (`Checker.answer_of_fits`).
And the global must not have the name of an argument, which is found before it
(`CallCheck.run_argument_name`).

The type of a global is read where it is written, with the names that cases can use as well
(`Scenario.written_of_declarations`).  So a case may be written with the node of the global in
place of its name.
-/

namespace StructuralTyping

/-! ## Runs that stay within the levels -/

namespace Inference

/-- The questions that a run asks. -/
def asked (ask : Question → Infer Ty) (assign : Ty → Ty → Span → Infer Unit) :
    Inference α → List Question
  | .done _ => []
  | .record _ next => next.asked ask assign
  | .question q next => q :: (next (ask q).outcome).asked ask assign
  | .assignment target source span next =>
    (next (assign target source span).outcome).asked ask assign

theorem asked_andThen (ask : Question → Infer Ty) (assign : Ty → Ty → Span → Infer Unit)
    (m : Inference α) (f : Except Diagnostic α → Inference β) : (m.andThen f).asked ask assign =
      m.asked ask assign ++ (f (m.outcome ask assign)).asked ask assign := by
  induction m with
  | done r => rfl
  | record r next ih => exact ih
  | question q next ih => exact congrArg (q :: ·) (ih _)
  | assignment target source span next ih => exact ih _

/-- A run only depends on the answers that it asks for. -/
theorem run_eq_of_asked {ask ask' : Question → Infer Ty} {assign : Ty → Ty → Span → Infer Unit}
    {m : Inference α} (h : ∀ q ∈ m.asked ask assign, ask' q = ask q) :
    m.run ask' assign = m.run ask assign ∧ m.asked ask' assign = m.asked ask assign := by
  induction m with
  | done r => exact ⟨rfl, rfl⟩
  | record r next ih =>
    obtain ⟨hrun, hasked⟩ := ih h
    exact ⟨by rw [run, run, hrun], hasked⟩
  | question q next ih =>
    obtain ⟨hq, hnext⟩ := List.forall_mem_cons.1 h
    obtain ⟨hrun, hasked⟩ := ih _ hnext
    exact ⟨by rw [run, run, hq, hrun], by rw [asked, asked, hq, hasked]⟩
  | assignment target source span next ih =>
    obtain ⟨hrun, hasked⟩ := ih _ h
    exact ⟨by rw [run, run, hrun], hasked⟩

end Inference

namespace Checker

variable {C : Checker} {levels : Nat} {q : Question}

/-- Neither a question nor one that is asked on the way to its answer is refused for its depth. -/
def fits (C : Checker) : Nat → Question → Bool
  | 0, q => q.isMissing
  | levels + 1, q =>
    q.isMissing || ((C.step q).asked (C.answer levels) C.assignment).all (C.fits levels)

theorem answer_succ_of_fits (h : C.fits levels q = true) :
    C.answer (levels + 1) q = C.answer levels q ∧ C.fits (levels + 1) q = true := by
  induction levels generalizing q with
  | zero =>
    have hmissing : q.isMissing = true := h
    exact ⟨by rw [answer_of_isMissing hmissing, answer_of_isMissing hmissing],
      by rw [fits, hmissing, Bool.true_or]⟩
  | succ levels ih =>
    rw [fits, Bool.or_eq_true, List.all_eq_true] at h
    rcases h with hmissing | hasked
    · exact ⟨by rw [answer_of_isMissing hmissing, answer_of_isMissing hmissing],
        by rw [fits, hmissing, Bool.true_or]⟩
    · obtain ⟨hrun, hsame⟩ := Inference.run_eq_of_asked fun q hq => (ih (hasked q hq)).1
      refine ⟨by rw [answer, answer, hrun], ?_⟩
      rw [fits, hsame, Bool.or_eq_true, List.all_eq_true]
      exact .inr fun q hq => (ih (hasked q hq)).2

/-- More levels make no difference to what does not reach the limit. -/
theorem answer_of_fits {more : Nat} (h : C.fits levels q = true) (hle : levels ≤ more) :
    C.answer more q = C.answer levels q ∧ C.fits more q = true := by
  induction hle with
  | refl => exact ⟨rfl, h⟩
  | step _ ih =>
    obtain ⟨hanswer, hfits⟩ := answer_succ_of_fits ih.2
    exact ⟨hanswer.trans ih.1, hfits⟩

end Checker

/-! ## Values in frames -/

namespace Environment

variable {e : Environment} {name x : String} {t : Ty}

theorem var?_eq (e : Environment) (x : String) :
    e.scope.var? x = (e.inner.vars.lookup x).or (e.outer.findSome? (·.vars.lookup x)) := by
  simp only [scope, frames, List.findSome?_cons]
  cases e.inner.vars.lookup x <;> rfl

theorem outer_define (e : Environment) (name : String) (t : Ty) :
    (e.define name t).outer = e.outer := by
  rw [define, define?]
  split <;> rfl

/-- A value that is there already stays. -/
theorem lookup_define (e : Environment) (name : String) (t : Ty) (x : String) :
    (e.define name t).inner.vars.lookup x =
      (e.inner.vars.lookup x).or (if x == name then some t else none) := by
  rw [define, define?]
  split
  · next hbound =>
    obtain ⟨u, hu⟩ := Option.isSome_iff_exists.1 hbound
    rw [Option.getD_none]
    cases hx : x == name with
    | false => rw [if_neg Bool.false_ne_true, Option.or_none]
    | true => rw [beq_iff_eq.1 hx, hu, Option.some_or]
  · rw [Option.getD_some, List.lookup_append, List.lookup_cons]
    cases x == name <;> rfl

theorem vars_defineType (e : Environment) (name : String) (y : Export) :
    (e.defineType name y).inner.vars = e.inner.vars ∧ (e.defineType name y).outer = e.outer := by
  rw [defineType, defineType?]
  split <;> exact ⟨rfl, rfl⟩

end Environment

namespace Scenario

variable (s : Scenario)

theorem vars_foldl_defineType (types : List (String × Ty)) (e : Environment) :
    let e' := types.foldl (fun (e : Environment) (name, t) => e.defineType name { type := t }) e
    e'.inner.vars = e.inner.vars ∧ e'.outer = e.outer := by
  induction types generalizing e with
  | nil => exact ⟨rfl, rfl⟩
  | cons b types ih =>
    obtain ⟨hvars, houter⟩ := ih (e.defineType b.1 { type := b.2 })
    obtain ⟨hvars', houter'⟩ := e.vars_defineType b.1 { type := b.2 }
    exact ⟨hvars.trans hvars', houter.trans houter'⟩

theorem lookup_foldl_define (globals : List (String × Ty)) (e : Environment) (x : String) :
    (globals.foldl (fun (e : Environment) (name, t) => e.define name t) e).inner.vars.lookup x =
      (e.inner.vars.lookup x).or (globals.lookup x) := by
  induction globals generalizing e with
  | nil => exact Option.or_none.symm
  | cons b globals ih =>
    obtain ⟨name, t⟩ := b
    rw [List.foldl_cons, ih, Environment.lookup_define, Option.or_assoc, List.lookup_cons]
    cases x == name <;> rfl

/-- In the environment of a scenario, the name of a global means that global. -/
theorem var?_environment {g : String} {t : Ty} (h : s.globals.lookup g = some t) :
    s.environment.scope.var? g = some t := by
  rw [Environment.var?_eq, environment, lookup_foldl_define,
    (vars_foldl_defineType s.types {}).1, h]
  rfl

end Scenario

namespace CallCheck

open Checker (fits)

/-! ## The frame of a call -/

theorem outer_bindArgs (e : Environment) (i : Nat) (ts : List Ty) :
    (bindArgs e i ts).outer = e.outer := by
  induction ts generalizing e i with
  | nil => rfl
  | cons t ts ih => exact (ih _ _).trans (e.outer_define _ t)

/-- Only names of arguments are bound for arguments. -/
theorem lookup_bindArgs {x : String} (e : Environment) (i : Nat) (ts : List Ty)
    (hx : ∀ j < i + ts.length, x ≠ argName j) :
    (bindArgs e i ts).inner.vars.lookup x = e.inner.vars.lookup x := by
  induction ts generalizing e i with
  | nil => rfl
  | cons t ts ih =>
    rw [List.length_cons] at hx
    rw [bindArgs, ih _ _ fun j hj => hx j (by omega), Environment.lookup_define,
      beq_false_of_ne (hx i (by omega)), if_neg Bool.false_ne_true, Option.or_none]

theorem var?_bindArgs {x : String} (e : Environment) (ts : List Ty)
    (hx : ∀ j < ts.length, x ≠ argName j) :
    (bindArgs e.enter 0 ts).scope.var? x = e.scope.var? x := by
  rw [Environment.var?_eq, outer_bindArgs, lookup_bindArgs _ _ _ fun j hj => hx j (by omega)]
  rfl

theorem namesOf_argExprs (span : Span) (i : Nat) (ts : List Ty) :
    ∀ x ∈ Expr.namesOf (argExprs span i ts), ∃ j, x = argName j := by
  induction ts generalizing i with
  | nil => exact fun x hx => nomatch hx
  | cons t ts ih =>
    intro x hx
    rcases List.mem_cons.1 (show x ∈ argName i :: Expr.namesOf (argExprs span (i + 1) ts) from hx)
      with rfl | hx
    · exact ⟨i, rfl⟩
    · exact ih (i + 1) x hx

/-- No argument has the name that a callee is bound to. -/
theorem argName_ne_callee (i : Nat) : argName i ≠ "$callee" := by
  intro h
  rw [argName, show ("$callee" : String) = "$" ++ "callee" from rfl,
    String.append_right_inj, intText, if_neg (by omega), Int.natAbs_natCast] at h
  have hc : 'c' ∈ Nat.toDigits 10 i := by
    rw [← Nat.toList_repr, show i.repr = "callee" from h]
    decide
  cases Nat.isDigit_of_mem_toDigits (by decide) (by decide) hc

/-! ## The question of a call -/

/-- The call or construction that is checked. -/
def site (k : CallCheck) (span : Span) : CallSite :=
  ⟨k.isNew, argExprs span 0 k.args, k.typeArgs, span⟩

/-- The environment in which a call is checked. -/
def scope (k : CallCheck) (e : Environment) : Environment :=
  let scope := bindArgs e.enter 0 k.args
  if k.member.isEmpty || k.calleeName?.isSome then scope else scope.define "$callee" k.callee

/-- A call of an identifier, or of its member, as an expression. -/
def callExpr (k : CallCheck) (span : Span) (name : String) : Expr :=
  let callee := calleeExpr span name k.member
  ⟨span, if k.isNew then .construct callee k.typeArgs (argExprs span 0 k.args)
    else .call callee k.typeArgs (argExprs span 0 k.args)⟩

/-- The question that decides a check of a call. -/
def question (k : CallCheck) (span : Span) : Question :=
  if k.member.isEmpty && k.calleeName?.isNone then .extract k.callee (k.site span)
  else .typeOf (k.callExpr span (k.calleeName?.getD "$callee"))

/-- The checker that is asked. -/
def checker (k : CallCheck) (D : Decls) (e : Environment) (o : Options) : Checker :=
  ⟨D, (k.scope e).scope, o⟩

theorem run_eq_answer (k : CallCheck) (D : Decls) (e : Environment) (o : Options) (span : Span) :
    k.run D e o span = (k.checker D e o).answer o.expressionDepth (k.question span) := by
  obtain ⟨callee, name?, member, isNew, args, typeArgs⟩ := k
  simp only [run, checker, scope, question, callExpr, site]
  cases name? with
  | none =>
    cases hmember : member.isEmpty with
    | true => exact Checker.extract_eq_answer _ _ _
    | false => exact Checker.typeOf_eq_answer _ _
  | some name =>
    rw [Option.isSome_some, Bool.or_true, if_pos rfl]
    simp only [Option.isNone_some, Bool.and_false, Bool.false_eq_true, if_false]
    exact Checker.typeOf_eq_answer _ _

theorem isMissing_callExpr (k : CallCheck) (span : Span) (name : String) :
    (k.callExpr span name).isMissing = false := by
  unfold callExpr
  cases k.isNew <;> rfl

/-- What is asked once the type of the identifier is known. -/
def followUp (k : CallCheck) (span : Span) (t : Ty) : Question :=
  if k.member.isEmpty then .extract t (k.site span)
  else .extractMember t ⟨k.member, false⟩ (k.site span)

theorem typeOfStep_callExpr (C : Checker) (k : CallCheck) (span : Span) {name : String}
    (hname : name ≠ "require") : C.typeOfStep (k.callExpr span name) =
      (Inference.ask (.typeOf ⟨span, .ident name⟩) >>= fun t => .ask (k.followUp span t)) := by
  obtain ⟨callee, name?, member, isNew, args, typeArgs⟩ := k
  simp only [callExpr, followUp, site, calleeExpr]
  cases member.isEmpty with
  | true =>
    cases isNew with
    | true => rfl
    | false =>
      simp only [if_true, if_false, Bool.false_eq_true, Checker.typeOfStep, Checker.callType]
      split
      · next heq => cases heq
      · next heq => exact absurd (ExprNode.ident.inj heq) hname
      · rfl
  | false => cases isNew <;> rfl

section Bound

variable {C : Checker} {k : CallCheck} {span : Span} {name : String} {t : Ty} {levels : Nat}
  (hname : name ≠ "require") (hvar : C.scope.var? name = some t)
include hname hvar

theorem outcome_answer_ident (levels : Nat) :
    (C.answer (levels + 1) (.typeOf ⟨span, .ident name⟩)).outcome = .ok t := by
  rw [Checker.outcome_answer_typeOf levels rfl]
  simp only [Checker.typeOfStep, Checker.identType, hvar]
  rw [if_neg (by simpa using hname)]
  rfl

/-- A call of an identifier is a call of the type that it stands for, with one level less. -/
theorem outcome_answer_callExpr (levels : Nat) :
    (C.answer (levels + 2) (.typeOf (k.callExpr span name))).outcome =
      (C.answer (levels + 1) (k.followUp span t)).outcome := by
  rw [Checker.outcome_answer_typeOf (levels + 1) (k.isMissing_callExpr span name),
    typeOfStep_callExpr C k span hname, Inference.outcome_bind]
  have hident : (Inference.ask (.typeOf ⟨span, .ident name⟩)).outcome
      (C.answer (levels + 1)) C.assignment = .ok t :=
    outcome_answer_ident hname hvar levels
  rw [hident]
  rfl

/-- The type that an identifier stands for is asked about after the identifier. -/
theorem fits_followUp (h : C.fits levels (.typeOf (k.callExpr span name)) = true) :
    ∃ n, levels = n + 2 ∧ C.fits (n + 1) (k.followUp span t) = true := by
  have hmissing : (Question.typeOf (k.callExpr span name)).isMissing = false :=
    k.isMissing_callExpr span name
  obtain _ | levels := levels
  · cases hmissing.symm.trans h
  · rw [fits, hmissing, Bool.false_or, Checker.step, Inference.noteOutcome, Inference.asked_andThen,
      typeOfStep_callExpr C k span hname, List.all_append, Bool.and_eq_true] at h
    obtain ⟨hident, hnext⟩ := List.forall_mem_cons.1 (List.all_eq_true.1 h.1)
    obtain _ | levels := levels
    · cases hident
    · rw [outcome_answer_ident hname hvar] at hnext
      exact ⟨levels, rfl, hnext _ (.head _)⟩

end Bound

/-! ## The callee -/

/-- The frames of a call with and without a bound callee agree on the names of arguments. -/
theorem agreeOn_define (e : Environment) (t : Ty) (span : Span) (i : Nat) (ts : List Ty) :
    e.scope.AgreeOn (Expr.namesOf (argExprs span i ts)) (e.define "$callee" t).scope := by
  intro x hx
  obtain ⟨j, rfl⟩ := namesOf_argExprs span i ts x hx
  have hframes : (e.define "$callee" t).inner.imports = e.inner.imports ∧
      (e.define "$callee" t).inner.types = e.inner.types ∧
      (e.define "$callee" t).outer = e.outer := by
    rw [Environment.define, Environment.define?]
    split <;> exact ⟨rfl, rfl, rfl⟩
  obtain ⟨himports, htypes, houter⟩ := hframes
  refine ⟨?_, ?_, ?_⟩
  · rw [Environment.var?_eq, Environment.var?_eq, houter, Environment.lookup_define,
      beq_false_of_ne (argName_ne_callee j), if_neg Bool.false_ne_true, Option.or_none]
  · simp only [Environment.scope, Environment.frames, List.findSome?_cons, himports, houter]
  · simp only [Environment.scope, Environment.frames, List.findSome?_cons, htypes, houter]

end CallCheck

/-- What is read in steps is read if each step is. -/
theorem Scenario.exists_of_bind_eq_ok {x : Except ε α} {f : α → Except ε β} {b : β}
    (h : x >>= f = .ok b) : ∃ a, x = .ok a ∧ f a = .ok b := by
  cases x with
  | error e => cases h
  | ok a => exact ⟨a, rfl, h⟩

namespace Scenario.Setting

variable {S : Setting} {n c : Yaml.Node} {f : Yaml.Fields}

/-- A call is read from its callee and the fields of the case. -/
def callOf (S : Setting) (f : Yaml.Fields) (callee : Ty × Option String) :
    Except CaseProblem Check := do
  let isNew ← callKind (f.get? "kind")
  let args ← S.partTypes .args (f.get? "args")
  let typeArgs ← S.partTypes .typeArgs (f.get? "typeArgs")
  .ok (.extract
    { callee := callee.1, calleeName? := callee.2, isNew, args, typeArgs
      member := ((f.get? "member").map Yaml.Node.value).getD "" })

theorem extractCheck_eq (hn : S.anchors.fields n = .ok f) (hc : f.get? "callee" = some c) :
    S.extractCheck n = S.callee c >>= S.callOf f := by
  simp only [extractCheck, hn, nodeProblem, bind, Except.bind, hc]
  rfl

/-- The callee is kept as it is read, and nothing else depends on it. -/
theorem callOf_eq_ok {t : Ty} {name? : Option String} {k : CallCheck}
    (h : S.callOf f (t, name?) = .ok (.extract k)) : k.callee = t ∧ k.calleeName? = name? ∧
      ∀ f' : Yaml.Fields, (∀ key ≠ "callee", f'.get? key = f.get? key) →
        S.callOf f' (t, none) = .ok (.extract { k with calleeName? := none }) := by
  rw [callOf] at h
  obtain ⟨isNew, hisNew, h⟩ := exists_of_bind_eq_ok h
  obtain ⟨args, hargs, h⟩ := exists_of_bind_eq_ok h
  obtain ⟨typeArgs, htypeArgs, h⟩ := exists_of_bind_eq_ok h
  obtain rfl := Check.extract.inj (Except.ok.inj h)
  refine ⟨rfl, rfl, fun f' hrest => ?_⟩
  simp only [callOf, hrest "kind" (by decide), hrest "args" (by decide),
    hrest "typeArgs" (by decide), hrest "member" (by decide), hisNew, hargs, htypeArgs]
  rfl

theorem callee_of_global {g : String} {t : Ty} (hglobal : S.global? c = some (g, t)) :
    S.globals.lookup g = some t ∧ S.callee c = .ok (t, if g.isEmpty then none else some g) := by
  refine ⟨?_, by rw [callee, hglobal]⟩
  unfold global? at hglobal
  split at hglobal
  · obtain ⟨u, hu, heq⟩ := Option.map_eq_some_iff.1 hglobal
    obtain ⟨rfl, rfl⟩ := Prod.mk.inj heq
    exact hu
  · cases hglobal

end Scenario.Setting

/-! ## Globals as they are written -/

namespace Scenario

variable {A : Yaml.Anchors} {F : Yaml.Fields} {B T G : Bindings} {es : List (String × Yaml.Node)}

/-- Bindings whose names are not declared are read one by one, each with the names there are. -/
theorem types_of_bindingsFrom (h : bindingsFrom A false B es = .ok G) :
    G.names = B.names ∧ ∃ types, G.types = B.types ++ types ∧
      List.Forall₂ (fun b e => b.1 = e.1 ∧ A.decode B.names e.2 = .ok b.2) types es := by
  induction es generalizing B with
  | nil =>
    obtain rfl := Except.ok.inj h
    exact ⟨rfl, [], (List.append_nil _).symm, .nil⟩
  | cons e es ih =>
    obtain ⟨name, n⟩ := e
    cases hn : A.decode B.names n with
    | error p =>
      rw [bindingsFrom, hn] at h
      cases h
    | ok t =>
      rw [bindingsFrom, hn] at h
      obtain ⟨hnames, types, htypes, hall⟩ := ih h
      refine ⟨hnames, (name, t) :: types, ?_, .cons ⟨rfl, hn⟩ hall⟩
      rw [htypes, Bindings.bind, if_neg Bool.false_ne_true, List.append_assoc,
        List.singleton_append]

theorem written_of_bindings {n : Yaml.Node} {g : String} {t : Ty}
    (h : bindings A false { B with types := [] } n = .ok G) (hg : G.types.lookup g = some t) :
    ∃ entries m, A.fields n = .ok entries ∧ entries.get? g = some m ∧
      (G.setting A).type m = .ok t := by
  rw [bindings] at h
  split at h
  · obtain rfl := Except.ok.inj h
    cases hg
  · obtain ⟨entries, hentries, h⟩ := exists_of_bind_eq_ok h
    obtain ⟨hnames, types, htypes, hall⟩ := types_of_bindingsFrom h
    have hwritten := TypeSource.rel_lookup (S := fun t m => A.decode B.names m = .ok t) hall g
    rw [← show G.types = types from htypes, hg] at hwritten
    generalize hm : entries.entries.lookup g = m? at hwritten
    cases hwritten with
    | some hdecode =>
      refine ⟨entries, _, hentries, hm, ?_⟩
      rw [Setting.type, Bindings.setting, hnames]
      exact hdecode

/-- The type of a global is the one that is written in the section of the globals. -/
theorem written_of_declarations {g : String} {t : Ty} (h : declarations A F = .ok (T, G))
    (hg : G.types.lookup g = some t) :
    ∃ globals entries m, F.get? "globals" = some globals ∧ A.fields globals = .ok entries ∧
      entries.get? g = some m ∧ (G.setting A).type m = .ok t := by
  rw [declarations] at h
  obtain ⟨T', -, h⟩ := exists_of_bind_eq_ok h
  obtain ⟨G', hG, h⟩ := exists_of_bind_eq_ok h
  obtain ⟨rfl, rfl⟩ := Prod.mk.inj (Except.ok.inj h)
  cases hglobals : F.get? "globals" with
  | none =>
    rw [hglobals] at hG
    obtain rfl := Except.ok.inj hG
    cases hg
  | some globals =>
    rw [hglobals, sectionBindings] at hG
    split at hG
    · next hread =>
      obtain rfl := Except.ok.inj hG
      obtain ⟨entries, m, hm⟩ := written_of_bindings hread hg
      exact ⟨globals, entries, m, rfl, hm⟩
    · cases hG

theorem globals_of_ofFields {s₀ s : Scenario} (h : s₀.ofFields A F = .ok s)
    (hdecl : declarations A F = .ok (T, G)) : s.globals = G.types := by
  rw [ofFields] at h
  split at h
  · cases h
  · obtain ⟨⟨T', G'⟩, hdecl', h⟩ := exists_of_bind_eq_ok h
    obtain ⟨cases, -, h⟩ := exists_of_bind_eq_ok h
    obtain ⟨rfl, rfl⟩ := Prod.mk.inj (Except.ok.inj (hdecl'.symm.trans hdecl))
    obtain rfl := Except.ok.inj h
    rfl

end Scenario

namespace CallCheck

/-- A global that is bound in the environment may be named instead of written as a type. -/
theorem outcome_run_eq (s : Scenario) (D : Decls) (o : Options) (span : Span)
    {k : CallCheck} {g : String}
    (hname : k.calleeName? = some g) (hbound : s.globals.lookup g = some k.callee)
    (hrequire : g ≠ "require") (hargs : ∀ i < k.args.length, g ≠ argName i)
    (hfits : (k.checker D s.environment o).fits o.expressionDepth (k.question span) = true) :
    (k.run D s.environment o span).outcome =
      ({ k with calleeName? := none }.run D s.environment o span).outcome := by
  obtain ⟨callee, _, member, isNew, args, typeArgs⟩ := k
  dsimp only at hname hbound hargs
  subst hname
  let named : CallCheck := ⟨callee, some g, member, isNew, args, typeArgs⟩
  let unnamed : CallCheck := ⟨callee, none, member, isNew, args, typeArgs⟩
  have hscope : named.scope s.environment = bindArgs s.environment.enter 0 args := by
    rw [scope, Option.isSome_some, Bool.or_true, if_pos rfl]
  have hquestion : named.question span = .typeOf (named.callExpr span g) := by
    rw [question, Option.isNone_some, Bool.and_false, if_neg Bool.false_ne_true]
    rfl
  have hvar : (named.checker D s.environment o).scope.var? g = some callee := by
    rw [checker, hscope, var?_bindArgs _ _ hargs, s.var?_environment hbound]
  rw [hquestion] at hfits
  obtain ⟨levels, hlevels, hfollowUp⟩ := fits_followUp hrequire hvar hfits
  rw [run_eq_answer, run_eq_answer, hlevels, hquestion, outcome_answer_callExpr hrequire hvar]
  change _ = ((unnamed.checker D s.environment o).answer _ (unnamed.question span)).outcome
  cases hmember : member.isEmpty with
  | true =>
    have hquestion : unnamed.question span = named.followUp span callee := by
      rw [question, followUp, hmember, if_pos rfl]
      rfl
    have hscope' : unnamed.scope s.environment = named.scope s.environment := by
      rw [hscope, scope, hmember, Bool.true_or, if_pos rfl]
    have hchecker : unnamed.checker D s.environment o = named.checker D s.environment o := by
      rw [checker, checker, hscope']
    rw [hquestion, hchecker, (Checker.answer_of_fits hfollowUp (Nat.le_succ _)).1]
  | false =>
    have hquestion : unnamed.question span = .typeOf (unnamed.callExpr span "$callee") := by
      rw [question, hmember, Bool.false_and, if_neg Bool.false_ne_true]
      rfl
    have hscope' : unnamed.scope s.environment =
        (named.scope s.environment).define "$callee" callee := by
      rw [hscope, scope, hmember]
      rfl
    have hbound' : (unnamed.checker D s.environment o).scope.var? "$callee" = some callee := by
      rw [checker, hscope', hscope, Environment.var?_eq, Environment.lookup_define,
        lookup_bindArgs _ _ _ fun j _ => (argName_ne_callee j).symm]
      rfl
    have hagree : (named.scope s.environment).scope.AgreeOn (named.followUp span callee).names
        (unnamed.scope s.environment).scope := by
      have hnames : (named.followUp span callee).names = Expr.namesOf (argExprs span 0 args) := by
        rw [followUp, hmember]
        rfl
      rw [hnames, hscope']
      exact agreeOn_define _ _ _ _ _
    rw [hquestion, outcome_answer_callExpr (by decide) hbound']
    exact congrArg Infer.outcome (Checker.answer_congr hagree _ (List.Subset.refl _))

/-- A callee that is named by a global means that global.  The type of the global is written in
the section of the globals, and a case with the same fields whose callee is written as that type
is read and run with the same outcome: the same type or the same failure.  The named run must not
reach the depth limit, and no argument may have the name of the global. -/
theorem outcome_run_global {s₀ s : Scenario} {A : Yaml.Anchors} {F : Yaml.Fields}
    {T G : Scenario.Bindings} (hread : s₀.ofFields A F = .ok s)
    (hdecl : Scenario.declarations A F = .ok (T, G)) (D : Decls) (o : Options) (span : Span)
    {n c : Yaml.Node} {f : Yaml.Fields} {g : String} {t : Ty} {k : CallCheck}
    (hn : A.fields n = .ok f) (hc : f.get? "callee" = some c)
    (hglobal : (G.setting A).global? c = some (g, t))
    (hk : (G.setting A).extractCheck n = .ok (.extract k)) (hrequire : g ≠ "require")
    (hargs : ∀ i < k.args.length, g ≠ argName i)
    (hfits : (k.checker D s.environment o).fits o.expressionDepth (k.question span) = true) :
    (∃ globals entries m, F.get? "globals" = some globals ∧ A.fields globals = .ok entries ∧
      entries.get? g = some m ∧ (G.setting A).type m = .ok t) ∧
    ∀ (n' c' : Yaml.Node) (f' : Yaml.Fields), A.fields n' = .ok f' →
      f'.get? "callee" = some c' → (∀ key ≠ "callee", f'.get? key = f.get? key) →
      (G.setting A).global? c' = none → (G.setting A).type c' = .ok t →
      ∃ k', (G.setting A).extractCheck n' = .ok (.extract k') ∧
        (k.run D s.environment o span).outcome = (k'.run D s.environment o span).outcome := by
  obtain ⟨hlookup, hcallee⟩ := Scenario.Setting.callee_of_global hglobal
  rw [Scenario.Setting.extractCheck_eq hn hc, hcallee] at hk
  obtain ⟨rfl, hname, hunnamed⟩ := Scenario.Setting.callOf_eq_ok hk
  refine ⟨Scenario.written_of_declarations hdecl hlookup, ?_⟩
  intro n' c' f' hn' hc' hrest hinline htype
  refine ⟨{ k with calleeName? := none }, ?_, ?_⟩
  · have hcallee' : (G.setting A).callee c' = .ok (k.callee, none) := by
      rw [Scenario.Setting.callee, hinline, htype]
      rfl
    rw [Scenario.Setting.extractCheck_eq hn' hc', hcallee']
    exact hunnamed f' hrest
  · have hbound : s.globals.lookup g = some k.callee := by
      rw [Scenario.globals_of_ofFields hread hdecl]
      exact hlookup
    cases hempty : g.isEmpty with
    | true =>
      rw [hempty, if_pos rfl] at hname
      rw [← hname]
    | false =>
      rw [hempty, if_neg Bool.false_ne_true] at hname
      exact outcome_run_eq s D o span hname hbound hrequire hargs hfits

/-! ## Calls of a function that takes a null -/

/-- A function that takes a null, as it is written. -/
def nullFunction : Yaml.Node :=
  .mapping {}
    [(.scalar {} "fn", .mapping {}
      [(.scalar {} "params",
          .sequence {} [.mapping {} [(.scalar {} "x", .scalar { tag? := some .null } "null")]]),
        (.scalar {} "returns", .scalar { tag? := some .text } "string")])]

/-- The fields of a call with a null. -/
def nullCallFields (callee : Yaml.Node) : Yaml.Fields :=
  ⟨[("callee", callee), ("args", .sequence {} [.scalar { tag? := some .null } "null"])]⟩

/-- A call with a null, as it is written. -/
def nullCall (callee : Yaml.Node) : Yaml.Node :=
  .mapping {} [(.scalar {} "callee", callee),
    (.scalar {} "args", .sequence {} [.scalar { tag? := some .null } "null"])]

theorem fields_nullCall (A : Yaml.Anchors) (callee : Yaml.Node) :
    A.fields (nullCall callee) = .ok (nullCallFields callee) := by
  have htrim : trimSpace "callee" = "callee" ∧ trimSpace "args" = "args" := by decide +kernel
  simp [nullCall, nullCallFields, Yaml.Anchors.fields, Yaml.Fields.collect, htrim.1, htrim.2]

theorem get?_nullCallFields (callee callee' : Yaml.Node) {key : String} (hkey : key ≠ "callee") :
    (nullCallFields callee).get? key = (nullCallFields callee').get? key := by
  simp only [nullCallFields, Yaml.Fields.get?, List.lookup_cons, beq_false_of_ne hkey]

/-- A call of the global `f` and of its type, far from the depth limit, whose default is in
force. -/
theorem outcome_run_global_called :
    let t : Ty := .function (.mk [] [⟨.ident "x" false, .null⟩] .string)
    let F : Yaml.Fields := ⟨[("globals", .mapping {} [(.scalar {} "f", nullFunction)])]⟩
    let G : Scenario.Bindings := { types := [("f", t)] }
    let S : Scenario.Setting := G.setting []
    let s : Scenario := { path := "", file := .atPath "" "", globals := [("f", t)] }
    let c : Yaml.Node := .scalar { tag? := some .text } "f"
    let k : CallCheck := { callee := t, calleeName? := some "f", args := [.null] }
    Scenario.ofFields { path := "", file := .atPath "" "" } [] F = .ok s ∧
      Scenario.declarations [] F = .ok ({}, G) ∧ S.global? c = some ("f", t) ∧
      S.extractCheck (nullCall c) = .ok (.extract k) ∧ (∀ i < k.args.length, "f" ≠ argName i) ∧
      (k.checker {} s.environment {}).fits ({} : Options).expressionDepth (k.question {}) = true ∧
      S.global? nullFunction = none ∧ S.type nullFunction = .ok t ∧
      ∃ k', S.extractCheck (nullCall nullFunction) = .ok (.extract k') ∧
        (k.run {} s.environment {} {}).outcome = (k'.run {} s.environment {} {}).outcome := by
  intro t F G S s c k
  have hread : Scenario.ofFields { path := "", file := .atPath "" "" } [] F = .ok s := rfl
  have hdecl : Scenario.declarations [] F = .ok ({}, G) := rfl
  have hn : Yaml.Anchors.fields [] (nullCall c) = .ok (nullCallFields c) := fields_nullCall [] c
  have hk : S.extractCheck (nullCall c) = .ok (.extract k) := by
    rw [Scenario.Setting.extractCheck_eq hn rfl]
    rfl
  have hargs : ∀ i < k.args.length, "f" ≠ argName i := by decide
  have hfits : (k.checker {} s.environment {}).fits ({} : Options).expressionDepth
      (k.question {}) = true := by decide +kernel
  have htype : S.type nullFunction = .ok t := rfl
  obtain ⟨-, hinline⟩ :=
    outcome_run_global hread hdecl {} {} {} hn rfl rfl hk (by decide) hargs hfits
  exact ⟨hread, hdecl, rfl, hk, hargs, hfits, rfl, htype,
    hinline _ nullFunction _ (fields_nullCall [] nullFunction) rfl
      (fun _ => get?_nullCallFields nullFunction c) rfl htype⟩

/-- A global that has the name of an argument is not found: the argument is called instead,
and not the function that the name and the type mean in the scenario. -/
theorem run_argument_name :
    let t : Ty := .function (.mk [] [⟨.ident "x" false, .null⟩] .string)
    let F : Yaml.Fields := ⟨[("globals", .mapping {} [(.scalar {} "$0", nullFunction)])]⟩
    let G : Scenario.Bindings := { types := [("$0", t)] }
    let S : Scenario.Setting := G.setting []
    let s : Scenario := { path := "", file := .atPath "" "", globals := [("$0", t)] }
    let c : Yaml.Node := .scalar { tag? := some .text } "$0"
    let k : CallCheck := { callee := t, calleeName? := some "$0", args := [.null] }
    let k' : CallCheck := { callee := t, args := [.null] }
    Scenario.ofFields { path := "", file := .atPath "" "" } [] F = .ok s ∧
      Scenario.declarations [] F = .ok ({}, G) ∧ S.global? c = some ("$0", t) ∧
      S.extractCheck (nullCall c) = .ok (.extract k) ∧ S.global? nullFunction = none ∧
      S.type nullFunction = .ok t ∧ S.extractCheck (nullCall nullFunction) = .ok (.extract k') ∧
      (k.checker {} s.environment {}).fits ({} : Options).expressionDepth (k.question {}) = true ∧
      (k'.checker {} s.environment {}).fits ({} : Options).expressionDepth (k'.question {}) =
        true ∧
      (k.run {} s.environment {} {}).outcome = .error (.noCallSignature {} .null) ∧
      (k'.run {} s.environment {} {}).outcome = .ok .string := by
  intro t F G S s c k k'
  have hk : S.extractCheck (nullCall c) = .ok (.extract k) := by
    rw [Scenario.Setting.extractCheck_eq (fields_nullCall [] c) rfl]
    rfl
  have hk' : S.extractCheck (nullCall nullFunction) = .ok (.extract k') := by
    rw [Scenario.Setting.extractCheck_eq (fields_nullCall [] nullFunction) rfl]
    rfl
  exact ⟨rfl, rfl, rfl, hk, rfl, rfl, hk', by decide +kernel, by decide +kernel, rfl, rfl⟩

end CallCheck

end StructuralTyping
