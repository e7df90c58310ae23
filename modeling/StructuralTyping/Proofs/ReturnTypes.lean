import StructuralTyping.Proofs.KeywordBranches
import StructuralTyping.Proofs.Returns
import StructuralTyping.Proofs.Session

/-!
# Inferred results and `undefined`

A call gives `undefined` where a run of the body comes to its end, where it returns
nothing, and where it returns a value that may be `undefined`.  The result that is inferred
without an annotation is joined from the types of the reachable returns, and it is
`undefined` where there are none.

So it allows for every run that returns `undefined`, and it allows for the end of the body
if nothing is ever returned, or `undefined` may be.  Where all reachable returns give other
values it does not allow for `undefined`, and so not for the end, although it is known
whether the end is reached (`Checker.admitsUndefined_of_completes`,
`Checker.typeOf_conditional_return`).
-/

namespace StructuralTyping

/-! ## Types of values that may be `undefined` -/

namespace Decls

variable {D : Decls} {t : Ty} {ts : List Ty}

/-- The type is `any` or contains `undefined`. -/
def admitsUndefined (D : Decls) (t : Ty) : Bool := D.isAny t || D.containsUndefined t

/-- A joined type admits `undefined` if one of the types does. -/
theorem admitsUndefined_join (ht : t ∈ ts) (hthere : t.isMissing = false)
    (h : D.admitsUndefined t = true) : D.admitsUndefined (D.join ts) = true := by
  simp only [admitsUndefined, isAny, containsUndefined, hthere, Bool.false_or,
    Bool.or_eq_true] at h ⊢
  rcases h with hany | hundefined
  · exact .inl (.inr (hasBranch_join (by decide) ht hany))
  · exact .inr (.inr (hasBranch_join (by decide) ht hundefined))

/-- A joined type admits `undefined` only if one of the types does. -/
theorem exists_of_admitsUndefined_join (hts : ∀ t ∈ ts, D.Acyclic t)
    (h : D.admitsUndefined (D.join ts) = true) :
    ∃ t ∈ ts, D.admitsUndefined t = true := by
  have hthere : (D.join ts).isMissing = false := by
    rcases D.join_cases ts with ⟨-, hjoin⟩ | ⟨b, hsingle, hjoin⟩ | hjoin
    · simp [hjoin, Ty.isMissing]
    · have hb : b ∈ D.joined ts := by simp [hsingle]
      exact hjoin ▸ (exists_branch_of_mem_joined hts hb).2.1
    · simp [hjoin, Ty.isMissing]
  have hbranch (k : Keyword) (hk : k ≠ .never) (h : D.hasBranch k (D.join ts) = true)
      (hadmits : ∀ t, D.hasBranch k t = true → D.admitsUndefined t = true) :
      ∃ t ∈ ts, D.admitsUndefined t = true := by
    obtain ⟨t, ht, hkeyword⟩ := exists_of_hasBranch_join hk hts h
    exact ⟨t, ht, hadmits t hkeyword⟩
  simp only [admitsUndefined, isAny, containsUndefined, hthere, Bool.false_or, Bool.or_eq_true] at h
  rcases h with hany | hundefined
  · exact hbranch .any (by decide) hany fun t ht => by simp [admitsUndefined, isAny, ht]
  · exact hbranch .undefined (by decide) hundefined fun t ht => by
      simp [admitsUndefined, containsUndefined, ht]

end Decls

/-! ## Outcomes of a list of steps -/

theorem Inference.forall₂_of_mapList {α β : Type} {ask : Question → Infer Ty}
    {assign : Ty → Ty → Span → Infer Unit} {f : α → Inference β} {xs : List α} {ys : List β}
    (h : (Inference.mapList f xs).outcome ask assign = .ok ys) :
    List.Forall₂ (fun x y => (f x).outcome ask assign = .ok y) xs ys := by
  induction xs generalizing ys with
  | nil =>
    obtain rfl : [] = ys := Except.ok.inj h
    exact .nil
  | cons x xs ih =>
    have hsteps :
        ((f x >>= fun y => Inference.mapList f xs >>= fun ys => Inference.pure (y :: ys)).outcome
        ask assign) = .ok ys := h
    rw [outcome_bind] at hsteps
    split at hsteps
    · next y hy =>
      rw [outcome_bind] at hsteps
      split at hsteps
      · next zs hzs =>
        obtain rfl : y :: zs = ys := Except.ok.inj hsteps
        exact .cons hy (ih hzs)
      · cases hsteps
    · cases hsteps

namespace Checker

variable {C : Checker} {f : Func} {place : Span} {t r : Ty}

/-! ## Types of returns -/

/-- The type that a return of an expression gives a function.  The expression stands one
level inside of the function. -/
inductive ReturnsType (C : Checker) : Expr → Ty → Prop where
  | nothing {e : Expr} (h : e.isMissing = true) : C.ReturnsType e .undefined
  | value {e : Expr} {t : Ty} (hthere : e.isMissing = false)
      (h : (C.answer (C.options.expressionDepth - 1) (.typeOf e)).outcome = .ok t) :
        C.ReturnsType e t

/-- The results that may be inferred from the types of the returns. -/
inductive Results (D : Decls) : List Ty → Ty → Prop where
  | none : Results D [] .undefined
  | single (t : Ty) : Results D [t] t
  | join (t u : Ty) (ts : List Ty) : Results D (t :: u :: ts) (D.join (t :: u :: ts))

theorem returnsType_of_returnTypes {levels : Nat} {es : List Expr} {ts : List Ty}
    (hlevels : C.options.expressionDepth = levels + 1)
    (h : (returnTypes es).outcome (C.answer levels) C.assignment = .ok ts) :
    List.Forall₂ C.ReturnsType es ts := by
  refine (Inference.forall₂_of_mapList h).imp fun e t ht => ?_
  cases hmissing : e.isMissing with
  | true =>
    rw [hmissing] at ht
    obtain rfl : .undefined = t := Except.ok.inj ht
    exact .nothing hmissing
  | false =>
    rw [hmissing] at ht
    refine .value hmissing ?_
    rw [hlevels]
    exact ht

theorem exists_of_inferResult {levels : Nat} (hlevels : C.options.expressionDepth = levels + 1)
    (h : (C.inferResult f).outcome (C.answer levels) C.assignment = .ok r) :
    ∃ ts, List.Forall₂ C.ReturnsType f.body.returns.values ts ∧ Results C.decls ts r := by
  simp only [inferResult] at h
  split at h
  · cases h
  · rw [Inference.outcome_bind] at h
    split at h
    · next ts hts =>
      refine ⟨ts, returnsType_of_returnTypes hlevels hts, ?_⟩
      match ts, h with
      | [], h => exact Except.ok.inj h ▸ .none
      | [t], h => exact Except.ok.inj h ▸ .single t
      | t :: u :: ts, h => exact Except.ok.inj h ▸ .join t u ts
    · cases h

/-- The result of a function without an annotation is inferred from its returns. -/
theorem exists_of_typeOf_function (hresult : f.result.isMissing = true)
    (h : (C.typeOf ⟨place, .function f⟩).outcome = .ok t) :
    ∃ params r ts, t = .function (.mk f.typeParams params r) ∧
      List.Forall₂ C.ReturnsType f.body.returns.values ts ∧ Results C.decls ts r := by
  rw [typeOf_eq_answer] at h
  cases hlevels : C.options.expressionDepth with
  | zero =>
    rw [hlevels] at h
    cases h
  | succ levels =>
    rw [hlevels] at h
    have hstep : (C.functionType f).outcome (C.answer levels) C.assignment = .ok t :=
      (outcome_answer_typeOf levels rfl).symm.trans h
    simp only [functionType, hresult] at hstep
    split at hstep
    · cases hstep
    · rw [Inference.outcome_bind] at hstep
      split at hstep
      · next params _ =>
        rw [if_pos trivial, Inference.outcome_bind] at hstep
        split at hstep
        · next r hr =>
          obtain ⟨ts, hreturns, hresults⟩ := exists_of_inferResult hlevels hr
          exact ⟨params, r, ts, (Except.ok.inj hstep).symm, hreturns, hresults⟩
        · cases hstep
      · cases hstep

/-! ## Runs that give `undefined` -/

/-- A return of this expression gives a type that is `any` or contains `undefined`. -/
def ReturnsUndefined (C : Checker) (e : Expr) : Prop :=
  ∃ t, C.ReturnsType e t ∧ t.isMissing = false ∧ C.decls.admitsUndefined t = true

/-- What a call gives after a completion of the body may be `undefined`. -/
def GivesUndefined (C : Checker) : Completion → Prop
  | .normal => True
  | .return e => C.ReturnsUndefined e
  | .throw | .break | .continue => False

/-- The function has reachable returns, and none of them gives `undefined`. -/
def OnlyReturnsValues (C : Checker) (f : Func) : Prop :=
  f.body.returns.values ≠ [] ∧ ∀ e ∈ f.body.returns.values, ¬ C.ReturnsUndefined e

theorem ReturnsType.unique {e : Expr} {u : Ty} (h : C.ReturnsType e t) (h' : C.ReturnsType e u) :
    t = u := by
  cases h with
  | nothing h =>
    cases h' with
    | nothing => rfl
    | value hthere => simp [h] at hthere
  | value hthere h =>
    cases h' with
    | nothing h' => simp [h'] at hthere
    | value _ h' => exact Except.ok.inj (h.symm.trans h')

section Results

variable {D : Decls} {ts : List Ty}

theorem Results.admitsUndefined (h : Results D ts r) (ht : t ∈ ts) (hthere : t.isMissing = false)
    (hadmits : D.admitsUndefined t = true) : D.admitsUndefined r = true := by
  cases h with
  | none => cases ht
  | single u => exact List.mem_singleton.1 ht ▸ hadmits
  | join => exact Decls.admitsUndefined_join ht hthere hadmits

theorem Results.exists_of_admitsUndefined (h : Results D ts r) (hts : ∀ t ∈ ts, D.Acyclic t)
    (hadmits : D.admitsUndefined r = true) : ts = [] ∨ ∃ t ∈ ts, D.admitsUndefined t = true := by
  cases h with
  | none => exact .inl rfl
  | single => exact .inr ⟨r, .head _, hadmits⟩
  | join => exact .inr (Decls.exists_of_admitsUndefined_join hts hadmits)

variable (hreturns : List.Forall₂ C.ReturnsType f.body.returns.values ts)
  (hresults : Results C.decls ts r)
include hreturns hresults

/-- A return that gives `undefined` is allowed for. -/
theorem admitsUndefined_of_mem_returns {e : Expr} (he : e ∈ f.body.returns.values)
    (hundefined : C.ReturnsUndefined e) : C.decls.admitsUndefined r = true := by
  obtain ⟨u, hu, hthere, hadmits⟩ := hundefined
  obtain ⟨u', hmem, hu'⟩ := exists_of_rel_left (rel_of_forall₂ hreturns) he
  obtain rfl := hu.unique hu'
  exact hresults.admitsUndefined hmem hthere hadmits

/-- Nothing else is allowed for if there are returns. -/
theorem admitsUndefined_eq_false (hvalues : C.OnlyReturnsValues f)
    (htypes : ∀ e ∈ f.body.returns.values, ∀ u, C.ReturnsType e u →
      u.isMissing = false ∧ C.decls.Acyclic u) : C.decls.admitsUndefined r = false := by
  have hreturned (u) (hu : u ∈ ts) : ∃ e ∈ f.body.returns.values, C.ReturnsType e u :=
    exists_of_rel_right (rel_of_forall₂ hreturns) hu
  have hacyclic (u) (hu : u ∈ ts) : C.decls.Acyclic u := by
    obtain ⟨e, he, heu⟩ := hreturned u hu
    exact (htypes e he u heu).2
  by_contra hadmits
  rw [Bool.not_eq_false] at hadmits
  rcases hresults.exists_of_admitsUndefined hacyclic hadmits with rfl | ⟨u, hu, hadmits⟩
  · exact hvalues.1 (List.forall₂_nil_right_iff.1 hreturns)
  · obtain ⟨e, he, heu⟩ := hreturned u hu
    exact hvalues.2 e he ⟨u, heu, (htypes e he u heu).1, hadmits⟩

end Results

/-- The result of a function allows for the runs that return `undefined`.  It allows for
those that come to the end, too, unless all reachable returns give other values.  Then it
allows for no `undefined` at all. -/
theorem admitsUndefined_of_completes (hresult : f.result.isMissing = true)
    (h : (C.typeOf ⟨place, .function f⟩).outcome = .ok t) :
    ∃ params r, t = .function (.mk f.typeParams params r) ∧
      (∀ c, f.body.node.Completes c → C.GivesUndefined c →
        C.decls.admitsUndefined r = true ∨ c = .normal ∧ C.OnlyReturnsValues f) ∧
      (C.OnlyReturnsValues f →
        (∀ e ∈ f.body.returns.values, ∀ u, C.ReturnsType e u →
          u.isMissing = false ∧ C.decls.Acyclic u) →
        C.decls.admitsUndefined r = false) := by
  obtain ⟨params, r, ts, ht, hreturns, hresults⟩ := exists_of_typeOf_function hresult h
  refine ⟨params, r, ht, fun c hc hgives => ?_, admitsUndefined_eq_false hreturns hresults⟩
  cases c with
  | normal =>
    by_cases hvalues : C.OnlyReturnsValues f
    · exact .inr ⟨rfl, hvalues⟩
    · simp only [OnlyReturnsValues, not_and_or, not_not, not_forall] at hvalues
      rcases hvalues with hnone | ⟨e, he, hundefined⟩
      · rw [hnone, List.forall₂_nil_left_iff] at hreturns
        subst hreturns
        cases hresults
        exact .inl rfl
      · exact .inl (admitsUndefined_of_mem_returns hreturns hresults he hundefined)
  | «return» e =>
    have hmem : e ∈ f.body.returns.values := Stmt.covers_of_node hc.covers
    exact .inl (admitsUndefined_of_mem_returns hreturns hresults hmem hgives)
  | throw | «break» | «continue» => cases hgives

/-- A loop is left at its head or by a bare return, after a clause of a switch that is
passed. -/
theorem admitsUndefined_of_completes_loop :
    let test : Expr := ⟨{}, .ident "test"⟩
    let clauses : List SwitchCase := [⟨test, [⟨{}, .return ⟨{}, .string "found"⟩⟩]⟩]
    let body : Stmt :=
      ⟨{}, .block [⟨{}, .switch test clauses⟩, ⟨{}, .while test ⟨{}, .return .missing⟩⟩]⟩
    let f : Func := { (default : Func) with body := body }
    let C : Checker := { scope := Environment.scope {} }
    let r : Ty := .union [.literal (.string "found"), .undefined]
    f.result.isMissing = true ∧
      (C.typeOf ⟨{}, .function f⟩).outcome = .ok (.function (.mk [] [] r)) ∧
      body.node.Completes .normal ∧ C.decls.admitsUndefined r = true := by
  intro test clauses body f C r
  have houtcome : (C.typeOf ⟨{}, .function f⟩).outcome = .ok (.function (.mk [] [] r)) := rfl
  have hswitch : (StmtNode.switch test clauses).Completes .normal :=
    StmtNode.Completes.switch List.nil_suffix (.nil : Stmt.CompletesAll _ .normal)
  have hrun : body.node.Completes .normal := .block (.next hswitch (.next (.while .leave) .nil))
  obtain ⟨params, r', hr', hruns, -⟩ := admitsUndefined_of_completes rfl houtcome
  obtain rfl : r = r' := by
    injection hr' with hsignature
    injection hsignature
  have hvalues : f.body.returns.values = [⟨{}, .string "found"⟩, .missing] := rfl
  refine ⟨rfl, houtcome, hrun, (hruns .normal hrun trivial).resolve_right fun ⟨_, _, hnone⟩ => ?_⟩
  exact hnone .missing (by simp [hvalues]) ⟨.undefined, .nothing rfl, rfl, rfl⟩

/-- A function that returns under a condition comes to its end as well, and its result is
the type of the return alone. -/
theorem typeOf_conditional_return :
    let test : Expr := ⟨{}, .ident "test"⟩
    let found : Stmt := ⟨{}, .return ⟨{}, .string "found"⟩⟩
    let f : Func :=
      { (default : Func) with body := ⟨{}, .block [⟨{}, .ifElse test found ⟨{}, .missing⟩⟩]⟩ }
    let C : Checker := { scope := (Environment.define {} "test" .boolean).scope }
    let r : Ty := .literal (.string "found")
    f.result.isMissing = true ∧ f.body.node.Completes .normal ∧
      (C.typeOf ⟨{}, .function f⟩).outcome = .ok (.function (.mk [] [] r)) ∧
      C.decls.isAny r = false ∧ C.decls.containsUndefined r = false :=
  ⟨rfl, .block (.next (.alternative .missing) .nil), rfl, rfl, rfl⟩

end Checker

end StructuralTyping
