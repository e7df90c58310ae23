import StructuralTyping.Checker.Session
import StructuralTyping.Proofs.Assigner

/-!
# Calls do not see each other

A program whose answers keep the state keeps it as well (`Inference.keeps_runIn`), no
matter where it fails and what it tries next.  A question that is entered raises the
counter by one, runs a program, and lowers the counter by one.  So by induction every
question keeps what the checker keeps.

What a question is answered then hangs on the counter alone, by the number of levels
that are left.  `Checker.answer` is the answer by levels.  Between calls the counter is
at zero and no question is open, which is how a new checker starts
(`Checker.performAll_eq_map`).
-/

namespace StructuralTyping

/-! ## Programs -/

namespace Inference

/-- Runs a program on answers that need no state. -/
def run (ask : Question → Infer Ty) (assign : Ty → Ty → Span → Infer Unit) : Inference α → Infer α
  | .done r => ⟨r, []⟩
  | .record r next => (next.run ask assign).after [r]
  | .question q next => ((next (ask q).outcome).run ask assign).after (ask q).trace
  | .assignment target source span next =>
    ((next (assign target source span).outcome).run ask assign).after
    (assign target source span).trace

/-- A program keeps the state that its answers keep. -/
theorem keeps_runIn {s : σ} {askIn : Question → StateM σ (Infer Ty)}
    {assignIn : Ty → Ty → Span → StateM σ (Infer Unit)} {ask : Question → Infer Ty}
    {assign : Ty → Ty → Span → Infer Unit} (hask : ∀ q, Keeps s (askIn q) (ask q))
    (hassign : ∀ target source span,
      Keeps s (assignIn target source span) (assign target source span))
    (m : Inference α) : Keeps s (m.runIn askIn assignIn) (m.run ask assign) := by
  induction m with
  | done r => exact .pure s _
  | record r next ih => exact ih.map _
  | question q next ih => exact (hask q).bind ((ih _).map _)
  | assignment target source span next ih => exact (hassign target source span).bind ((ih _).map _)

section Outcome

variable (ask : Question → Infer Ty) (assign : Ty → Ty → Span → Infer Unit)

/-- The outcome of a program. -/
def outcome (m : Inference α) : Except Diagnostic α := (m.run ask assign).outcome

theorem outcome_andThen (m : Inference α) (f : Except Diagnostic α → Inference β) :
    (m.andThen f).outcome ask assign = (f (m.outcome ask assign)).outcome ask assign := by
  induction m with
  | done r => rfl
  | record r next ih => exact ih
  | question q next ih => exact ih _
  | assignment target source span next ih => exact ih _

theorem outcome_bind (m : Inference α) (f : α → Inference β) :
    (m >>= f).outcome ask assign =
      match m.outcome ask assign with
      | .ok a => (f a).outcome ask assign
      | .error d => .error d := by
  refine (outcome_andThen ask assign m _).trans ?_
  cases m.outcome ask assign <;> rfl

theorem outcome_noteOutcome (m : Inference α) (f : Except Diagnostic α → TraceRecord) :
    (m.noteOutcome f).outcome ask assign = m.outcome ask assign := outcome_andThen ask assign m _

theorem outcome_attempt (m : Inference α) :
    m.attempt.outcome ask assign = .ok (m.outcome ask assign) :=
  outcome_andThen ask assign m _

/-- The first success of a list of attempts is kept, however the attempts before it failed. -/
theorem outcome_firstSuccess (f : α → Inference β) (xs : List α) :
    ∃ ds, (firstSuccess f xs).outcome ask assign =
      match xs.findSome? fun x => ((f x).outcome ask assign).toOption with
      | some b => .ok (.ok b)
      | none => .ok (.error ds) := by
  induction xs with
  | nil => exact ⟨[], rfl⟩
  | cons x xs ih =>
    obtain ⟨ds, ih⟩ := ih
    rw [firstSuccess]
    change ∃ ds, (_ >>= _ : Inference _).outcome ask assign = _
    rw [outcome_bind, outcome_attempt, List.findSome?_cons]
    cases (f x).outcome ask assign with
    | ok b => exact ⟨[], rfl⟩
    | error d =>
      refine ⟨d :: ds, (outcome_bind ask assign (firstSuccess f xs) _).trans ?_⟩
      rw [ih]
      cases xs.findSome? fun x => ((f x).outcome ask assign).toOption <;> rfl

end Outcome

end Inference

namespace Checker

variable {C : Checker}

/-! ## Questions -/

/-- The outcome of an assignment that is checked on its own. -/
def assignment (C : Checker) (target source : Ty) (span : Span) : Infer Unit :=
  assignmentOutcome target source (C.decls.assign C.options.maxDepth target source span)

/-- The answer to a question with some levels left. -/
def answer (C : Checker) : Nat → Question → Infer Ty
  | 0, q => refusal q
  | levels + 1, q =>
    if q.isMissing then refusal q else (C.step q).run (C.answer levels) C.assignment

theorem answer_of_isMissing {levels : Nat} {q : Question} (h : q.isMissing = true) :
    C.answer levels q = refusal q := by
  cases levels with
  | zero => rfl
  | succ levels => rw [answer, if_pos h]

theorem outcome_answer_typeOf (levels : Nat) {e : Expr} (h : e.isMissing = false) :
    (C.answer (levels + 1) (.typeOf e)).outcome =
      (C.typeOfStep e).outcome (C.answer levels) C.assignment := by
  have hmissing : (Question.typeOf e).isMissing = false := h
  rw [answer, hmissing]
  exact Inference.outcome_noteOutcome _ _ _ _

theorem keeps_assignIn (C : Checker) (depth : Nat) (target source : Ty) (span : Span) :
    Keeps ⟨depth, []⟩ (C.assignIn target source span) (C.assignment target source span) := by
  have hverdict : (C.decls.assigning C.options.maxDepth target source span).run [] = _ :=
    C.decls.keeps_assigning C.options.maxDepth target source span
  refine .get_bind ?_
  dsimp only
  rw [hverdict]
  rfl

/-- A question keeps the counter.  As many levels are left as the counter is below its
limit. -/
theorem keeps_answerIn {fuel depth : Nat} (hfuel : C.options.expressionDepth ≤ fuel + depth)
    (q : Question) :
    Keeps ⟨depth, []⟩ (C.answerIn fuel q) (C.answer (C.options.expressionDepth - depth) q) := by
  induction fuel generalizing depth q with
  | zero =>
    rw [Nat.sub_eq_zero_of_le (by omega)]
    exact .pure _ _
  | succ fuel ih =>
    refine .get_bind ?_
    cases hmissing : q.isMissing with
    | true =>
      rw [answer_of_isMissing hmissing]
      simp only [mayEnter, hmissing]
      exact .pure _ _
    | false =>
      by_cases hdepth : depth < C.options.expressionDepth
      · have hlevels : C.options.expressionDepth - depth =
            C.options.expressionDepth - (depth + 1) + 1 := by
          omega
        rw [hlevels, answer, hmissing]
        simp only [mayEnter, hmissing, hdepth]
        exact .bracket rfl
          (Inference.keeps_runIn (ih (by omega)) (C.keeps_assignIn (depth + 1)) (C.step q))
      · rw [Nat.sub_eq_zero_of_le (by omega)]
        simp only [mayEnter, hmissing, hdepth]
        exact .pure _ _

/-- A question from outside has the levels that the counter leaves. -/
theorem respond_eq_answer (C : Checker) (depth : Nat) (q : Question) :
    ((C.respond q).run ⟨depth, []⟩).1 = C.answer (C.options.expressionDepth - depth) q := by
  have hkeeps : Keeps ⟨depth, []⟩ (C.respond q) _ := keeps_answerIn (by omega) q
  exact congrArg Prod.fst hkeeps

theorem typeOf_eq_answer (C : Checker) (e : Expr) :
    C.typeOf e = C.answer C.options.expressionDepth (.typeOf e) := C.respond_eq_answer 0 _

theorem extract_eq_answer (C : Checker) (callee : Ty) (site : CallSite) :
    C.extract callee site = C.answer C.options.expressionDepth (.extract callee site) :=
  C.respond_eq_answer 0 _

/-! ## Calls -/

/-- What a call answers where some levels are left. -/
def outcome (C : Checker) (levels : Nat) : Call → Infer (Option Ty)
  | .typeOf e => (C.answer levels (.typeOf e)).map some
  | .extract callee site => (C.answer levels (.extract callee site)).map some
  | .assign target source span => (C.assignment target source span).map fun _ => none

/-- A call keeps the counter, and leaves no question open. -/
theorem keeps_perform (C : Checker) (depth : Nat) (call : Call) :
    Keeps ⟨depth, []⟩ (C.perform call) (C.outcome (C.options.expressionDepth - depth) call) := by
  cases call with
  | typeOf e => exact (keeps_answerIn (by omega) _).map _
  | extract callee site => exact (keeps_answerIn (by omega) _).map _
  | assign target source span => exact (C.keeps_assignIn depth target source span).map _

theorem keeps_performAll (C : Checker) (calls : List Call) :
    Keeps {} (C.performAll calls)
      (calls.map fun call => (C.outcome C.options.expressionDepth call, {})) := by
  induction calls with
  | nil => exact .pure _ _
  | cons call calls ih => exact (C.keeps_perform 0 call).bind (.get_bind (ih.map _))

/-- Calls do not see each other.  A call leaves the counter as it was and no question
open, whether or not it succeeds.  In a sequence of calls on a new checker, each call
gets the answer that it gets from a checker of its own. -/
theorem performAll_eq_map (C : Checker) :
    (∀ depth call, ((C.perform call).run ⟨depth, []⟩).2 = ⟨depth, []⟩) ∧
      ∀ calls, (C.performAll calls).run {} =
        (calls.map fun call => (((C.perform call).run {}).1, {}), {}) := by
  have houtcome : ∀ call,
      (C.perform call).run {} = (C.outcome C.options.expressionDepth call, {}) :=
    C.keeps_perform 0
  refine ⟨fun depth call => congrArg Prod.snd (C.keeps_perform depth call), fun calls => ?_⟩
  simp only [houtcome]
  exact C.keeps_performAll calls

end Checker

end StructuralTyping
