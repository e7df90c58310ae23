import StructuralTyping.Assigner
import StructuralTyping.Checker.Infer

/-!
# Sessions

A checker is used for many calls.  Between them it keeps a counter of the questions
that it is inside of, and the open questions of its assigner.  A question is entered
before its program runs and left afterwards, whether or not the program succeeded.  A
question is too deep when the counter is at its limit.

A checker that has just been made starts with the counter at zero and without open
questions.
-/

namespace StructuralTyping

/-- What a checker keeps. -/
structure Session where
  /-- The number of questions that have been entered and not left. -/
  depth : Nat := 0
  /-- The questions that the assigner has not decided yet. -/
  opened : List Pair := []

/-- The question has no expression. -/
def Question.isMissing : Question → Bool
  | .typeOf e => e.isMissing
  | .extract _ _ | .extractMember _ _ _ => false

/-- Where a question comes from. -/
def Question.span : Question → Span
  | .typeOf e => e.span
  | .extract _ site | .extractMember _ _ site => site.span

namespace Checker

/-! ## Questions -/

/-- The answer to a question that cannot be entered. -/
def refusal (q : Question) : Infer Ty :=
  ⟨.error (if q.isMissing then .unsupported Span.none .missingExpression
    else .unsupported q.span .expressionTooDeep), []⟩

/-- The outcome of an assignment.  A failure is recorded. -/
def assignmentOutcome (target source : Ty) : Verdict → Infer Unit
  | .ok _ => ⟨.ok (), []⟩
  | .error d => ⟨.error d, [.assignFailed target source d]⟩

/-- Checks an assignment. -/
def assignIn (C : Checker) (target source : Ty) (span : Span) : StateM Session (Infer Unit) := do
  let session ← get
  let (verdict, opened) :=
    (C.decls.assigning C.options.maxDepth target source span).run session.opened
  set { session with opened }
  return assignmentOutcome target source verdict

/-- A question may be entered. -/
def mayEnter (C : Checker) (session : Session) (q : Question) : Bool :=
  !q.isMissing && session.depth < C.options.expressionDepth

/-- Answers a question.  The counter ends the recursion before the fuel does. -/
def answerIn (C : Checker) : Nat → Question → StateM Session (Infer Ty)
  | 0, q => return refusal q
  | fuel + 1, q => do
    if !C.mayEnter (← get) q then return refusal q
    modify fun session => { session with depth := session.depth + 1 }
    let answer ← (C.step q).runIn (C.answerIn fuel) C.assignIn
    modify fun session => { session with depth := session.depth - 1 }
    return answer

/-! ## Calls -/

/-- A call of a checker. -/
inductive Call where
  /-- The type of an expression. -/
  | typeOf (expr : Expr)
  /-- The result of calling or constructing a value of a type. -/
  | extract (callee : Ty) (site : CallSite)
  /-- An assignment is checked. -/
  | assign (target source : Ty) (span : Span)

/-- Answers a question that is asked from outside. -/
def respond (C : Checker) (q : Question) : StateM Session (Infer Ty) :=
  C.answerIn (C.options.expressionDepth + 1) q

/-- Performs a call.  A check of an assignment has no type as its result. -/
def perform (C : Checker) : Call → StateM Session (Infer (Option Ty))
  | .typeOf e => do return (← C.respond (.typeOf e)).map some
  | .extract callee site => do return (← C.respond (.extract callee site)).map some
  | .assign target source span => do return (← C.assignIn target source span).map fun _ => none

/-- Performs calls in order.  Each result comes with what the checker keeps after the
call. -/
def performAll (C : Checker) : List Call → StateM Session (List (Infer (Option Ty) × Session))
  | [] => return []
  | call :: calls => do
    let result ← C.perform call
    let session ← get
    return (result, session) :: (← C.performAll calls)

/-! ## Calls of a new checker -/

/-- The type of an expression. -/
def typeOf (C : Checker) (e : Expr) : Infer Ty := ((C.respond (.typeOf e)).run {}).1

/-- The result of calling or constructing a value of a type. -/
def extract (C : Checker) (callee : Ty) (site : CallSite) : Infer Ty :=
  ((C.respond (.extract callee site)).run {}).1

/-- Checks an assignment. -/
def assign (C : Checker) (target source : Ty) (span : Span) : Infer Unit :=
  ((C.assignIn target source span).run {}).1

end Checker

end StructuralTyping
