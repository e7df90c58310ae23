import StructuralTyping.Checker.Trace

/-!
# Programs of inference

Inference asks about the types of parts and the results of calls, checks
assignments, and leaves records.  An `Inference` is a program that says which
question comes next and how it goes on after the answer, be it a success or a
failure.  It does not say how an answer is found.

`Inference.runIn` runs a program.  What finds the answers works on a state, which
is handed on from one answer to the next, whether or not it was a success.
-/

namespace StructuralTyping

/-! ## Questions -/

/-- A call or a construction. -/
structure CallSite where
  isNew : Bool
  args : List Expr
  typeArgs : List Ty
  span : Span

/-- The questions of inference. -/
inductive Question where
  /-- The type of an expression. -/
  | typeOf (expr : Expr)
  /-- The result of calling a value of a type. -/
  | extract (callee : Ty) (site : CallSite)
  /-- The result of calling a member of a value of a type. -/
  | extractMember (object : Ty) (key : PropKey) (site : CallSite)

/-! ## Programs -/

/-- A program that leads to an outcome. -/
inductive Inference (α : Type) where
  | done (outcome : Except Diagnostic α)
  | record (record : TraceRecord) (next : Inference α)
  | question (question : Question) (next : Except Diagnostic Ty → Inference α)
  | assignment (target source : Ty) (span : Span) (next : Except Diagnostic Unit → Inference α)

namespace Inference

/-- Success. -/
def pure (a : α) : Inference α := .done (.ok a)

/-- Failure. -/
def fail (d : Diagnostic) : Inference α := .done (.error d)

/-- An outcome that needs no answers. -/
def ofExcept (r : Except Diagnostic α) : Inference α := .done r

/-- Asks a question. -/
def ask (q : Question) : Inference Ty := .question q .done

/-- Checks an assignment. -/
def assign (target source : Ty) (span : Span) : Inference Unit :=
  .assignment target source span .done

/-- Leaves a record. -/
def note (r : TraceRecord) : Inference Unit := .record r (.pure ())

/-- Goes on after an outcome. -/
def andThen : Inference α → (Except Diagnostic α → Inference β) → Inference β
  | .done r, f => f r
  | .record r next, f => .record r (next.andThen f)
  | .question q next, f => .question q fun a => (next a).andThen f
  | .assignment target source span next, f => .assignment target source span fun a =>
      (next a).andThen f

/-- Goes on after a success. -/
def bind (m : Inference α) (f : α → Inference β) : Inference β :=
  m.andThen fun
    | .ok a => f a
    | .error d => .fail d

instance : Monad Inference where
  pure := Inference.pure
  bind := Inference.bind

/-- The outcome of an attempt as a value.  The attempt never fails. -/
def attempt (m : Inference α) : Inference (Except Diagnostic α) := m.andThen .pure

/-- Adds a record of the outcome at the end. -/
def noteOutcome (m : Inference α) (f : Except Diagnostic α → TraceRecord) : Inference α :=
  m.andThen fun r => .record (f r) (.done r)

/-- All steps in order, up to the first failure. -/
def mapList (f : α → Inference β) : List α → Inference (List β)
  | [] => .pure []
  | x :: xs => (f x).bind fun y => (mapList f xs).bind fun ys => .pure (y :: ys)

/-- Tries the steps in order and keeps the first success.  The reasons of all of
them when none succeeds. -/
def firstSuccess (f : α → Inference β) : List α → Inference (Except (List Diagnostic) β)
  | [] => .pure (.error [])
  | x :: xs =>
    (f x).attempt.bind fun
      | .ok b => .pure (.ok b)
      | .error d =>
        (firstSuccess f xs).bind fun
          | .ok b => .pure (.ok b)
          | .error ds => .pure (.error (d :: ds))

/-! ## Runs -/

/-- Runs a program.  The state goes from answer to answer. -/
def runIn (ask : Question → StateM σ (Infer Ty)) (assign : Ty → Ty → Span → StateM σ (Infer Unit)) :
    Inference α → StateM σ (Infer α)
  | .done r => return ⟨r, []⟩
  | .record r next => do return (← next.runIn ask assign).after [r]
  | .question q next => do
    let a ← ask q
    return (← (next a.outcome).runIn ask assign).after a.trace
  | .assignment target source span next => do
    let a ← assign target source span
    return (← (next a.outcome).runIn ask assign).after a.trace

end Inference

end StructuralTyping
