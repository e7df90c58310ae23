import StructuralTyping.Checker.Session
import StructuralTyping.Scenario.Basic

/-!
# Running scenarios

Every case is checked in an environment that holds the types and the globals of
the scenario.  The arguments of a call are bound to names of their own in an
inner frame, and so is a callee that no global names.
-/

namespace StructuralTyping

/-- The outcome of a case. -/
structure CaseResult where
  case : Case
  passed : Bool
  /-- What the check produced. -/
  got : String
  failure? : Option Diagnostic := none
  /-- The declarations that the types in the outcome use. -/
  decls : Decls := {}
  /-- The records of inference. -/
  trace : List TraceRecord := []

namespace CallCheck

/-- The name of an argument. -/
def argName (i : Nat) : String := "$" ++ intText i

/-- Binds arguments in order, numbered from the given number. -/
def bindArgs (e : Environment) (i : Nat) : List Ty → Environment
  | [] => e
  | t :: ts => bindArgs (e.define (argName i) t) (i + 1) ts

/-- The arguments as expressions. -/
def argExprs (span : Span) (i : Nat) : List Ty → List Expr
  | [] => []
  | _ :: ts => ⟨span, .ident (argName i)⟩ :: argExprs span (i + 1) ts

/-- The callee as an expression. -/
def calleeExpr (span : Span) (name member : String) : Expr :=
  let object : Expr := ⟨span, .ident name⟩
  if member.isEmpty then object else ⟨span, .member object member⟩

/-- Checks a call.  A callee that is neither named nor asked for a member is
called by its type alone. -/
def run (k : CallCheck) (D : Decls) (e : Environment) (o : Options) (span : Span) : Infer Ty :=
  let scope := bindArgs e.enter 0 k.args
  let args := argExprs span 0 k.args
  if k.member.isEmpty && k.calleeName?.isNone then
    Checker.extract ⟨D, scope.scope, o⟩ k.callee ⟨k.isNew, args, k.typeArgs, span⟩
  else
    let (name, scope) :=
      match k.calleeName? with
      | some name => (name, scope)
      | none => ("$callee", scope.define "$callee" k.callee)
    let callee := calleeExpr span name k.member
    let node : ExprNode :=
      if k.isNew then .construct callee k.typeArgs args else .call callee k.typeArgs args
    Checker.typeOf ⟨D, scope.scope, o⟩ ⟨span, node⟩

end CallCheck

/-- Runs a check.  A check of an assignment has no result type. -/
def Check.run (D : Decls) (e : Environment) (o : Options) (span : Span) : Check → Infer Ty
  | .assign target source =>
    (Checker.assign ⟨D, e.scope, o⟩ target source span).map fun _ => .missing
  | .extract k => k.run D e o span

namespace Expectation

/-- A failure is expected, and it has the expected kind. -/
def meetsFailure (d : Diagnostic) : Expectation → Bool
  | .error k => d.hasKind k
  | _ => false

/-- A result type is expected, and it is equal. -/
def meetsType (D : Decls) (t : Ty) : Expectation → Bool
  | .ok => true
  | .type u => D.equal t u
  | .error _ => false

end Expectation

/-- The outcome of a case from the outcome of its check. -/
def CaseResult.ofOutcome (D : Decls) (c : Case) (r : Infer Ty) : CaseResult :=
  match r.outcome with
  | .error d =>
    { case := c, passed := c.expect.meetsFailure d, got := "error " ++ d.kind?.getD (d.text D)
      failure? := some d, decls := D, trace := r.trace }
  | .ok t =>
    if t.isMissing then
      { case := c, passed := c.expect.isOk, got := "ok", decls := D, trace := r.trace }
    else
      { case := c, passed := c.expect.meetsType D t, got := D.text t, decls := D
        trace := r.trace }

namespace Scenario

/-- The environment of a scenario. -/
def environment (s : Scenario) : Environment :=
  let e := s.types.foldl (fun (e : Environment) (name, t) => e.defineType name { type := t }) {}
  s.globals.foldl (fun (e : Environment) (name, t) => e.define name t) e

/-- Where the diagnostics of a case point. -/
def caseSpan (s : Scenario) (c : Case) : Span :=
  { file := some s.file, line := c.line, column := 1 }

/-- Runs a case under declarations that hold those of the scenario. -/
def runCase (s : Scenario) (D : Decls) (o : Options) (c : Case) : CaseResult :=
  .ofOutcome D c (c.check.run D s.environment o (s.caseSpan c))

/-- Runs all cases in order.  The types of configured globals are declared beside
those of the scenario. -/
def run (s : Scenario) (o : Options) : List CaseResult :=
  let (o, D) := o.declare.run s.decls
  s.cases.map (s.runCase D o)

end Scenario

end StructuralTyping
