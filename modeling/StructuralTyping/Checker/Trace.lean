import StructuralTyping.Diagnostic.Basic
import StructuralTyping.Expr.Text

/-!
# Traced inference

An inference step succeeds with a value or fails with a diagnostic, and in both
cases leaves records of what it did.  Records of a failed attempt are kept when
another attempt succeeds.
-/

namespace StructuralTyping

/-- A record of an inference step. -/
inductive TraceRecord where
  | typed (expr : Expr) (type : Ty)
  | failed (expr : Expr) (reason : Diagnostic)
  | assignFailed (target source : Ty) (reason : Diagnostic)
  | memberSkipped (member : ClassMember)

/-- A record as a message and named values. -/
structure LogLine where
  message : String
  values : List (String × String)

/-- The wording of a record. -/
def TraceRecord.logLine (D : Decls) : TraceRecord → LogLine
  | .typed e t => ⟨"typeOf", [("expr", e.text D), ("type", D.text t)]⟩
  | .failed e d => ⟨"typeOf failed", [("expr", e.text D), ("err", d.text D)]⟩
  | .assignFailed target source d =>
    ⟨"assign failed", [("to", D.text target), ("from", D.text source), ("err", d.text D)]⟩
  | .memberSkipped m => ⟨"class member skipped", [("member", m.text D), ("pos", m.span.text)]⟩

/-- An outcome with the records that lead to it, in order. -/
structure Infer (α : Type) where
  outcome : Except Diagnostic α
  trace : List TraceRecord := []

namespace Infer

/-- The value of a success replaced by another one. -/
def map (f : α → β) (m : Infer α) : Infer β := ⟨m.outcome.map f, m.trace⟩

/-- The outcome with records that come before its own. -/
def after (records : List TraceRecord) (m : Infer α) : Infer α := ⟨m.outcome, records ++ m.trace⟩

end Infer

end StructuralTyping
