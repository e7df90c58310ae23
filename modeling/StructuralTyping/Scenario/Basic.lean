import StructuralTyping.Checker.Infer

/-!
# Scenarios

A scenario is a file of cases.  It declares types and global values, and each
case checks an assignment or a call against what it expects.
-/

namespace StructuralTyping

/-- How the callee of a call is found. -/
structure CallCheck where
  callee : Ty
  /-- The global that names the callee, if one does. -/
  calleeName? : Option String := none
  /-- The member of the callee that is called, empty for the callee itself. -/
  member : String := ""
  isNew : Bool := false
  args : List Ty := []
  typeArgs : List Ty := []

/-- What a case checks. -/
inductive Check where
  | assign (target source : Ty)
  | extract (call : CallCheck)

namespace Check

/-- The name of a kind of check. -/
def kindText : Check → String
  | .assign _ _ => "assign"
  | .extract _ => "extract"

end Check

/-- What a case expects: success, a result type, or a diagnostic of some kind
somewhere in the tree. -/
inductive Expectation where
  | ok
  | type (t : Ty)
  | error (kind : String)

namespace Expectation

/-- The wording of an expectation. -/
def text (D : Decls) : Expectation → String
  | .ok => "ok"
  | .type t => D.text t
  | .error k => "error " ++ k

/-- Success is expected, whatever the result. -/
def isOk : Expectation → Bool
  | .ok => true
  | _ => false

end Expectation

/-- A case of a scenario. -/
structure Case where
  name : String
  line : Int
  check : Check
  expect : Expectation

/-- A file of cases. -/
structure Scenario where
  path : String
  /-- The file that the positions of diagnostics point into. -/
  file : SourceFile
  /-- The declared parts of the types and the globals. -/
  decls : Decls := {}
  types : List (String × Ty) := []
  globals : List (String × Ty) := []
  cases : List Case := []

end StructuralTyping
