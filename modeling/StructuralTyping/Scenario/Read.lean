import StructuralTyping.Scenario.Basic
import StructuralTyping.Yaml.Tree
import StructuralTyping.Yaml.Decode

/-!
# Reading scenarios

A scenario is written as a mapping with the sections `types`, `globals` and
`cases`.  A type may use the types before it.  A global may use all types, but
not another global.
-/

namespace StructuralTyping

open TypeSource (Names)
open Yaml (Node Fields Anchors)

/-! ## Problems -/

/-- The parts of a case that hold types. -/
inductive CasePart where
  | target
  | source
  | callee
  | args
  | typeArgs
  | expect
  deriving DecidableEq, Repr, Inhabited

/-- The name of a part of a case. -/
def CasePart.text : CasePart → String
  | .target => "to"
  | .source => "from"
  | .callee => "callee"
  | .args => "args"
  | .typeArgs => "typeArgs"
  | .expect => "expect"

/-- Why a node is no case. -/
inductive CaseProblem where
  | node (problem : Yaml.Problem)
  | within (part : CasePart) (problem : Yaml.Problem)
  | twoChecks (line : Int)
  | noCheck (line : Int)
  | assignIncomplete (line : Int)
  | calleeMissing (line : Int)
  | badKind (line : Int)
  | unknownDiagnostic (line : Int) (kind : String)
  | badExpectation (line : Int)

/-- The wording of a problem with a case. -/
def CaseProblem.text : CaseProblem → String
  | .node p => p.text
  | .within part p => part.text ++ ": " ++ p.text
  | .twoChecks l => Yaml.lineText l "a case is either assign or extract"
  | .noCheck l => Yaml.lineText l "case needs assign or extract"
  | .assignIncomplete l => Yaml.lineText l "assign needs to and from"
  | .calleeMissing l => Yaml.lineText l "extract needs a callee"
  | .badKind l => Yaml.lineText l "kind must be call or new"
  | .unknownDiagnostic l k => Yaml.lineText l ("unknown diagnostic kind " ++ quote k)
  | .badExpectation l => Yaml.lineText l "assign expects ok or a diagnostic kind"

/-- Why a text is no scenario. -/
inductive ScenarioProblem where
  | malformed
  | root (problem : Yaml.Problem)
  | unknownSection (key : String)
  | types (problem : Yaml.Problem)
  | globals (problem : Yaml.Problem)
  | casesNotList
  | inCase (number : Nat) (problem : CaseProblem)

/-- The wording of a problem with the scenario at a path. -/
def ScenarioProblem.text (path : String) (p : ScenarioProblem) : String :=
  let detail :=
    match p with
    | .malformed => "yaml"
    | .root p => p.text
    | .unknownSection k => "unknown section " ++ quote k
    | .types p => "types: " ++ p.text
    | .globals p => "globals: " ++ p.text
    | .casesNotList => "cases must be a sequence"
    | .inCase n p => "case " ++ intText n ++ ": " ++ p.text
  "parsing " ++ path ++ ": " ++ detail

/-! ## Bindings -/

namespace Scenario

/-- The bindings read so far, with the names and the declarations they use. -/
structure Bindings where
  types : List (String × Ty) := []
  names : Names := {}
  decls : Decls := {}

/-- One more binding.  If its name is declared, the bindings that follow can use it, and
the parts of its type are declared, so that every use of the name means the same type. -/
def Bindings.bind (B : Bindings) (declares : Bool) (name : String) (t : Ty) : Bindings :=
  if declares then
    let (t, D) := t.declare.run B.decls
    { types := B.types ++ [(name, t)], names := B.names.declare name t, decls := D }
  else { B with types := B.types ++ [(name, t)] }

/-- The bindings of a section in order, after those given. -/
def bindingsFrom (A : Anchors) (declares : Bool) (B : Bindings) :
    List (String × Node) → Yaml.Outcome Bindings
  | [] => .ok B
  | (name, n) :: rest => do
    let t ← Yaml.inPart .binding name (A.decode B.names n)
    bindingsFrom A declares (B.bind declares name t) rest

/-- The bindings of a section, which may be left empty. -/
def bindings (A : Anchors) (declares : Bool) (B : Bindings) (n : Node) : Yaml.Outcome Bindings :=
  if n.isNullScalar then .ok B
  else do bindingsFrom A declares B (← A.fields n).entries

/-! ## Cases -/

/-- What cases can use: the anchors, the names of types and the globals. -/
structure Setting where
  anchors : Anchors
  names : Names
  globals : List (String × Ty)

/-- What cases can use when the globals are read. -/
def Bindings.setting (G : Bindings) (A : Anchors) : Setting := ⟨A, G.names, G.types⟩

/-- A problem with a node of a case. -/
def nodeProblem : Yaml.Outcome α → Except CaseProblem α
  | .ok a => .ok a
  | .error p => .error (.node p)

/-- A problem in a part of a case. -/
def inCasePart (part : CasePart) : Yaml.Outcome α → Except CaseProblem α
  | .ok a => .ok a
  | .error p => .error (.within part p)

namespace Setting

/-- The type of a node. -/
def type (S : Setting) (n : Node) : Yaml.Outcome Ty := S.anchors.decode S.names n

/-- The types of a sequence. -/
def typeList (S : Setting) (n : Node) : Yaml.Outcome (List Ty) := do
  Yaml.decodeEach S.type (← S.anchors.items n)

/-- The types of a sequence in a part of a case, none when it is left out. -/
def partTypes (S : Setting) (part : CasePart) : Option Node → Except CaseProblem (List Ty)
  | none => .ok []
  | some n => inCasePart part (S.typeList n)

/-- Reads the check of an assignment. -/
def assignCheck (S : Setting) (n : Node) : Except CaseProblem Check := do
  let f ← nodeProblem (S.anchors.fields n)
  match f.get? "to", f.get? "from" with
  | some target, some source =>
    let target ← inCasePart .target (S.type target)
    let source ← inCasePart .source (S.type source)
    .ok (.assign target source)
  | _, _ => .error (.assignIncomplete n.line)

/-- The global that a callee names. -/
def global? (S : Setting) : Node → Option (String × Ty)
  | .scalar _ s => (S.globals.lookup s.shown).map (s.shown, ·)
  | _ => none

/-- Reads the callee of a call.  The name of a global stands for that global, and
a global without a name for its type. -/
def callee (S : Setting) (n : Node) : Except CaseProblem (Ty × Option String) :=
  match S.global? n with
  | some (name, t) => .ok (t, if name.isEmpty then none else some name)
  | none => (inCasePart .callee (S.type n)).map (·, none)

/-- Reads the kind of a call. -/
def callKind : Option Node → Except CaseProblem Bool
  | none => .ok false
  | some n =>
    match n.value with
    | "call" => .ok false
    | "new" => .ok true
    | _ => .error (.badKind n.line)

/-- Reads the check of a call. -/
def extractCheck (S : Setting) (n : Node) : Except CaseProblem Check := do
  let f ← nodeProblem (S.anchors.fields n)
  match f.get? "callee" with
  | none => .error (.calleeMissing n.line)
  | some c =>
    let (callee, calleeName?) ← S.callee c
    let isNew ← callKind (f.get? "kind")
    let args ← S.partTypes .args (f.get? "args")
    let typeArgs ← S.partTypes .typeArgs (f.get? "typeArgs")
    .ok (.extract
      { callee, calleeName?, isNew, args, typeArgs,
        member := ((f.get? "member").map Node.value).getD "" })

/-- The kinds of diagnostics that a case may expect. -/
def expectableKinds : List String :=
  ["UndefinedSymbol", "NoCallSignature", "NoNewSignature", "WrongTypeParams", "WrongParams",
    "AssignFailed", "UnionError", "IntersectionError", "MissingFields", "CannotAssignToThis",
    "Unsupported"]

/-- An expectation written as one word. -/
def wordExpectation? (n : Node) : Option Expectation :=
  match n with
  | .scalar _ s =>
    let word := trimSpace s.shown
    if n.ownTag? != some .text then none
    else if word == "ok" then some .ok
    else if expectableKinds.contains word then some (.error word)
    else none
  | _ => none

/-- An expectation written as a mapping with the key `error` or `type`. -/
def mappedExpectation? (S : Setting) (n : Node) : Except CaseProblem (Option Expectation) :=
  match n with
  | .mapping _ _ => do
    let f ← nodeProblem (S.anchors.fields n)
    match f.get? "error", f.get? "type" with
    | some e, _ =>
      if expectableKinds.contains e.value then .ok (some (.error e.value))
      else .error (.unknownDiagnostic e.line e.value)
    | none, some t => (inCasePart .expect (S.type t)).map fun t => some (.type t)
    | none, none => .ok none
  | _ => .ok none

/-- Reads an expectation.  For a call it may be the result type itself. -/
def expectation (S : Setting) (check : Check) (n : Node) : Except CaseProblem Expectation := do
  match wordExpectation? n with
  | some e => .ok e
  | none =>
    match ← S.mappedExpectation? n with
    | some e => .ok e
    | none =>
      match check with
      | .assign _ _ => .error (.badExpectation n.line)
      | .extract _ => (inCasePart .expect (S.type n)).map .type

/-- Reads what a case checks. -/
def check (S : Setting) (line : Int) (f : Fields) : Except CaseProblem Check :=
  match f.get? "assign", f.get? "extract" with
  | some _, some _ => .error (.twoChecks line)
  | some n, none => S.assignCheck n
  | none, some n => S.extractCheck n
  | none, none => .error (.noCheck line)

/-- Reads a case.  A case without a name is named by its number. -/
def case (S : Setting) (number : Nat) (n : Node) : Except CaseProblem Case := do
  let f ← nodeProblem (S.anchors.fields n)
  let given := ((f.get? "name").map fun n => trimSpace n.value).getD ""
  let check ← S.check n.line f
  let expect ←
    match f.get? "expect" with
    | none => .ok .ok
    | some e => S.expectation check e
  .ok
    { name := if given.isEmpty then "case " ++ intText number else given
      line := n.line, check, expect }

/-- Reads cases in order, numbered from the given number. -/
def casesFrom (S : Setting) (number : Nat) : List Node → Except ScenarioProblem (List Case)
  | [] => .ok []
  | n :: ns =>
    match S.case number n with
    | .error p => .error (.inCase number p)
    | .ok c => (S.casesFrom (number + 1) ns).map (c :: ·)

/-- Reads the section of the cases, empty when it is left out. -/
def sectionCases (S : Setting) : Option Node → Except ScenarioProblem (List Case)
  | none => .ok []
  | some (.sequence _ ns) => S.casesFrom 1 ns
  | some _ => .error .casesNotList

end Setting

/-! ## Scenarios -/

/-- The sections of a scenario. -/
def sections : List String := ["types", "globals", "cases"]

/-- Reads a section of bindings, empty when it is left out. -/
def sectionBindings (A : Anchors) (declares : Bool) (B : Bindings)
    (problem : Yaml.Problem → ScenarioProblem) : Option Node → Except ScenarioProblem Bindings
  | none => .ok B
  | some n =>
    match bindings A declares B n with
    | .ok B => .ok B
    | .error p => .error (problem p)

/-- The types and the globals of a scenario.  A global may use all types. -/
def declarations (A : Anchors) (f : Fields) : Except ScenarioProblem (Bindings × Bindings) := do
  let T ← sectionBindings A true {} .types (f.get? "types")
  let G ← sectionBindings A false { T with types := [] } .globals (f.get? "globals")
  .ok (T, G)

/-- Reads the fields of a scenario into an empty one. -/
def ofFields (s : Scenario) (A : Anchors) (f : Fields) : Except ScenarioProblem Scenario := do
  match f.keys.find? fun k => !sections.contains k with
  | some k => .error (.unknownSection k)
  | none =>
    let (T, G) ← declarations A f
    let cases ← (G.setting A).sectionCases (f.get? "cases")
    .ok { s with decls := G.decls, types := T.types, globals := G.types, cases }

/-- Reads a scenario.  A text without a document has no cases. -/
def read (path content : String) : Except ScenarioProblem Scenario :=
  let s : Scenario := { path, file := .atPath path content }
  match Yaml.readDocument content with
  | none => .error .malformed
  | some none => .ok s
  | some (some d) =>
    match Anchors.fields d.anchors d.root with
    | .error p => .error (.root p)
    | .ok f => s.ofFields d.anchors f

end Scenario

end StructuralTyping
