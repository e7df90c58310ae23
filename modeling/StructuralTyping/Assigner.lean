import StructuralTyping.Assign

/-!
# The assigner

An assigner is used for many questions, one after the other.  The questions that
are still open are its state.  A question is put into the state before its rules are
looked at, and it is taken out when they have decided, whichever way they did.

The rules are those of `Decls.assignStep`.  Here every recursive question may change
the state, so a rule hands the state from one question to the next.
-/

namespace StructuralTyping

/-- A step of an assigner, which has the open questions as its state. -/
abbrev Assigner (α : Type) := StateM (List Pair) α

namespace Assigner

/-! ## Lists of questions -/

/-- All questions in order, up to the first failure. -/
def firstFailure (ask : α → Assigner Verdict) : List α → Assigner Verdict
  | [] => return .holds
  | x :: xs => do
    match ← ask x with
    | .ok _ => firstFailure ask xs
    | .error d => return .error d

/-- The failures among all questions. -/
def allFailures (ask : α → Assigner Verdict) : List α → Assigner (List Diagnostic)
  | [] => return []
  | x :: xs => do
    match ← ask x with
    | .ok _ => allFailures ask xs
    | .error d => return d :: (← allFailures ask xs)

/-- Tries the questions in order.  The failures of all of them when none holds. -/
def firstSuccess (ask : α → Assigner Verdict) : List α → Assigner (Except (List Diagnostic) Unit)
  | [] => return .error []
  | x :: xs => do
    match ← ask x with
    | .ok _ => return .ok ()
    | .error d =>
      match ← firstSuccess ask xs with
      | .ok _ => return .ok ()
      | .error ds => return .error (d :: ds)

/-! ## Members -/

variable (D : Decls) (span : Span) (ask : Ty → Ty → Assigner Verdict)

/-- Looks for a candidate that goes together with a member and asks its question.
False when there is none. -/
def assignMember (m : Member) : List Member → Assigner (Except Diagnostic Bool)
  | [] => return .ok false
  | c :: cs =>
    match D.memberQuestion? m c with
    | some (t, u) => do
      match ← ask t u with
      | .ok _ => return .ok true
      | .error d => return .error d
    | none => assignMember m cs

/-- A member of the target is provided by the members of the source. -/
def providesMember (source : List Member) (m : Member) : Assigner (Except Diagnostic Bool) :=
  match m.key? with
  | none => return .ok (source.any (D.memberEqualIgnoringNames m))
  | some key => do return (← assignMember D ask m (findMembers source key)).map (· || m.isOptional)

/-- The members of the target that the source lacks. -/
def lackingMembers (source : List Member) : List Member → Assigner (Except Diagnostic (List Member))
  | [] => return .ok []
  | m :: ms => do
    match ← providesMember D ask source m with
    | .error d => return .error d
    | .ok provided =>
      return (← lackingMembers source ms).map fun lacking =>
        if provided then lacking else m :: lacking

/-- All members of the target are provided by the source. -/
def assignMembers (target source : List Member) : Assigner Verdict := do
  match ← lackingMembers D ask source target with
  | .error d => return .error d
  | .ok [] => return .holds
  | .ok lacking => return .error (.missingFields span lacking)

/-! ## One step -/

/-- The elements of a tuple in order.  An element that is `undefined` is let
through. -/
def assignElements : List Ty → List Ty → Assigner Verdict
  | t :: ts, s :: ss => do
    match ← ask t s with
    | .ok _ => assignElements ts ss
    | .error d => if D.isKeyword s .undefined then assignElements ts ss else return .error d
  | _, _ => return .holds

/-- Functions and constructors without type parameters are compared by their
results. -/
def assignSignature (fail : Diagnostic) (target : Signature) : Option Signature → Assigner Verdict
  | some s => if s.typeParams.isEmpty then ask target.result s.result else return .error fail
  | none => return .error fail

/-- The rules by the shape of the target. -/
def assignShape (target source : Ty) : Assigner Verdict :=
  let fail (causes : List Diagnostic) : Diagnostic := .assignFailed span target source causes
  match D.head target, D.head source with
  | .array t, .array s => do
    match ← ask t s with
    | .ok _ => return .holds
    | .error d => return .error (fail [d])
  | .array t, .tuple ss => firstFailure (ask t) ss
  | .array _, _ => return .error (fail [])
  | .union bs, _ => do
    match ← firstSuccess (ask · source) bs with
    | .ok _ => return .holds
    | .error ds => return .error (fail ds)
  | .inter bs, _ => do
    match ← firstFailure (ask · source) bs with
    | .ok _ => return .holds
    | .error d => return .error (.intersectionFailed span d)
  | .keyword k, s => return Decls.require (Decls.keywordAccepts k s) (fail [])
  | .enum name _ _, .variant enumName _ => return Decls.require (enumName == name) (fail [])
  | .enum _ _ _, _ => return .error (fail [])
  | .variant _ _, _ => return .error (fail [])
  | .literal _, _ => return .error (fail [])
  | .function t, s =>
    if t.typeParams.isEmpty then
      assignSignature ask (fail []) t (match s with | .function r => some r | _ => none)
    else return D.assignOtherwise span target source
  | .ctor t, s =>
    if t.typeParams.isEmpty then
      assignSignature ask (fail []) t (match s with | .ctor r => some r | _ => none)
    else return D.assignOtherwise span target source
  | .tuple ts, .tuple ss =>
    if ss.length == ts.length then assignElements D ask ts ss else return .error (fail [])
  | .tuple _, _ => return .error (fail [])
  | .object _, .tuple _ | .object _, .array _ | .object _, .literal _
  | .interface _ _ _ _, .tuple _ | .interface _ _ _ _, .array _ | .interface _ _ _ _, .literal _
  | .classType _ _ _ _, .tuple _ | .classType _ _ _ _, .array _ | .classType _ _ _ _, .literal _ =>
    return .error (fail [])
  | _, _ =>
    match D.allMembers? target, D.allMembers? source with
    | some wanted, some members => assignMembers D span ask wanted members
    | _, _ => return D.assignOtherwise span target source

/-- One step of the rules. -/
def assignStep (target source : Ty) : Assigner Verdict :=
  let fail : Diagnostic := .assignFailed span target source []
  match D.head target, D.head source with
  | .keyword .any, _ => return .holds
  | .keyword .unknown, _ => return .holds
  | .this, _ => return .error (.cannotAssignToThis span)
  | _, .union bs => do
    match ← allFailures (ask target) bs with
    | [] => return .holds
    | ds => return .error (.unionFailed span ds)
  | shape, .param name bound =>
    let sameParam := match shape with | .param other _ => other == name | _ => false
    let emptyObject := match shape with | .object ms => ms.isEmpty | _ => false
    if sameParam then return .holds
    else if !bound.isMissing then ask target bound
    else return Decls.require emptyObject fail
  | _, .keyword .any => return .holds
  | _, .keyword .never => return .holds
  | shape, .keyword .unknown =>
    return Decls.require (match shape with | .keyword .undefined => true | _ => false) fail
  | _, _ => if D.equal target source then return .holds else assignShape D span ask target source

end Assigner

/-! ## The search -/

namespace Decls

/-- Assignability down to a depth, with the open questions kept in the state. -/
def assignIn (D : Decls) (span : Span) : Nat → Ty → Ty → Assigner Verdict
  | 0, _, _ => return .error (.unsupported span .typeTooDeep)
  | fuel + 1, target, source => do
    let target := target.orAny
    let source := source.orAny
    if isOpen (← get) target source then return .holds
    modify ((target, source) :: ·)
    let verdict ← Assigner.assignStep D span (D.assignIn span fuel) target source
    modify (·.erase (target, source))
    return verdict

/-- A failure rooted in a failed assignment. -/
def rooted (target source : Ty) (span : Span) : Verdict → Verdict
  | .ok _ => .holds
  | .error (.assignFailed s l r cs) => .error (.assignFailed s l r cs)
  | .error d => .error (.assignFailed span target source [d])

/-- Checks an assignment with an assigner. -/
def assigning (D : Decls) (maxDepth : Int) (target source : Ty) (span : Span) :
    Assigner Verdict := do
  return rooted target source span (← D.assignIn span (depthLimit maxDepth + 1) target source)

end Decls

end StructuralTyping
