import StructuralTyping.Diagnostic.Basic
import StructuralTyping.Ty.Equal
import StructuralTyping.Ty.Members

/-!
# Assignability

A value of one type may be used where another is expected when the rules below
say so.  A failure is a tree of diagnostics that explains it.

`Decls.assignStep` is one step of the rules with the recursive questions handed
to `ask`.  `Decls.assignWithin` closes the recursion.  A question that is met
again while it is still open holds so far, so cyclic shapes are searched once.
The recursion is cut at a depth, and a question beyond it fails.
-/

namespace StructuralTyping

/-- Success, or the reason why not. -/
abbrev Verdict := Except Diagnostic Unit

namespace Verdict

/-- The question holds. -/
def holds : Verdict := .ok ()

/-- The reason of a failure. -/
def failure? : Verdict → Option Diagnostic
  | .ok _ => none
  | .error d => some d

end Verdict

/-! ## Lists of questions -/

/-- All questions in order, up to the first failure. -/
def firstFailure (ask : α → Verdict) : List α → Verdict
  | [] => .holds
  | x :: xs =>
    match ask x with
    | .ok _ => firstFailure ask xs
    | .error d => .error d

/-- The failures among all questions. -/
def allFailures (ask : α → Verdict) (xs : List α) : List Diagnostic :=
  xs.filterMap fun x => (ask x).failure?

/-- Tries the questions in order.  The failures of all of them when none holds. -/
def firstSuccess (ask : α → Verdict) : List α → Except (List Diagnostic) Unit
  | [] => .error []
  | x :: xs =>
    match ask x with
    | .ok _ => .ok ()
    | .error d =>
      match firstSuccess ask xs with
      | .ok _ => .ok ()
      | .error ds => .error (d :: ds)

/-- No failure is found exactly when every question holds. -/
theorem firstFailure_eq_ok_iff {ask : α → Verdict} {xs : List α} :
    firstFailure ask xs = .ok () ↔ ∀ x ∈ xs, ask x = .ok () := by
  induction xs with
  | nil => simp [firstFailure, Verdict.holds]
  | cons x xs ih =>
    rw [firstFailure]
    cases hx : ask x with
    | ok u => simpa [hx] using ih
    | error d => simp [hx]

/-- There are no failures exactly when every question holds. -/
theorem allFailures_eq_nil_iff {ask : α → Verdict} {xs : List α} :
    allFailures ask xs = [] ↔ ∀ x ∈ xs, ask x = .ok () := by
  rw [allFailures, List.filterMap_eq_nil_iff]
  refine forall₂_congr fun x _ => ?_
  cases ask x <;> simp [Verdict.failure?]

/-- A success is found exactly when some question holds. -/
theorem firstSuccess_eq_ok_iff {ask : α → Verdict} {xs : List α} :
    firstSuccess ask xs = .ok () ↔ ∃ x ∈ xs, ask x = .ok () := by
  induction xs with
  | nil => simp [firstSuccess]
  | cons x xs ih =>
    rw [firstSuccess]
    cases hx : ask x with
    | ok u => simp [hx]
    | error d =>
      cases hs : firstSuccess ask xs with
      | ok u => simpa [hx, hs] using ih
      | error ds => simpa [hx, hs] using ih

namespace Decls

/-! ## Members -/

/-- The question that a pair of members with one key asks.  None when the two
are of kinds that do not go together. -/
def memberQuestion? (D : Decls) : Member → Member → Option Pair
  | .property _ t _ _, .property _ u _ _ => some (t.orAny, u.orAny)
  | .property _ t _ _, .method _ _ s => some (t.orAny, .function s)
  | .method _ _ s, .method _ _ r => some (s.result, r.result)
  | .method _ _ s, .property _ u _ _ =>
    match D.head u with
    | .function r => some (s.result, r.result)
    | _ => none
  | _, _ => none

/-- Looks for a candidate that goes together with a member and asks its question.
False when there is none. -/
def assignMember (D : Decls) (ask : Ty → Ty → Verdict) (m : Member) :
    List Member → Except Diagnostic Bool
  | [] => .ok false
  | c :: cs =>
    match D.memberQuestion? m c with
    | some (t, u) =>
      match ask t u with
      | .ok _ => .ok true
      | .error d => .error d
    | none => D.assignMember ask m cs

/-- A member of the target is provided by the members of the source.  Unnamed
members are compared up to names. -/
def providesMember (D : Decls) (ask : Ty → Ty → Verdict) (source : List Member) (m : Member) :
    Except Diagnostic Bool :=
  match m.key? with
  | none => .ok (source.any (D.memberEqualIgnoringNames m))
  | some key => (D.assignMember ask m (findMembers source key)).map (· || m.isOptional)

/-- The members of the target that the source lacks. -/
def lackingMembers (D : Decls) (ask : Ty → Ty → Verdict) (source : List Member) :
    List Member → Except Diagnostic (List Member)
  | [] => .ok []
  | m :: ms =>
    match D.providesMember ask source m with
    | .error d => .error d
    | .ok provided =>
      (D.lackingMembers ask source ms).map fun lacking => if provided then lacking else m :: lacking

/-- All members of the target are provided by the source. -/
def assignMembers (D : Decls) (span : Span) (ask : Ty → Ty → Verdict)
    (target source : List Member) : Verdict :=
  match D.lackingMembers ask source target with
  | .error d => .error d
  | .ok [] => .holds
  | .ok lacking => .error (.missingFields span lacking)

/-! ## One step -/

/-- The keyword `object` accepts strings, numbers and everything with a shape. -/
def objectAccepts : Ty → Bool
  | .keyword .number | .keyword .string => true
  | .function _ | .ctor _ | .enum _ _ _ | .classType _ _ _ _ | .object _ | .interface _ _ _ _
  | .array _ | .tuple _ => true
  | _ => false

/-- A keyword accepts the literals that widen to it, and `void` accepts
`undefined`. -/
def keywordAccepts (k : Keyword) (source : Ty) : Bool :=
  match k, source with
  | .object, s => objectAccepts s
  | .void, .keyword .undefined => true
  | k, .literal l => l.keyword == k
  | _, _ => false

/-- The elements of a tuple in order.  An element that is `undefined` is let
through. -/
def assignElements (D : Decls) (ask : Ty → Ty → Verdict) : List Ty → List Ty → Verdict
  | t :: ts, s :: ss =>
    match ask t s with
    | .ok _ => D.assignElements ask ts ss
    | .error d => if D.isKeyword s .undefined then D.assignElements ask ts ss else .error d
  | _, _ => .holds

/-- A condition that fails with a given diagnostic. -/
def require (b : Bool) (d : Diagnostic) : Verdict := if b then .holds else .error d

/-- What is left when no rule decides: equality up to names. -/
def assignOtherwise (D : Decls) (span : Span) (target source : Ty) : Verdict :=
  require (D.equalIgnoringNames target source) (.unsupported span (.assigning source target))

/-- Functions and constructors without type parameters are compared by their
results. -/
def assignSignature (ask : Ty → Ty → Verdict) (fail : Diagnostic) (target : Signature) :
    Option Signature → Verdict
  | some s => if s.typeParams.isEmpty then ask target.result s.result else .error fail
  | none => .error fail

/-- The rules by the shape of the target.  Equal types and the special sources
have been decided before. -/
def assignShape (D : Decls) (span : Span) (ask : Ty → Ty → Verdict) (target source : Ty) :
    Verdict :=
  let fail (causes : List Diagnostic) : Diagnostic := .assignFailed span target source causes
  match D.head target, D.head source with
  | .array t, .array s =>
    match ask t s with
    | .ok _ => .holds
    | .error d => .error (fail [d])
  | .array t, .tuple ss => firstFailure (ask t) ss
  | .array _, _ => .error (fail [])
  | .union bs, _ =>
    match firstSuccess (ask · source) bs with
    | .ok _ => .holds
    | .error ds => .error (fail ds)
  | .inter bs, _ =>
    match firstFailure (ask · source) bs with
    | .ok _ => .holds
    | .error d => .error (.intersectionFailed span d)
  | .keyword k, s => require (keywordAccepts k s) (fail [])
  | .enum name _ _, .variant enumName _ => require (enumName == name) (fail [])
  | .enum _ _ _, _ => .error (fail [])
  | .variant _ _, _ => .error (fail [])
  | .literal _, _ => .error (fail [])
  | .function t, s =>
    if t.typeParams.isEmpty then
      assignSignature ask (fail []) t (match s with | .function r => some r | _ => none)
    else D.assignOtherwise span target source
  | .ctor t, s =>
    if t.typeParams.isEmpty then
      assignSignature ask (fail []) t (match s with | .ctor r => some r | _ => none)
    else D.assignOtherwise span target source
  | .tuple ts, .tuple ss =>
    if ss.length == ts.length then D.assignElements ask ts ss else .error (fail [])
  | .tuple _, _ => .error (fail [])
  | .object _, .tuple _ | .object _, .array _ | .object _, .literal _
  | .interface _ _ _ _, .tuple _ | .interface _ _ _ _, .array _ | .interface _ _ _ _, .literal _
  | .classType _ _ _ _, .tuple _ | .classType _ _ _ _, .array _ | .classType _ _ _ _, .literal _ =>
    .error (fail [])
  | _, _ =>
    match D.allMembers? target, D.allMembers? source with
    | some wanted, some members => D.assignMembers span ask wanted members
    | _, _ => D.assignOtherwise span target source

/-- One step of the rules.  Top types accept everything, and `this` accepts
nothing.  A union source must be usable branch by branch.  A type parameter
stands for its bound.  Equal types are assignable, and the rest goes by the
shape of the target. -/
def assignStep (D : Decls) (span : Span) (ask : Ty → Ty → Verdict) (target source : Ty) : Verdict :=
  let fail : Diagnostic := .assignFailed span target source []
  match D.head target, D.head source with
  | .keyword .any, _ => .holds
  | .keyword .unknown, _ => .holds
  | .this, _ => .error (.cannotAssignToThis span)
  | _, .union bs =>
    match allFailures (ask target) bs with
    | [] => .holds
    | ds => .error (.unionFailed span ds)
  | shape, .param name bound =>
    let sameParam := match shape with | .param other _ => other == name | _ => false
    let emptyObject := match shape with | .object ms => ms.isEmpty | _ => false
    if sameParam then .holds
    else if !bound.isMissing then ask target bound
    else require emptyObject fail
  | _, .keyword .any => .holds
  | _, .keyword .never => .holds
  | shape, .keyword .unknown =>
    require (match shape with | .keyword .undefined => true | _ => false) fail
  | _, _ => if D.equal target source then .holds else D.assignShape span ask target source

/-! ## The search -/

/-- Assignability down to a depth.  `opened` holds the questions that are still
open, and `fuel` counts the steps left. -/
def assignWithin (D : Decls) (span : Span) : Nat → List Pair → Ty → Ty → Verdict
  | 0, _, _, _ => .error (.unsupported span .typeTooDeep)
  | fuel + 1, opened, target, source =>
    let target := target.orAny
    let source := source.orAny
    if isOpen opened target source then .holds
    else D.assignStep span (D.assignWithin span fuel ((target, source) :: opened)) target source

/-- The depth in force.  A limit that is not positive stands for the default. -/
def depthLimit (maxDepth : Int) : Nat := if 0 < maxDepth then maxDepth.toNat else defaultMaxDepth

/-- Checks that a value of type `source` may be used where `target` is expected.  A
rejection is rooted in a failed assignment. -/
def assign (D : Decls) (maxDepth : Int) (target source : Ty) (span : Span) : Verdict :=
  match D.assignWithin span (depthLimit maxDepth + 1) [] target source with
  | .ok _ => .holds
  | .error (.assignFailed s l r cs) => .error (.assignFailed s l r cs)
  | .error d => .error (.assignFailed span target source [d])

/-- Assignability without the reason. -/
def isAssignable (D : Decls) (target source : Ty) : Bool :=
  (D.assign 0 target source Span.none).isOk

end Decls

end StructuralTyping
