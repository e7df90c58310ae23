import StructuralTyping.Checker.Inference
import StructuralTyping.Checker.Keys
import StructuralTyping.Checker.Returns
import StructuralTyping.Checker.Scope
import StructuralTyping.Regex
import StructuralTyping.Ty.Narrow

/-!
# Inference

The type of an expression, and the result of calling or constructing a value of
a type.  The three questions ask each other: an expression that calls needs the
result of a call, and a call needs the types of its arguments.

`Checker.step` is the program that answers a question.  The questions below it are
asked in the program and answered elsewhere.
-/

namespace StructuralTyping

/-! ## Options -/

/-- How inference is set up. -/
structure Options where
  /-- The depth limit of assignability.  The default unless positive. -/
  maxDepth : Int := 0
  /-- The depth limit of expressions.  The default unless positive. -/
  maxExpressionDepth : Int := 0
  /-- Arguments are checked against their parameters. -/
  checkArguments : Bool := false
  /-- Names with a fixed type, consulted after the scope. -/
  globals : List (String × Ty) := []

/-- The depth of expressions by default. -/
def defaultMaxExpressionDepth : Nat := 512

/-- The depth of expressions in force. -/
def Options.expressionDepth (o : Options) : Nat :=
  if 0 < o.maxExpressionDepth then o.maxExpressionDepth.toNat else defaultMaxExpressionDepth

/-- The options with the types of the globals declared. -/
def Options.declare (o : Options) : Declaring Options := do
  return { o with globals := ← declareBindings o.globals }

/-- What inference works with. -/
structure Checker where
  decls : Decls := {}
  scope : Scope
  options : Options := {}

namespace Checker

/-- The checker over an environment.  The types that names stand for are declared. -/
def ofEnvironment (D : Decls) (e : Environment) (o : Options) : Checker :=
  let (e, D) := e.declare.run D
  let (o, D) := o.declare.run D
  ⟨D, e.scope, o⟩

/-- Fails for a shape that is not handled. -/
def unsupported (span : Span) (shape : Unsupported) : Inference α := .fail (.unsupported span shape)

/-! ## Names -/

/-- The names that every scope has. -/
def builtin? (name : String) : Option Ty :=
  if name == "undefined" then some .undefined
  else if name == "NaN" || name == "Infinity" then some .number
  else none

/-- The type of an export used as a value.  An interface expands to its own
members. -/
def expandExport (D : Decls) (x : Export) (span : Span) : Inference Ty :=
  if !x.type.isMissing then .pure x.type
  else
    match x.form with
    | .interface t => .pure (.object ((D.membersOf? t).getD []))
    | .alias _ t => .pure t
    | .enum t => .pure t
    | .namespaceDecl name => unsupported span (.namespaceAsValue name)
    | .none => unsupported span .exportWithoutType

/-- A name means a value, then an import, then a type, then a configured global,
then a built-in one. -/
def identType (C : Checker) (name : String) (span : Span) : Inference Ty :=
  if name == "require" then unsupported span .requireAsValue
  else
    match C.scope.var? name with
    | some t => .pure t
    | none =>
      match C.scope.imported? name with
      | some x => expandExport C.decls x span
      | none =>
        match C.scope.type? name with
        | some x => expandExport C.decls x span
        | none =>
          match (C.options.globals.lookup name).or (builtin? name) with
          | some t => .pure t
          | none => .fail (.undefinedSymbol span name)

/-! ## Signatures -/

/-- The last parameter takes all remaining arguments. -/
def hasRest (s : Signature) : Bool := (s.params.getLast?.map Param.isRest).getD false

/-- The number of arguments does not fit a signature. -/
def wrongParams (s : Signature) (actual : Nat) (span : Span) : Diagnostic :=
  let n : Int := s.params.length
  .wrongParams span ⟨n, if hasRest s then -1 else n⟩ actual

/-- There is no signature to call. -/
def noSignature (site : CallSite) (callee : Ty) : Diagnostic :=
  if site.isNew then .noNewSignature site.span callee else .noCallSignature site.span callee

/-- The type of each argument of a parameter that takes the remaining ones.
Missing when it is not known. -/
def restElement (D : Decls) (t : Ty) : Ty :=
  match D.head t with
  | .array e => e
  | _ => .missing

/-- The type that the argument at a position must have.  None when there is no
parameter for it. -/
def paramType? (D : Decls) (s : Signature) (i : Nat) : Option Ty :=
  if hasRest s && s.params.length ≤ i + 1 then s.params.getLast?.map fun p => restElement D p.type
  else (s.params[i]?).map (·.type)

/-- Checks arguments from a position on.  Checking stops at a spread, since the
positions after it are not known. -/
def checkArguments (C : Checker) (s : Signature) (site : CallSite) :
    Nat → List Expr → Inference Unit
  | _, [] => .pure ()
  | i, arg :: args =>
    if arg.isSpread then .pure ()
    else
      match paramType? C.decls s i with
      | none => .fail (wrongParams s site.args.length site.span)
      | some t => do
        let found ← .ask (.typeOf arg)
        if !t.isMissing then .assign t found arg.span
        C.checkArguments s site (i + 1) args

/-- Checks a call against a signature.  The result type is missing when the
signature declares none. -/
def instantiate (C : Checker) (s : Signature) (site : CallSite) : Inference Ty :=
  if s.typeParams.length < site.typeArgs.length then
    .fail (.wrongTypeParams site.span ⟨0, s.typeParams.length⟩ site.typeArgs.length)
  else if site.args.length < s.params.length then
    .fail (wrongParams s site.args.length site.span)
  else do
    if C.options.checkArguments then C.checkArguments s site 0 site.args
    return s.result

/-- The signatures whose parameters match the arguments one by one. -/
def exactSignatures (sigs : List Signature) (arity : Nat) : List Signature :=
  sigs.filter fun s => s.params.length == arity && !hasRest s

/-- Chooses among signatures.  A single one is used as it is.  Otherwise the one
with as many parameters as arguments wins, and two of those are ambiguous.
Without one, those that can take the arguments are tried in order. -/
def pickSignature (C : Checker) (sigs : List Signature) (callee : Ty)
    (site : CallSite) : Inference Ty :=
  match sigs with
  | [] => .fail (noSignature site callee)
  | [s] => C.instantiate s site
  | sigs =>
    match exactSignatures sigs site.args.length with
    | [s] => C.instantiate s site
    | _ :: _ :: _ => unsupported site.span (.ambiguousOverload callee site.args.length)
    | [] => do
      let able := sigs.filter fun s => hasRest s || site.args.length ≤ s.params.length
      match ← Inference.firstSuccess (fun s => C.instantiate s site) able with
      | .ok t => return t
      | .error _ => .fail (noSignature site callee)

/-! ## Calls -/

/-- The call or construct signatures among members. -/
def siteSignatures (site : CallSite) (ms : List Member) : List Signature :=
  ms.filterMap fun m => if site.isNew then m.construct? else m.call?

/-- Tries the branches of a union. -/
def firstBranch (site : CallSite) (callee : Ty) (f : Ty → Inference Ty) (branches : List Ty) :
    Inference Ty := do
  match ← Inference.firstSuccess f branches with
  | .ok t => return t
  | .error [] => .fail (noSignature site callee)
  | .error ds => .fail (.unionFailed site.span ds)

/-- Tries the branches of an intersection. -/
def someBranch (site : CallSite) (callee : Ty) (f : Ty → Inference Ty) (branches : List Ty) :
    Inference Ty := do
  match ← Inference.firstSuccess f branches with
  | .ok t => return t
  | .error _ => .fail (noSignature site callee)

/-- The result of a constructor without a declared result is the class itself. -/
def constructed (D : Decls) (callee : Ty) (site : CallSite) (result : Ty) : Ty :=
  if !result.isMissing then result
  else
    match D.head callee with
    | .classType _ _ _ _ => if site.isNew then callee else .any
    | _ => .any

/-- The result of calling a value of a type. -/
def extractStep (C : Checker) (callee : Ty) (site : CallSite) : Inference Ty :=
  match C.decls.allMembers? callee with
  | some ms => do
    let t ← C.pickSignature (siteSignatures site ms) callee site
    return constructed C.decls callee site t
  | none =>
    match C.decls.head callee with
    | .function s =>
      if site.isNew then .fail (noSignature site callee) else do
        return (← C.instantiate s site).orAny
    | .ctor s =>
      if site.isNew then do
        return (← C.instantiate s site).orAny
      else .fail (noSignature site callee)
    | .union bs => firstBranch site callee (fun b => .ask (.extract b site)) bs
    | .inter bs => someBranch site callee (fun b => .ask (.extract b site)) bs
    | .param _ bound =>
      if bound.isMissing then .fail (noSignature site callee) else .ask (.extract bound site)
    | _ => if C.decls.isAny callee then .pure .any else .fail (noSignature site callee)

/-- The type that stands for a member in a message. -/
def memberCallee (object : Ty) (key : PropKey) : Ty :=
  .indexed object (if key.computed then .other key.name else .literal (.string key.name))

/-- The first property among members with a key, or the methods before it. -/
inductive Candidates where
  | property (type : Ty)
  | methods (signatures : List Signature)

/-- Sorts the members with one key: the first property ends the search, and
without one the methods are the candidates. -/
def candidates : List Member → Candidates
  | [] => .methods []
  | .property _ t _ _ :: _ => .property t
  | .method _ _ s :: ms =>
    match candidates ms with
    | .property t => .property t
    | .methods ss => .methods (s :: ss)
  | _ :: ms => candidates ms

/-- The result of calling a member of a value of a type. -/
def extractMemberStep (C : Checker) (object : Ty) (key : PropKey)
    (site : CallSite) : Inference Ty :=
  let callee := memberCallee object key
  match C.decls.allMembers? object with
  | some ms =>
    match candidates (findMembers ms key) with
    | .property t => if t.isMissing then .pure .any else .ask (.extract t site)
    | .methods ss => do
      return (← C.pickSignature (if site.isNew then [] else ss) callee site).orAny
  | none =>
    match C.decls.head object with
    | .union bs => firstBranch site callee (fun b => .ask (.extractMember b key site)) bs
    | .inter bs => someBranch site callee (fun b => .ask (.extractMember b key site)) bs
    | .param _ bound =>
      if bound.isMissing then .fail (noSignature site callee)
      else .ask (.extractMember bound key site)
    | _ =>
      if C.decls.isAny object then .pure .any
      else if key.computed then unsupported site.span (.computedMember key object)
      else .fail (noSignature site callee)

/-- The result of a call by the form of the callee.  A member of a value is
resolved by its key. -/
def calleeResult (C : Checker) (callee : Expr) (site : CallSite) : Inference Ty :=
  match callee.node with
  | .member ⟨_, .super⟩ _ => .pure .any
  | .member o p => do
    let t ← .ask (.typeOf o)
    .ask (.extractMember t ⟨p, false⟩ site)
  | .index o i => do
    let t ← .ask (.typeOf o)
    let key ← Inference.ofExcept (accessKey C.decls i)
    .ask (.extractMember t key site)
  | _ => do
    let t ← .ask (.typeOf callee)
    .ask (.extract t site)

/-- A call of `require`.  The types of modules are not known. -/
def requireType (C : Checker) (args : List Expr) (span : Span) : Inference Ty :=
  match args with
  | [] => unsupported span .requireWithoutSpecifier
  | arg :: _ =>
    match arg.node with
    | .spread _ => unsupported span .spreadToRequire
    | .string s =>
      if (C.scope.imported? s).isSome then unsupported span (.requiredModule s)
      else .fail (.undefinedSymbol arg.span s)
    | _ => unsupported span .dynamicRequire

/-- The type of a call. -/
def callType (C : Checker) (callee : Expr) (site : CallSite) : Inference Ty :=
  match callee.node with
  | .super => .pure .any
  | .ident "require" => C.requireType site.args site.span
  | _ => C.calleeResult callee site

/-! ## Literals -/

/-- The first flag of a regular expression that is not accepted. -/
def flagProblem? (seen : List Char) : List Char → Option Unsupported
  | [] => none
  | f :: fs =>
    if seen.contains f then some (.duplicateRegexFlag f)
    else if "imgyduvs".toList.contains f then flagProblem? (f :: seen) fs
    else some (.unknownRegexFlag f)

/-- The type of a regular expression literal. -/
def regexType (pattern flags : String) (span : Span) : Inference Ty :=
  match flagProblem? [] flags.toList with
  | some p => unsupported span p
  | none =>
    match Regex.problemText? pattern with
    | some reason => unsupported span (.invalidRegex ("/" ++ pattern ++ "/" ++ flags) reason)
    | none => .pure .regExp

/-- The widened types of array elements, each class of equal types once.  An
element left out reads as `undefined`. -/
def elementTypes (C : Checker) : List Ty → List Expr → Inference (List Ty)
  | kept, [] => .pure kept
  | kept, e :: es =>
    if e.isMissing then C.elementTypes (C.decls.addBranch kept .undefined) es
    else if e.isSpread then unsupported e.span .spreadInArray
    else do
      let t ← .ask (.typeOf e)
      C.elementTypes (C.decls.addBranch kept (C.decls.widen t)) es

/-- The type of an array literal. -/
def arrayType (C : Checker) (es : List Expr) : Inference Ty := do
  match ← C.elementTypes [] es with
  | [] => return .array .any
  | [t] => return .array t
  | ts => return .array (C.decls.join ts)

/-- Sets a property.  A key that is there keeps its place. -/
def setProperty (key : PropKey) (t : Ty) : List (PropKey × Ty) → List (PropKey × Ty)
  | [] => [(key, t)]
  | (k, u) :: rest => if k == key then (k, t) :: rest else (k, u) :: setProperty key t rest

/-- The properties of an object literal.  A later entry replaces an earlier one
with the same key. -/
def entryTypes (C : Checker) (span : Span) :
    List (PropKey × Ty) → List ObjectEntry → Inference (List (PropKey × Ty))
  | kept, [] => .pure kept
  | kept, e :: es =>
    if e.key.isMissing then unsupported span .spreadInObject
    else do
      let key ← Inference.ofExcept (propKey C.decls e.key e.computed)
      let t ← .ask (.typeOf e.value)
      C.entryTypes span (setProperty key t kept) es

/-- The type of an object literal. -/
def objectType (C : Checker) (span : Span) (es : List ObjectEntry) :
    Inference Ty := do
  let ps ← C.entryTypes span [] es
  return .object (ps.map fun (k, t) => .property k t false false)

/-! ## Operators -/

/-- The type of a unary operator. -/
def unaryType (C : Checker) (span : Span) (operator : String) (operand : Expr) :
    Inference Ty :=
  match operator with
  | "!" => do return C.decls.negate (← .ask (.typeOf operand))
  | "-" =>
    match operand.node with
    | .number x => .pure (.literal (.number x.negate))
    | _ => .pure .number
  | "+" | "~" => .pure .number
  | "delete" => .pure .boolean
  | _ => unsupported span (.unaryOperator operator)

/-- Operators with a number as their result. -/
def numericOperators : List String :=
  ["+", "-", "*", "/", "%", "**", "&", "|", "^", "<<", ">>", ">>>"]

/-- Operators with a truth value as their result. -/
def booleanOperators : List String :=
  ["==", "!=", "===", "!==", "<", "<=", ">", ">=", "in", "instanceof"]

/-- The type of a binary operator.  The left operand of `&&` and `||` is no part of
the result. -/
def binaryType (C : Checker) (span : Span) (left : Expr) (operator : String)
    (right : Expr) : Inference Ty :=
  if operator == "&&" || operator == "||" then .ask (.typeOf right)
  else if operator == "??" then do
    let l ← .ask (.typeOf left)
    let r ← .ask (.typeOf right)
    return C.decls.join [C.decls.removeNullish l, r]
  else if numericOperators.contains operator then .pure .number
  else if booleanOperators.contains operator then .pure .boolean
  else unsupported span (.binaryOperator operator)

/-- The type of a sequence is that of its last part. -/
def sequenceType (span : Span) : List Expr → Inference Ty
  | [] => unsupported span .emptySequence
  | [e] => .ask (.typeOf e)
  | e :: es => do
    let _ ← .ask (.typeOf e)
    sequenceType span es

/-! ## Functions and classes -/

/-- The types of returned values.  A bare return gives `undefined`. -/
def returnTypes (es : List Expr) : Inference (List Ty) :=
  Inference.mapList (fun e => if e.isMissing then .pure .undefined else .ask (.typeOf e)) es

/-- The result type of a function without an annotation. -/
def inferResult (C : Checker) (f : Func) : Inference Ty :=
  if f.body.isMissing then unsupported f.span .functionWithoutBody
  else do
    match ← returnTypes f.body.returns.values with
    | [] => return .undefined
    | [t] => return t
    | ts => return C.decls.join ts

/-- The type of a function literal. -/
def functionType (C : Checker) (f : Func) : Inference Ty :=
  if f.result.isMissing && (f.isAsync || f.isGenerator) then unsupported f.span .unannotatedAsync
  else do
    let params ← Inference.ofExcept (signatureParams C.decls f.params)
    let result ← if f.result.isMissing then C.inferResult f else .pure f.result
    return .function (.mk f.typeParams params result)

/-- A key that starts with `#`. -/
def isPrivate (key : Expr) : Bool :=
  match key.node with
  | .ident name => name.startsWith "#"
  | _ => false

/-- The properties that constructor parameters declare. -/
def parameterProperties (ps : List Parameter) : List Member :=
  ps.filterMap fun p =>
    let target := match p.pattern.node with | .withDefault b _ => b.node | node => node
    match p.isProperty, target with
    | true, .ident name => some (.property ⟨name, false⟩ p.type.orAny p.isOptional p.isReadonly)
    | _, _ => none

/-- The shape members of a class member.  Statics, private names, methods and index
signatures are skipped. -/
def classMembers (C : Checker) (m : ClassMember) : Inference (List Member) :=
  match m with
  | .property _ key computed type value isOptional isReadonly isStatic =>
    if isStatic || isPrivate key then do
      Inference.note (.memberSkipped m)
      return []
    else do
      let k ← Inference.ofExcept (propKey C.decls key computed)
      let t ← if type.isMissing && !value.isMissing then .ask (.typeOf value) else .pure type
      return [.property k t.orAny isOptional isReadonly]
  | .method _ .constructor _ _ f _ => do
    let params ← Inference.ofExcept (signatureParams C.decls f.params)
    return .construct (.mk [] params .missing) :: parameterProperties f.params
  | _ => do
    Inference.note (.memberSkipped m)
    return []

/-- A constructor. -/
def isConstructor : ClassMember → Bool
  | .method _ .constructor _ _ _ _ => true
  | _ => false

/-- The shape of a class.  Without a constructor it has one without parameters. -/
def classType (C : Checker) (c : ClassDef) : Inference Ty := do
  let ms ← Inference.mapList (C.classMembers) c.members
  let implicit :=
    if c.members.any isConstructor then [] else [Member.construct (.mk [] [] .missing)]
  return .object (ms.flatten ++ implicit)

/-! ## The questions answered -/

/-- The type of an expression by its form. -/
def typeOfStep (C : Checker) (e : Expr) : Inference Ty :=
  let D := C.decls
  match e.node with
  | .missing => unsupported e.span .missingExpression
  | .ident name => C.identType name e.span
  | .bool b => .pure (.literal (.bool b))
  | .number x => .pure (.literal (.number x))
  | .string s => .pure (.literal (.string s))
  | .null => .pure .null
  | .regex pattern flags => regexType pattern flags e.span
  | .template _ _ => .pure .string
  | .this => .pure .this
  | .super => unsupported e.span .bareSuper
  | .array es => C.arrayType es
  | .spread _ => unsupported e.span .spreadOutside
  | .object es => C.objectType e.span es
  | .paren inner => .ask (.typeOf inner)
  | .unary operator operand => C.unaryType e.span operator operand
  | .typeOf _ => .pure .string
  | .void _ => .pure .undefined
  | .update _ _ _ => .pure .number
  | .binary l operator r => C.binaryType e.span l operator r
  | .ternary _ a b => do
    let s ← .ask (.typeOf a)
    let t ← .ask (.typeOf b)
    return if D.equal s t then s else D.join [s, t]
  | .assign _ _ value => .ask (.typeOf value)
  | .sequence es => sequenceType e.span es
  | .call f ts args => C.callType f ⟨false, args, ts, e.span⟩
  | .construct f ts args => C.calleeResult f ⟨true, args, ts, e.span⟩
  | .member ⟨_, .super⟩ _ => .pure .any
  | .member o _ => do return .indexed (← .ask (.typeOf o)) .string
  | .index o i => do
    let s ← .ask (.typeOf o)
    let t ← .ask (.typeOf i)
    return .indexed s t
  | .assertion _ t => .pure t
  | .cast _ t => .pure t
  | .nonNull inner => do return D.removeNullish (← .ask (.typeOf inner))
  | .await _ => unsupported e.span .awaitExpression
  | .yield _ _ => unsupported e.span .yieldExpression
  | .metaProperty o p => unsupported e.span (.metaProperty (o ++ "." ++ p))
  | .function f => C.functionType f
  | .arrow _ _ _ _ => unsupported e.span .arrowFunction
  | .classExpr c => C.classType c

/-- The record of the type of an expression. -/
def typeRecord (e : Expr) : Except Diagnostic Ty → TraceRecord
  | .ok t => .typed e t
  | .error d => .failed e d

/-- The program that answers a question. -/
def step (C : Checker) : Question → Inference Ty
  | .typeOf e => (C.typeOfStep e).noteOutcome (typeRecord e)
  | .extract callee site => C.extractStep callee site
  | .extractMember object key site => C.extractMemberStep object key site

end Checker

end StructuralTyping
