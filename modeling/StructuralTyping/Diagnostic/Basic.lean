import StructuralTyping.Source
import StructuralTyping.Ty.Text

/-!
# Diagnostics

A diagnostic says why an expression has no type, or why a type is not
assignable to another.  Composite diagnostics carry the causes of the failure,
so a diagnostic is a tree.  Each node knows its cause; the wording is in
`Diagnostic.message`.

Two kinds of node come from outside: `noted` is a diagnostic with a kind and a
message of its own, and `plain` is an error that is no diagnostic.
-/

namespace StructuralTyping

/-- The bounds of a count.  A negative upper bound means that there is none. -/
structure CountRange where
  min : Int
  max : Int
  deriving DecidableEq, Repr

/-- The wording of a range. -/
def CountRange.text (r : CountRange) : String :=
  if r.max < 0 then "at least " ++ intText r.min
  else if r.min == r.max then intText r.min
  else intText r.min ++ ".." ++ intText r.max

/-- The shapes that checking does not handle. -/
inductive Unsupported where
  | typeTooDeep
  | assigning (source target : Ty)
  | expressionTooDeep
  | missingExpression
  | emptySequence
  | arrowFunction
  | awaitExpression
  | yieldExpression
  | metaProperty (text : String)
  | bareSuper
  | spreadOutside
  | spreadInArray
  | spreadInObject
  | propertyKey (text : String)
  | unaryOperator (operator : String)
  | binaryOperator (operator : String)
  | requireAsValue
  | requireWithoutSpecifier
  | spreadToRequire
  | requiredModule (name : String)
  | dynamicRequire
  | namespaceAsValue (name : String)
  | exportWithoutType
  | duplicateRegexFlag (flag : Char)
  | unknownRegexFlag (flag : Char)
  | invalidRegex (literal reason : String)
  | computedMember (key : PropKey) (object : Ty)
  | ambiguousOverload (callee : Ty) (arguments : Nat)
  | unannotatedAsync
  | missingParameterPattern
  | functionWithoutBody
  | described (text : String)

/-- A diagnostic with its causes. -/
inductive Diagnostic where
  | undefinedSymbol (span : Span) (name : String)
  | noCallSignature (span : Span) (callee : Ty)
  | noNewSignature (span : Span) (callee : Ty)
  | wrongTypeParams (span : Span) (expected : CountRange) (actual : Int)
  | wrongParams (span : Span) (expected : CountRange) (actual : Int)
  | assignFailed (span : Span) (left right : Ty) (causes : List Diagnostic)
  | unionFailed (span : Span) (causes : List Diagnostic)
  | intersectionFailed (span : Span) (cause : Diagnostic)
  | missingFields (span : Span) (fields : List Member)
  | cannotAssignToThis (span : Span)
  | unsupported (span : Span) (shape : Unsupported)
  | noted (span : Span) (kind message : String) (causes : List Diagnostic)
  | plain (text : String) (causes : List Diagnostic)

instance : Inhabited Diagnostic := ⟨.plain "" []⟩

namespace Unsupported

/-- The description of a shape that is not handled. -/
def text (D : Decls) : Unsupported → String
  | .typeTooDeep => "type is too deeply nested"
  | .assigning source target =>
    "assigning '" ++ D.messageText source ++ "' to '" ++ D.messageText target ++ "'"
  | .expressionTooDeep => "expression is too deeply nested"
  | .missingExpression => "missing expression"
  | .emptySequence => "empty sequence expression"
  | .arrowFunction => "arrow function"
  | .awaitExpression => "await expression"
  | .yieldExpression => "yield expression"
  | .metaProperty text => "meta property '" ++ text ++ "'"
  | .bareSuper => "bare super"
  | .spreadOutside => "spread outside a call or literal"
  | .spreadInArray => "spread in array literal"
  | .spreadInObject => "spread in object literal"
  | .propertyKey text => "property key " ++ text
  | .unaryOperator operator => "prefix operator '" ++ operator ++ "'"
  | .binaryOperator operator => "infix operator '" ++ operator ++ "'"
  | .requireAsValue => "require used as a value"
  | .requireWithoutSpecifier => "require without a module specifier"
  | .spreadToRequire => "spread argument to require"
  | .requiredModule name => "type of required module '" ++ name ++ "'"
  | .dynamicRequire => "dynamic require"
  | .namespaceAsValue name => "namespace '" ++ name ++ "' used as a value"
  | .exportWithoutType => "export without a type"
  | .duplicateRegexFlag flag => "duplicate regex flag '" ++ String.singleton flag ++ "'"
  | .unknownRegexFlag flag => "unknown regex flag '" ++ String.singleton flag ++ "'"
  | .invalidRegex literal reason => "invalid regex " ++ literal ++ ": " ++ reason
  | .computedMember key object =>
    "computed member " ++ key.text ++ " of '" ++ D.messageText object ++ "'"
  | .ambiguousOverload callee arguments =>
    "ambiguous overload of '" ++ D.messageText callee ++ "' with " ++
      toString arguments ++ " arguments"
  | .unannotatedAsync => "return type of an unannotated async or generator function"
  | .missingParameterPattern => "missing parameter pattern"
  | .functionWithoutBody => "function without a body"
  | .described text => text

end Unsupported

namespace Diagnostic

/-- Where the failure is.  An error that is no diagnostic has no position. -/
def span : Diagnostic → Span
  | .undefinedSymbol s _ | .noCallSignature s _ | .noNewSignature s _ | .wrongTypeParams s _ _
  | .wrongParams s _ _ | .assignFailed s _ _ _ | .unionFailed s _ | .intersectionFailed s _
  | .missingFields s _ | .cannotAssignToThis s | .unsupported s _ | .noted s _ _ _ => s
  | .plain _ _ => Span.none

/-- The kind of a diagnostic. -/
def kind? : Diagnostic → Option String
  | .undefinedSymbol _ _ => some "UndefinedSymbol"
  | .noCallSignature _ _ => some "NoCallSignature"
  | .noNewSignature _ _ => some "NoNewSignature"
  | .wrongTypeParams _ _ _ => some "WrongTypeParams"
  | .wrongParams _ _ _ => some "WrongParams"
  | .assignFailed _ _ _ _ => some "AssignFailed"
  | .unionFailed _ _ => some "UnionError"
  | .intersectionFailed _ _ => some "IntersectionError"
  | .missingFields _ _ => some "MissingFields"
  | .cannotAssignToThis _ => some "CannotAssignToThis"
  | .unsupported _ _ => some "Unsupported"
  | .noted _ kind _ _ => some kind
  | .plain _ _ => none

/-- The direct causes. -/
def causes : Diagnostic → List Diagnostic
  | .assignFailed _ _ _ cs | .unionFailed _ cs | .noted _ _ _ cs | .plain _ cs => cs
  | .intersectionFailed _ c => [c]
  | _ => []

/-- The wording of a failure to call or construct. -/
def noSignatureMessage (D : Decls) (what : String) (callee : Ty) : String :=
  if callee.isMissing then "no matching " ++ what ++ " signature"
  else "type '" ++ D.messageText callee ++ "' has no matching " ++ what ++ " signature"

/-- The message of a node without its position and without its causes. -/
def message (D : Decls) : Diagnostic → String
  | .undefinedSymbol _ name => "undefined symbol '" ++ name ++ "'"
  | .noCallSignature _ callee => noSignatureMessage D "call" callee
  | .noNewSignature _ callee => noSignatureMessage D "construct" callee
  | .wrongTypeParams _ expected actual =>
    "expected " ++ expected.text ++ " type arguments, got " ++ intText actual
  | .wrongParams _ expected actual =>
    "expected " ++ expected.text ++ " arguments, got " ++ intText actual
  | .assignFailed _ left right _ =>
    "type '" ++ D.messageText right ++ "' is not assignable to type '" ++ D.messageText left ++ "'"
  | .unionFailed _ cs => toString cs.length ++ " union branch(es) failed"
  | .intersectionFailed _ _ => "intersection branch failed"
  | .missingFields _ fields => "missing fields: " ++ joinText ", " (fields.map D.memberText)
  | .cannotAssignToThis _ => "cannot assign to 'this'"
  | .unsupported _ shape => "unsupported: " ++ shape.text D
  | .noted _ _ msg _ => msg
  | .plain text _ => text

/-- A message after its position, if it has one. -/
def positioned (span : Span) (msg : String) : String :=
  if span.isNone then msg else span.text ++ ": " ++ msg

mutual

/-- The whole text of a diagnostic.  Failed unions and intersections include
their causes. -/
def text (D : Decls) : Diagnostic → String
  | .unionFailed s cs =>
    positioned s (message D (.unionFailed s cs) ++ ": " ++ joinText "; " (texts D cs))
  | .intersectionFailed s c =>
    positioned s (message D (.intersectionFailed s c) ++ ": " ++ text D c)
  | .noted _ _ msg _ => msg
  | .plain t _ => t
  | d => positioned d.span (d.message D)
termination_by structural d => d

/-- The texts of diagnostics. -/
def texts (D : Decls) : List Diagnostic → List String
  | [] => []
  | d :: ds => text D d :: texts D ds
termination_by structural ds => ds

end

mutual

/-- The number of nodes of a tree. -/
def count : Diagnostic → Nat
  | .assignFailed _ _ _ cs | .unionFailed _ cs | .noted _ _ _ cs | .plain _ cs => 1 + countList cs
  | .intersectionFailed _ c => 1 + count c
  | _ => 1
termination_by structural d => d

/-- The number of nodes of several trees. -/
def countList : List Diagnostic → Nat
  | [] => 0
  | d :: ds => count d + countList ds
termination_by structural ds => ds

end

mutual

/-- Some node of the tree has the given kind. -/
def hasKind (kind : String) : Diagnostic → Bool
  | .assignFailed _ _ _ cs => kind == "AssignFailed" || hasKindList kind cs
  | .unionFailed _ cs => kind == "UnionError" || hasKindList kind cs
  | .noted _ k _ cs => kind == k || hasKindList kind cs
  | .plain _ cs => hasKindList kind cs
  | .intersectionFailed _ c => kind == "IntersectionError" || hasKind kind c
  | d => d.kind? == some kind
termination_by structural d => d

/-- Some node of some tree has the given kind. -/
def hasKindList (kind : String) : List Diagnostic → Bool
  | [] => false
  | d :: ds => hasKind kind d || hasKindList kind ds
termination_by structural ds => ds

end

end Diagnostic

end StructuralTyping
