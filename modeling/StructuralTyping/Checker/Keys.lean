import StructuralTyping.Diagnostic.Basic
import StructuralTyping.Expr.Text

/-!
# Keys and patterns

Property keys are normalized: a string or a number means the same key whether it
is computed or not, and any other computed key is known by its text.  Binding
targets become the patterns of a signature.  Defaults are dropped, and a name
with a default may be left out.
-/

namespace StructuralTyping

/-- The key that an expression names. -/
def propKey (D : Decls) (key : Expr) (computed : Bool) : Except Diagnostic PropKey :=
  match key.node, computed with
  | .ident name, false => .ok ⟨name, false⟩
  | .string s, _ => .ok ⟨s, false⟩
  | .number x, _ => .ok ⟨x.text, false⟩
  | _, true => .ok ⟨key.text D, true⟩
  | _, false => .error (.unsupported key.span (.propertyKey (key.text D)))

/-- The key of a member that is called by an index.  Only a string or a number is
normalized, anything else is known by its text. -/
def accessKey (D : Decls) (index : Expr) : Except Diagnostic PropKey :=
  match index.node with
  | .string _ | .number _ => propKey D index true
  | _ => .ok ⟨index.text D, true⟩

/-- An index names the key that it names as a computed key. -/
theorem accessKey_eq_propKey (D : Decls) (index : Expr) :
    accessKey D index = propKey D index true := by
  obtain ⟨span, node⟩ := index
  cases node <;> rfl

mutual

/-- The pattern of a binding target. -/
def Binding.toPattern (D : Decls) (isOptional : Bool) : Binding → Except Diagnostic Pattern
  | ⟨_, node⟩ => node.toPattern D isOptional
termination_by structural b => b

/-- The pattern of a form of binding target. -/
def BindingNode.toPattern (D : Decls) (isOptional : Bool) : BindingNode → Except Diagnostic Pattern
  | .missing => .error (.unsupported Span.none .missingParameterPattern)
  | .ident name => .ok (.ident name isOptional)
  | .withDefault b _ => b.toPattern D true
  | .rest b => (b.toPattern D false).map .rest
  | .array bs => (Binding.toPatterns D bs).map .array
  | .object entries remaining => do
    let es ← BindingEntry.toPatterns D entries
    let r ← if remaining.isMissing then .ok .hole else remaining.toPattern D false
    return .object es r
termination_by structural b => b

/-- The patterns of array elements.  One left out is a hole. -/
def Binding.toPatterns (D : Decls) : List Binding → Except Diagnostic (List Pattern)
  | [] => .ok []
  | b :: bs => do
    let p ← if b.isMissing then .ok .hole else b.toPattern D false
    return p :: (← Binding.toPatterns D bs)
termination_by structural bs => bs

/-- The patterns of the entries of an object binding. -/
def BindingEntry.toPatterns (D : Decls) :
    List BindingEntry → Except Diagnostic (List (PropKey × Pattern))
  | [] => .ok []
  | e :: es => do
    let p ← BindingEntry.toPattern D e
    return p :: (← BindingEntry.toPatterns D es)
termination_by structural es => es

/-- The pattern of an entry of an object binding. -/
def BindingEntry.toPattern (D : Decls) : BindingEntry → Except Diagnostic (PropKey × Pattern)
  | ⟨key, value, computed⟩ => do
    let k ← propKey D key computed
    let p ← value.toPattern D false
    return (k, p)
termination_by structural e => e

end

/-- The parameters of a signature. -/
def signatureParams (D : Decls) : List Parameter → Except Diagnostic (List Param)
  | [] => .ok []
  | p :: ps => do
    let pattern ← p.pattern.toPattern D p.isOptional
    return ⟨pattern, p.type⟩ :: (← signatureParams D ps)

end StructuralTyping
