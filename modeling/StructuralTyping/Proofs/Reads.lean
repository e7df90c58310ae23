import StructuralTyping.Checker.Infer
import StructuralTyping.Proofs.Names

/-!
# The names that inference reads

The type of an expression is made of the types of some of its parts
(`ExprNode.typedParts`).  Neither the operands of an arithmetic operator are among them, nor
the condition of a ternary, nor what stands in a body besides its reachable returns.  A
name is read where an identifier is reached in this way, and where a call of `require`
with a string is (`Expr.Reads`).

Every name that is read is mentioned (`Expr.Reads.mem_names`).  The names that are
mentioned may be many more.
-/

namespace StructuralTyping

/-! ## Parts with types that count -/

/-- What a call with this callee starts from.  A call of a member starts from the object. -/
def Expr.receiver (callee : Expr) : Expr :=
  match callee.node with
  | .member o _ | .index o _ => o
  | _ => callee

/-- The value that gives a class member its type. -/
def ClassMember.typedParts : ClassMember → List Expr
  | .property _ key _ type value _ _ isStatic =>
    if isStatic || Checker.isPrivate key || !type.isMissing then [] else [value]
  | .method .. | .index .. => []

/-- The parts of a form of expression that its type is made of. -/
def ExprNode.typedParts (o : Options) : ExprNode → List Expr
  | .array es | .sequence es => es
  | .object entries => entries.map (·.value)
  | .paren e | .assign _ _ e | .nonNull e | .member e _ => [e]
  | .unary operator e => if operator == "!" then [e] else []
  | .binary l operator r =>
    if operator == "&&" || operator == "||" then [r] else if operator == "??" then [l, r] else []
  | .ternary _ a b => [a, b]
  | .index e i => [e, i]
  | .call callee _ args | .construct callee _ args =>
    callee.receiver :: if o.checkArguments then args else []
  | .function f => if f.result.isMissing then f.body.returns.values else []
  | .classExpr c => c.members.flatMap ClassMember.typedParts
  | _ => []

/-- The names that a form of expression looks up itself.  The name `require` is never
looked up. -/
def ExprNode.lookups : ExprNode → List String
  | .ident name => if name == "require" then [] else [name]
  | .call ⟨_, .ident "require"⟩ _ (⟨_, .string name⟩ :: _) => [name]
  | _ => []

/-- Inference of an expression may come to look up a name. -/
inductive Expr.Reads (o : Options) : Expr → String → Prop where
  | lookup {e : Expr} {name : String} (h : name ∈ e.node.lookups) : Expr.Reads o e name
  | part {e p : Expr} {name : String} (hp : p ∈ e.node.typedParts o) (h : Expr.Reads o p name) :
      Expr.Reads o e name

/-! ## What is read is mentioned -/

theorem Expr.names_subset_of_mem {e : Expr} {es : List Expr} (h : e ∈ es) :
    e.names ⊆ Expr.namesOf es := by
  induction h with
  | head es => exact List.subset_append_left _ _
  | tail _ _ ih => exact List.Subset.trans ih (List.subset_append_right _ _)

theorem ObjectEntry.names_value_subset_of_mem {e : ObjectEntry} {es : List ObjectEntry}
    (h : e ∈ es) : e.value.names ⊆ ObjectEntry.namesOf es := by
  induction h with
  | head es =>
    obtain ⟨key, value, computed, shorthand⟩ := e
    exact List.Subset.trans (List.subset_append_right _ _) (List.subset_append_left _ _)
  | tail _ _ ih => exact List.Subset.trans ih (List.subset_append_right _ _)

theorem Expr.names_receiver_subset (callee : Expr) : callee.receiver.names ⊆ callee.names := by
  obtain ⟨span, node⟩ := callee
  cases node with
  | index object i => exact List.subset_append_left _ _
  | _ => exact List.Subset.refl _

theorem ClassMember.names_subset_of_mem_typedParts {m : ClassMember} {p : Expr}
    (h : p ∈ m.typedParts) : p.names ⊆ m.names := by
  cases m with
  | property span key computed type value isOptional isReadonly isStatic =>
    simp only [typedParts] at h
    split at h
    · cases h
    · obtain rfl := List.mem_singleton.1 h
      exact List.subset_append_right _ _
  | method | index => cases h

namespace ExprNode

variable {o : Options}

theorem lookups_subset_names (node : ExprNode) : node.lookups ⊆ node.names := by
  fun_cases lookups node with
  | case1 => exact List.nil_subset _
  | case2 => exact List.Subset.refl _
  | case3 span ts argSpan name args =>
    intro read hread
    obtain rfl := List.mem_singleton.1 hread
    exact List.mem_cons_of_mem _ List.mem_cons_self
  | case4 => exact List.nil_subset _

theorem names_subset_of_mem_typedParts {node : ExprNode} {p : Expr} (h : p ∈ node.typedParts o) :
    p.names ⊆ node.names := by
  have hcall {callee : Expr} {args : List Expr}
      (h : p ∈ callee.receiver :: if o.checkArguments then args else []) :
      p.names ⊆ callee.names ++ Expr.namesOf args := by
    rcases List.mem_cons.1 h with rfl | h
    · exact List.Subset.trans callee.names_receiver_subset (List.subset_append_left _ _)
    · split at h
      · exact List.Subset.trans (Expr.names_subset_of_mem h) (List.subset_append_right _ _)
      · cases h
  cases node with
  | array es | sequence es => exact Expr.names_subset_of_mem h
  | object entries =>
    obtain ⟨e, he, rfl⟩ := List.mem_map.1 h
    exact ObjectEntry.names_value_subset_of_mem he
  | paren e | nonNull e | member e property =>
    obtain rfl := List.mem_singleton.1 h
    exact List.Subset.refl _
  | assign operator target value =>
    obtain rfl := List.mem_singleton.1 h
    exact List.subset_append_right _ _
  | unary operator e =>
    simp only [typedParts] at h
    split at h
    · obtain rfl := List.mem_singleton.1 h
      exact List.Subset.refl _
    · cases h
  | binary l operator r =>
    have hmem : p = l ∨ p = r := by
      simp only [typedParts] at h
      split at h
      · exact .inr (List.mem_singleton.1 h)
      · split at h
        · simpa using h
        · cases h
    rcases hmem with rfl | rfl
    · exact List.subset_append_left _ _
    · exact List.subset_append_right _ _
  | ternary c a b =>
    simp only [typedParts, List.mem_cons, List.not_mem_nil, or_false] at h
    rcases h with rfl | rfl
    · exact List.Subset.trans (List.subset_append_right _ _) (List.subset_append_left _ _)
    · exact List.subset_append_right _ _
  | index object i =>
    simp only [typedParts, List.mem_cons, List.not_mem_nil, or_false] at h
    rcases h with rfl | rfl
    · exact List.subset_append_left _ _
    · exact List.subset_append_right _ _
  | call callee typeArgs args | construct callee typeArgs args => exact hcall h
  | function f =>
    simp only [typedParts] at h
    split at h
    · exact f.names_subset_of_mem_returns p h
    · cases h
  | classExpr c =>
    obtain ⟨span, name, base, members⟩ := c
    obtain ⟨m, hm, hp⟩ := List.mem_flatMap.1 h
    exact List.Subset.trans (ClassMember.names_subset_of_mem_typedParts hp)
      (List.Subset.trans (ClassMember.names_subset_of_mem hm) (List.subset_append_right _ _))
  | _ => cases h

end ExprNode

/-- A name that is read is mentioned. -/
theorem Expr.Reads.mem_names {o : Options} {e : Expr} {name : String} (h : e.Reads o name) :
    name ∈ e.names := by
  induction h with
  | @lookup e _ h =>
    cases e
    exact ExprNode.lookups_subset_names _ h
  | @part e _ _ hp _ ih =>
    cases e
    exact ExprNode.names_subset_of_mem_typedParts hp ih

end StructuralTyping
