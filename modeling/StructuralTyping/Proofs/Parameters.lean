import StructuralTyping.Proofs.Coincidence

/-!
# Parameters and outer bindings

The names that the parameters of a function bind are not entered into the scope.  The
type of a function literal is read off its returned expressions where the literal stands.
So a change of what the scope says about a parameter makes no difference as long as no
reachable return comes to look the name up (`Checker.typeOf_function_congr`).  A return
that does gives the type of an outer binding (`Checker.typeOf_returned_parameter`).

Many returned expressions mention a parameter and do not look it up.  Arithmetic and
comparisons have their type whatever the operands are, and so have templates.
-/

namespace StructuralTyping

/-! ## Names that patterns bind -/

mutual

/-- The names that a binding target binds. -/
def Binding.bound : Binding → List String
  | ⟨_, node⟩ => node.bound
termination_by structural b => b

/-- The names that a form of binding target binds. -/
def BindingNode.bound : BindingNode → List String
  | .missing => []
  | .ident name => [name]
  | .array bs => Binding.boundIn bs
  | .object entries remaining => BindingEntry.boundIn entries ++ remaining.bound
  | .rest b | .withDefault b _ => b.bound
termination_by structural b => b

/-- The names that binding targets bind. -/
def Binding.boundIn : List Binding → List String
  | [] => []
  | b :: bs => b.bound ++ Binding.boundIn bs
termination_by structural bs => bs

/-- The names that an entry of an object binding binds.  Its key is no such name. -/
def BindingEntry.bound : BindingEntry → List String
  | ⟨_, value, _⟩ => value.bound
termination_by structural e => e

/-- The names that entries bind. -/
def BindingEntry.boundIn : List BindingEntry → List String
  | [] => []
  | e :: es => e.bound ++ BindingEntry.boundIn es
termination_by structural es => es

end

/-- The names that the parameters of a function bind. -/
def Func.bound (f : Func) : List String := f.params.flatMap (·.pattern.bound)

/-! ## Scopes that differ in parameters -/

/-- Two scopes differ at most in what they say about some names. -/
def Scope.DifferOnlyOn (names : List String) (S S' : Scope) : Prop :=
  ∀ name, name ∉ names → S.AgreeOn [name] S'

namespace Checker

/-- The type of a function literal does not depend on what the scope says about its
parameters, unless a reachable return reads one of them. -/
theorem typeOf_function_congr (D : Decls) (o : Options) {S S' : Scope} {f : Func} (place : Span)
    (hscope : S.DifferOnlyOn f.bound S')
    (hreturns : ∀ e ∈ f.body.returns.values, ∀ name ∈ f.bound, ¬ e.Reads o name) :
    typeOf ⟨D, S, o⟩ ⟨place, .function f⟩ = typeOf ⟨D, S', o⟩ ⟨place, .function f⟩ := by
  refine typeOf_congr_of_reads D fun name hread => hscope name fun hbound => ?_
  cases hread with
  | lookup h => cases h
  | part hp h =>
    simp only [ExprNode.typedParts] at hp
    split at hp
    · exact hreturns _ hp name hbound h
    · cases hp

/-- Values that are bound to one name differ at most there. -/
theorem differOnlyOn_define (name : String) (s t : Ty) :
    (Environment.define {} name s).scope.DifferOnlyOn [name]
      (Environment.define {} name t).scope := by
  intro other hother name' hname'
  obtain rfl := List.mem_singleton.1 hname'
  have hne : (name' == name) = false := by simpa using hother
  have hnone (u : Ty) : (Environment.define {} name u).scope.var? name' = none := by
    simp [Environment.define, Environment.define?, Environment.scope, Environment.frames,
      List.lookup_cons, hne]
  exact ⟨(hnone s).trans (hnone t).symm, rfl, rfl⟩

/-- A function with destructured parameters, among them one that the scope binds, that
returns their sum and the type of the last one. -/
theorem typeOf_function_congr_operands :
    let x : Expr := ⟨{}, .ident "x"⟩
    let last : Expr := ⟨{}, .ident "last"⟩
    let parameter (node : BindingNode) : Parameter := ⟨{}, ⟨{}, node⟩, .missing, false, "", false⟩
    let f : Func :=
      { (default : Func) with
        params := [
          parameter (.object [⟨x, ⟨{}, .ident "x"⟩, false⟩] ⟨{}, .ident "others"⟩),
          parameter (.withDefault ⟨{}, .ident "last"⟩ ⟨{}, .null⟩)]
        body := ⟨{}, .block [
          ⟨{}, .ifElse x ⟨{}, .return ⟨{}, .binary x "+" last⟩⟩ ⟨{}, .missing⟩⟩,
          ⟨{}, .return ⟨{}, .typeOf last⟩⟩]⟩ }
    let S : Scope := (Environment.define {} "x" .string).scope
    let S' : Scope := (Environment.define {} "x" .boolean).scope
    S.DifferOnlyOn f.bound S' ∧ S.var? "x" ≠ S'.var? "x" ∧
      typeOf ⟨{}, S, {}⟩ ⟨{}, .function f⟩ = typeOf ⟨{}, S', {}⟩ ⟨{}, .function f⟩ := by
  intro x last parameter f S S'
  have hbound : f.bound = ["x", "others", "last"] := rfl
  have hscope : S.DifferOnlyOn f.bound S' := by
    intro name hname
    refine differOnlyOn_define "x" .string .boolean name fun hx => hname ?_
    rw [hbound, List.mem_singleton.1 hx]
    exact List.mem_cons_self
  refine ⟨hscope, by rintro ⟨⟩, typeOf_function_congr {} {} {} hscope ?_⟩
  have hvalues : f.body.returns.values = [⟨{}, .binary x "+" last⟩, ⟨{}, .typeOf last⟩] := rfl
  rw [hvalues]
  intro e he name _ hread
  have hnone : e.node.lookups = [] ∧ e.node.typedParts {} = [] := by
    simp only [List.mem_cons, List.not_mem_nil, or_false] at he
    rcases he with rfl | rfl <;> exact ⟨rfl, rfl⟩
  cases hread with
  | lookup h => simp [hnone.1] at h
  | part hp h => simp [hnone.2] at hp

/-- A function that returns its parameter returns what the scope says about the name.  So
two scopes that differ in it alone give the function different types. -/
theorem typeOf_returned_parameter :
    let x : Binding := ⟨{}, .ident "x"⟩
    let f : Func :=
      { (default : Func) with
        params := [⟨{}, x, .number, false, "", false⟩]
        body := ⟨{}, .block [⟨{}, .return ⟨{}, .ident "x"⟩⟩]⟩ }
    let C (t : Ty) : Checker := { scope := (Environment.define {} "x" t).scope }
    let returning (t : Ty) : Ty := .function (.mk [] [.plain "x" .number] t)
    f.result.isMissing = true ∧ (C .string).scope.DifferOnlyOn f.bound (C .boolean).scope ∧
      ((C .string).typeOf ⟨{}, .function f⟩).outcome = .ok (returning .string) ∧
      ((C .boolean).typeOf ⟨{}, .function f⟩).outcome = .ok (returning .boolean) ∧
      returning .string ≠ returning .boolean :=
  ⟨rfl, differOnlyOn_define "x" .string .boolean, rfl, rfl, by rintro ⟨⟩⟩

end Checker

end StructuralTyping
