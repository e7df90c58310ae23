import StructuralTyping.Checker.Returns

/-!
# The names in an expression

`Expr.names` lists the names that an expression mentions: every identifier that stands as
an expression, and every string, which may be the name of a module.  Parts that inference
never looks at count as well, such as the statements of a body that are not reached, the
conditions of loops, and default values.  The name after a point and the names that a
pattern binds are no expressions, and they are not listed.
-/

namespace StructuralTyping

mutual

/-- The names in an expression. -/
def Expr.names : Expr → List String
  | ⟨_, node⟩ => node.names
termination_by structural e => e

/-- The names in a form of expression. -/
def ExprNode.names : ExprNode → List String
  | .ident name => [name]
  | .string s => [s]
  | .missing | .bool _ | .number _ | .null | .regex _ _ | .this | .super | .metaProperty _ _ => []
  | .template _ es | .array es | .sequence es => Expr.namesOf es
  | .object entries => ObjectEntry.namesOf entries
  | .spread e | .paren e | .unary _ e | .typeOf e | .void e | .update _ e _ | .member e _
  | .assertion e _
  | .cast e _ | .nonNull e | .await e | .yield e _ => e.names
  | .binary l _ r | .assign _ l r | .index l r => l.names ++ r.names
  | .ternary c a b => c.names ++ a.names ++ b.names
  | .call f _ args | .construct f _ args => f.names ++ Expr.namesOf args
  | .function f => f.names
  | .arrow params _ body _ => Parameter.namesOf params ++ body.names
  | .classExpr c => c.names
termination_by structural e => e

/-- The names in expressions. -/
def Expr.namesOf : List Expr → List String
  | [] => []
  | e :: es => e.names ++ Expr.namesOf es
termination_by structural es => es

/-- The names in an entry of an object literal. -/
def ObjectEntry.names : ObjectEntry → List String
  | ⟨key, value, _, _⟩ => key.names ++ value.names
termination_by structural e => e

/-- The names in entries. -/
def ObjectEntry.namesOf : List ObjectEntry → List String
  | [] => []
  | e :: es => e.names ++ ObjectEntry.namesOf es
termination_by structural es => es

/-- The names in a binding target. -/
def Binding.names : Binding → List String
  | ⟨_, node⟩ => node.names
termination_by structural b => b

/-- The names in a form of binding target. -/
def BindingNode.names : BindingNode → List String
  | .missing | .ident _ => []
  | .array bs => Binding.namesOf bs
  | .object entries remaining => BindingEntry.namesOf entries ++ remaining.names
  | .rest b => b.names
  | .withDefault b e => b.names ++ e.names
termination_by structural b => b

/-- The names in binding targets. -/
def Binding.namesOf : List Binding → List String
  | [] => []
  | b :: bs => b.names ++ Binding.namesOf bs
termination_by structural bs => bs

/-- The names in an entry of an object binding. -/
def BindingEntry.names : BindingEntry → List String
  | ⟨key, value, _⟩ => key.names ++ value.names
termination_by structural e => e

/-- The names in entries. -/
def BindingEntry.namesOf : List BindingEntry → List String
  | [] => []
  | e :: es => e.names ++ BindingEntry.namesOf es
termination_by structural es => es

/-- The names in a parameter. -/
def Parameter.names : Parameter → List String
  | ⟨_, pattern, _, _, _, _⟩ => pattern.names
termination_by structural p => p

/-- The names in parameters. -/
def Parameter.namesOf : List Parameter → List String
  | [] => []
  | p :: ps => p.names ++ Parameter.namesOf ps
termination_by structural ps => ps

/-- The names in a function literal. -/
def Func.names : Func → List String
  | ⟨_, _, _, params, _, body, _, _⟩ => Parameter.namesOf params ++ body.names
termination_by structural f => f

/-- The names in a class. -/
def ClassDef.names : ClassDef → List String
  | ⟨_, _, base, members⟩ => base.names ++ ClassMember.namesOf members
termination_by structural c => c

/-- The names in a class member. -/
def ClassMember.names : ClassMember → List String
  | .property _ key _ _ value _ _ _ => key.names ++ value.names
  | .method _ _ key _ function _ => key.names ++ function.names
  | .index _ _ => []
termination_by structural m => m

/-- The names in class members. -/
def ClassMember.namesOf : List ClassMember → List String
  | [] => []
  | m :: ms => m.names ++ ClassMember.namesOf ms
termination_by structural ms => ms

/-- The names in a statement. -/
def Stmt.names : Stmt → List String
  | ⟨_, node⟩ => node.names
termination_by structural s => s

/-- The names in a form of statement. -/
def StmtNode.names : StmtNode → List String
  | .missing | .empty | .break _ | .continue _ => []
  | .value e | .expr e | .return e | .throw e => e.names
  | .block body => Stmt.namesOf body
  | .ifElse c a b => c.names ++ a.names ++ b.names
  | .while c b => c.names ++ b.names
  | .doWhile b c => b.names ++ c.names
  | .for start condition update body => start.names ++ condition.names ++ update.names ++ body.names
  | .switch subject cases => subject.names ++ SwitchCase.namesOf cases
  | .try block catchParam handler finalizer =>
    block.names ++ catchParam.names ++ handler.names ++ finalizer.names
  | .var _ declarations => Declarator.namesOf declarations
  | .function f => f.names
  | .classDecl c => c.names
termination_by structural s => s

/-- The names in statements. -/
def Stmt.namesOf : List Stmt → List String
  | [] => []
  | s :: ss => s.names ++ Stmt.namesOf ss
termination_by structural ss => ss

/-- The names in a clause of a switch. -/
def SwitchCase.names : SwitchCase → List String
  | ⟨condition, body⟩ => condition.names ++ Stmt.namesOf body
termination_by structural c => c

/-- The names in the clauses of a switch. -/
def SwitchCase.namesOf : List SwitchCase → List String
  | [] => []
  | c :: cs => c.names ++ SwitchCase.namesOf cs
termination_by structural cs => cs

/-- The names in a binding of a variable declaration. -/
def Declarator.names : Declarator → List String
  | ⟨target, _, value⟩ => target.names ++ value.names
termination_by structural d => d

/-- The names in bindings. -/
def Declarator.namesOf : List Declarator → List String
  | [] => []
  | d :: ds => d.names ++ Declarator.namesOf ds
termination_by structural ds => ds

end

/-! ## Parts -/

theorem ClassMember.names_subset_of_mem {m : ClassMember} {ms : List ClassMember} (h : m ∈ ms) :
    m.names ⊆ ClassMember.namesOf ms := by
  induction h with
  | head ms => exact List.subset_append_left _ _
  | tail _ _ ih => exact List.Subset.trans ih (List.subset_append_right _ _)

mutual

/-- The returned expressions of a statement stand in it. -/
theorem Stmt.names_subset_of_mem_returns : ∀ (s : Stmt), ∀ e ∈ s.returns.values, e.names ⊆ s.names
  | ⟨_, node⟩ => node.names_subset_of_mem_returns
termination_by structural s => s

theorem StmtNode.names_subset_of_mem_returns :
    ∀ (s : StmtNode), ∀ e ∈ s.returns.values, e.names ⊆ s.names
  | .return e', e, he => by
    obtain rfl : e = e' := by simpa [StmtNode.returns] using he
    exact List.Subset.refl _
  | .block body, e, he => Stmt.names_subset_of_mem_returnsOf body e he
  | .ifElse c a b, e, he => by
    have ha := a.names_subset_of_mem_returns e
    have hb := b.names_subset_of_mem_returns e
    simp only [StmtNode.returns, List.mem_append, StmtNode.names] at he ⊢
    grind
  | .while c b, e, he =>
    List.Subset.trans (b.names_subset_of_mem_returns e he) (List.subset_append_right _ _)
  | .doWhile b c, e, he =>
    List.Subset.trans (b.names_subset_of_mem_returns e he) (List.subset_append_left _ _)
  | .for start condition update body, e, he =>
    List.Subset.trans (body.names_subset_of_mem_returns e he) (List.subset_append_right _ _)
  | .switch subject cases, e, he =>
    List.Subset.trans (SwitchCase.names_subset_of_mem_returnsOf cases e he)
      (List.subset_append_right _ _)
  | .try block catchParam handler finalizer, e, he => by
    have hblock := block.names_subset_of_mem_returns e
    have hhandler := handler.names_subset_of_mem_returns e
    have hfinalizer := finalizer.names_subset_of_mem_returns e
    simp only [StmtNode.returns, List.mem_append, StmtNode.names] at he ⊢
    grind
  | .missing, _, he | .empty, _, he | .value _, _, he | .expr _, _, he | .throw _, _, he
  | .break _, _, he
  | .continue _, _, he | .var _ _, _, he | .function _, _, he | .classDecl _, _, he => by cases he
termination_by structural s => s

theorem Stmt.names_subset_of_mem_returnsOf :
    ∀ (ss : List Stmt), ∀ e ∈ (Stmt.returnsOf ss).values, e.names ⊆ Stmt.namesOf ss
  | [], _, he => by cases he
  | s :: ss, e, he => by
    have hs := s.names_subset_of_mem_returns e
    have hss := Stmt.names_subset_of_mem_returnsOf ss e
    rw [Stmt.returnsOf] at he
    rw [Stmt.namesOf]
    split at he
    · exact List.Subset.trans (hs he) (List.subset_append_left _ _)
    · rcases List.mem_append.1 he with he | he
      · exact List.Subset.trans (hs he) (List.subset_append_left _ _)
      · exact List.Subset.trans (hss he) (List.subset_append_right _ _)
termination_by structural ss => ss

theorem SwitchCase.names_subset_of_mem_returnsOf :
    ∀ (cs : List SwitchCase), ∀ e ∈ SwitchCase.returnsOf cs, e.names ⊆ SwitchCase.namesOf cs
  | [], _, he => by cases he
  | c :: cs, e, he => by
    rcases List.mem_append.1 he with he | he
    · exact List.Subset.trans (c.names_subset_of_mem_returns e he) (List.subset_append_left _ _)
    · exact List.Subset.trans (SwitchCase.names_subset_of_mem_returnsOf cs e he)
        (List.subset_append_right _ _)
termination_by structural cs => cs

theorem SwitchCase.names_subset_of_mem_returns :
    ∀ (c : SwitchCase), ∀ e ∈ c.returns, e.names ⊆ c.names
  | ⟨_, body⟩, e, he =>
    List.Subset.trans (Stmt.names_subset_of_mem_returnsOf body e he) (List.subset_append_right _ _)
termination_by structural c => c

end

theorem Func.names_subset_of_mem_returns :
    ∀ (f : Func), ∀ e ∈ f.body.returns.values, e.names ⊆ f.names
  | ⟨_, _, _, _, _, body, _, _⟩, e, he =>
    List.Subset.trans (body.names_subset_of_mem_returns e he) (List.subset_append_right _ _)

end StructuralTyping
