import StructuralTyping.Checker.Returns
import StructuralTyping.Diagnostic.Basic
import StructuralTyping.Expr.Text

/-!
# Trees without positions

`Expr.unplaced` is an expression without the spans of its nodes.  Two expressions that
differ only in their spans are the same without them.  `Diagnostic.unplaced` says the same
of trees of diagnostics.

What is read off an expression is the same with and without positions: which parts are left
out, the text, and the returns of a body.  A key that is computed is known by its text, so
the text has to be followed through all forms of expressions and statements.  What a
diagnostic says is the same as well, and `Diagnostic.wording` is all that it says.
-/

namespace StructuralTyping

mutual

/-- The expression without positions. -/
def Expr.unplaced : Expr → Expr
  | ⟨_, node⟩ => ⟨Span.none, node.unplaced⟩
termination_by structural e => e

/-- The form of expression without positions. -/
def ExprNode.unplaced : ExprNode → ExprNode
  | .missing => .missing
  | .ident name => .ident name
  | .bool b => .bool b
  | .number x => .number x
  | .string s => .string s
  | .null => .null
  | .regex pattern flags => .regex pattern flags
  | .template chunks parts => .template chunks (Expr.allUnplaced parts)
  | .this => .this
  | .super => .super
  | .array es => .array (Expr.allUnplaced es)
  | .spread e => .spread e.unplaced
  | .object entries => .object (ObjectEntry.allUnplaced entries)
  | .paren e => .paren e.unplaced
  | .unary operator e => .unary operator e.unplaced
  | .typeOf e => .typeOf e.unplaced
  | .void e => .void e.unplaced
  | .update operator e isBefore => .update operator e.unplaced isBefore
  | .binary l operator r => .binary l.unplaced operator r.unplaced
  | .ternary c a b => .ternary c.unplaced a.unplaced b.unplaced
  | .assign operator l r => .assign operator l.unplaced r.unplaced
  | .sequence es => .sequence (Expr.allUnplaced es)
  | .call f ts args => .call f.unplaced ts (Expr.allUnplaced args)
  | .construct f ts args => .construct f.unplaced ts (Expr.allUnplaced args)
  | .member o p => .member o.unplaced p
  | .index o i => .index o.unplaced i.unplaced
  | .assertion e t => .assertion e.unplaced t
  | .cast e t => .cast e.unplaced t
  | .nonNull e => .nonNull e.unplaced
  | .await e => .await e.unplaced
  | .yield e isDelegate => .yield e.unplaced isDelegate
  | .metaProperty o p => .metaProperty o p
  | .function f => .function f.unplaced
  | .arrow params result body isAsync =>
    .arrow (Parameter.allUnplaced params) result body.unplaced isAsync
  | .classExpr c => .classExpr c.unplaced
termination_by structural e => e

/-- Expressions without positions. -/
def Expr.allUnplaced : List Expr → List Expr
  | [] => []
  | e :: es => e.unplaced :: Expr.allUnplaced es
termination_by structural es => es

/-- The entry of an object literal without positions. -/
def ObjectEntry.unplaced : ObjectEntry → ObjectEntry
  | ⟨key, value, computed, shorthand⟩ => ⟨key.unplaced, value.unplaced, computed, shorthand⟩
termination_by structural e => e

/-- Entries without positions. -/
def ObjectEntry.allUnplaced : List ObjectEntry → List ObjectEntry
  | [] => []
  | e :: es => e.unplaced :: ObjectEntry.allUnplaced es
termination_by structural es => es

/-- The binding target without positions. -/
def Binding.unplaced : Binding → Binding
  | ⟨_, node⟩ => ⟨Span.none, node.unplaced⟩
termination_by structural b => b

/-- The form of binding target without positions. -/
def BindingNode.unplaced : BindingNode → BindingNode
  | .missing => .missing
  | .ident name => .ident name
  | .array bs => .array (Binding.allUnplaced bs)
  | .object entries remaining => .object (BindingEntry.allUnplaced entries) remaining.unplaced
  | .rest b => .rest b.unplaced
  | .withDefault b e => .withDefault b.unplaced e.unplaced
termination_by structural b => b

/-- Binding targets without positions. -/
def Binding.allUnplaced : List Binding → List Binding
  | [] => []
  | b :: bs => b.unplaced :: Binding.allUnplaced bs
termination_by structural bs => bs

/-- The entry of an object binding without positions. -/
def BindingEntry.unplaced : BindingEntry → BindingEntry
  | ⟨key, value, computed⟩ => ⟨key.unplaced, value.unplaced, computed⟩
termination_by structural e => e

/-- Entries without positions. -/
def BindingEntry.allUnplaced : List BindingEntry → List BindingEntry
  | [] => []
  | e :: es => e.unplaced :: BindingEntry.allUnplaced es
termination_by structural es => es

/-- The parameter without positions. -/
def Parameter.unplaced : Parameter → Parameter
  | ⟨_, pattern, type, isOptional, accessibility, isReadonly⟩ =>
    ⟨Span.none, pattern.unplaced, type, isOptional, accessibility, isReadonly⟩
termination_by structural p => p

/-- Parameters without positions. -/
def Parameter.allUnplaced : List Parameter → List Parameter
  | [] => []
  | p :: ps => p.unplaced :: Parameter.allUnplaced ps
termination_by structural ps => ps

/-- The function literal without positions. -/
def Func.unplaced : Func → Func
  | ⟨_, name, typeParams, params, result, body, isAsync, isGenerator⟩ =>
    ⟨Span.none, name, typeParams, Parameter.allUnplaced params, result, body.unplaced,
      isAsync, isGenerator⟩
termination_by structural f => f

/-- The class without positions. -/
def ClassDef.unplaced : ClassDef → ClassDef
  | ⟨_, name, base, members⟩ => ⟨Span.none, name, base.unplaced, ClassMember.allUnplaced members⟩
termination_by structural c => c

/-- The class member without positions. -/
def ClassMember.unplaced : ClassMember → ClassMember
  | .property _ key computed type value isOptional isReadonly isStatic =>
    .property Span.none key.unplaced computed type value.unplaced isOptional isReadonly isStatic
  | .method _ kind key computed function isStatic =>
    .method Span.none kind key.unplaced computed function.unplaced isStatic
  | .index _ signature => .index Span.none signature
termination_by structural m => m

/-- Class members without positions. -/
def ClassMember.allUnplaced : List ClassMember → List ClassMember
  | [] => []
  | m :: ms => m.unplaced :: ClassMember.allUnplaced ms
termination_by structural ms => ms

/-- The statement without positions. -/
def Stmt.unplaced : Stmt → Stmt
  | ⟨_, node⟩ => ⟨Span.none, node.unplaced⟩
termination_by structural s => s

/-- The form of statement without positions. -/
def StmtNode.unplaced : StmtNode → StmtNode
  | .missing => .missing
  | .empty => .empty
  | .value e => .value e.unplaced
  | .block body => .block (Stmt.allUnplaced body)
  | .expr e => .expr e.unplaced
  | .return e => .return e.unplaced
  | .throw e => .throw e.unplaced
  | .break label => .break label
  | .continue label => .continue label
  | .ifElse c a b => .ifElse c.unplaced a.unplaced b.unplaced
  | .while c b => .while c.unplaced b.unplaced
  | .doWhile b c => .doWhile b.unplaced c.unplaced
  | .for start condition update body =>
    .for start.unplaced condition.unplaced update.unplaced body.unplaced
  | .switch subject cases => .switch subject.unplaced (SwitchCase.allUnplaced cases)
  | .try block catchParam handler finalizer =>
    .try block.unplaced catchParam.unplaced handler.unplaced finalizer.unplaced
  | .var kind declarations => .var kind (Declarator.allUnplaced declarations)
  | .function f => .function f.unplaced
  | .classDecl c => .classDecl c.unplaced
termination_by structural s => s

/-- Statements without positions. -/
def Stmt.allUnplaced : List Stmt → List Stmt
  | [] => []
  | s :: ss => s.unplaced :: Stmt.allUnplaced ss
termination_by structural ss => ss

/-- The clause of a switch without positions. -/
def SwitchCase.unplaced : SwitchCase → SwitchCase
  | ⟨condition, body⟩ => ⟨condition.unplaced, Stmt.allUnplaced body⟩
termination_by structural c => c

/-- Clauses without positions. -/
def SwitchCase.allUnplaced : List SwitchCase → List SwitchCase
  | [] => []
  | c :: cs => c.unplaced :: SwitchCase.allUnplaced cs
termination_by structural cs => cs

/-- The binding of a variable declaration without positions. -/
def Declarator.unplaced : Declarator → Declarator
  | ⟨target, type, value⟩ => ⟨target.unplaced, type, value.unplaced⟩
termination_by structural d => d

/-- Bindings without positions. -/
def Declarator.allUnplaced : List Declarator → List Declarator
  | [] => []
  | d :: ds => d.unplaced :: Declarator.allUnplaced ds
termination_by structural ds => ds

end

/-! ## Parts that are left out -/

@[simp] theorem Expr.isMissing_unplaced (e : Expr) : e.unplaced.isMissing = e.isMissing := by
  obtain ⟨span, node⟩ := e
  cases node <;> rfl

@[simp] theorem Expr.isSpread_unplaced (e : Expr) : e.unplaced.isSpread = e.isSpread := by
  obtain ⟨span, node⟩ := e
  cases node <;> rfl

@[simp] theorem Binding.isMissing_unplaced (b : Binding) : b.unplaced.isMissing = b.isMissing := by
  obtain ⟨span, node⟩ := b
  cases node <;> rfl

@[simp] theorem Stmt.isMissing_unplaced (s : Stmt) : s.unplaced.isMissing = s.isMissing := by
  obtain ⟨span, node⟩ := s
  cases node <;> rfl

@[simp] theorem Expr.length_allUnplaced (es : List Expr) :
    (Expr.allUnplaced es).length = es.length := by
  induction es with
  | nil => rfl
  | cons e es ih => exact congrArg (· + 1) ih

/-! ## Texts -/

mutual

/-- The text of an expression does not show positions. -/
theorem Expr.text_unplaced (D : Decls) : ∀ e : Expr, e.unplaced.text D = e.text D
  | ⟨_, node⟩ => node.text_unplaced D
termination_by structural e => e

theorem ExprNode.text_unplaced (D : Decls) : ∀ e : ExprNode, e.unplaced.text D = e.text D
  | .missing | .ident _ | .bool _ | .number _ | .string _ | .null | .regex _ _ | .this | .super
  | .metaProperty _ _ => rfl
  | .template _ es | .array es | .sequence es => by
    simp only [ExprNode.unplaced, ExprNode.text, Expr.texts_allUnplaced D es]
  | .object entries => by
    simp only [ExprNode.unplaced, ExprNode.text, ObjectEntry.texts_allUnplaced D entries]
  | .spread e | .paren e | .unary _ e | .typeOf e | .void e | .update _ e _ | .member e _
  | .assertion e _
  | .cast e _ | .nonNull e | .await e | .yield e _ => by
    simp only [ExprNode.unplaced, ExprNode.text, Expr.isMissing_unplaced, e.text_unplaced D]
  | .binary l _ r | .assign _ l r | .index l r => by
    simp only [ExprNode.unplaced, ExprNode.text, l.text_unplaced D, r.text_unplaced D]
  | .ternary c a b => by
    simp only [ExprNode.unplaced, ExprNode.text, c.text_unplaced D, a.text_unplaced D,
      b.text_unplaced D]
  | .call f _ args | .construct f _ args => by
    simp only [ExprNode.unplaced, ExprNode.text, f.text_unplaced D, Expr.texts_allUnplaced D args]
  | .function f => by simp only [ExprNode.unplaced, ExprNode.text, f.text_unplaced D]
  | .arrow params _ body _ => by
    simp only [ExprNode.unplaced, ExprNode.text, Parameter.texts_allUnplaced D params,
      body.text_unplaced D]
  | .classExpr c => by simp only [ExprNode.unplaced, ExprNode.text, c.text_unplaced D]
termination_by structural e => e

theorem Expr.texts_allUnplaced (D : Decls) :
    ∀ es : List Expr, Expr.texts D (Expr.allUnplaced es) = Expr.texts D es
  | [] => rfl
  | e :: es => by simp only [Expr.allUnplaced, Expr.texts, e.text_unplaced D,
    Expr.texts_allUnplaced D es]
termination_by structural es => es

theorem ObjectEntry.text_unplaced (D : Decls) : ∀ e : ObjectEntry, e.unplaced.text D = e.text D
  | ⟨key, value, _, _⟩ => by
    simp only [ObjectEntry.unplaced, ObjectEntry.text, Expr.isMissing_unplaced, key.text_unplaced D,
      value.text_unplaced D]
termination_by structural e => e

theorem ObjectEntry.texts_allUnplaced (D : Decls) :
    ∀ es : List ObjectEntry,
      ObjectEntry.texts D (ObjectEntry.allUnplaced es) = ObjectEntry.texts D es
  | [] => rfl
  | e :: es => by
    simp only [ObjectEntry.allUnplaced, ObjectEntry.texts, e.text_unplaced D,
      ObjectEntry.texts_allUnplaced D es]
termination_by structural es => es

/-- The text of a binding target does not show positions. -/
theorem Binding.text_unplaced (D : Decls) : ∀ b : Binding, b.unplaced.text D = b.text D
  | ⟨_, node⟩ => node.text_unplaced D
termination_by structural b => b

theorem BindingNode.text_unplaced (D : Decls) : ∀ b : BindingNode, b.unplaced.text D = b.text D
  | .missing | .ident _ => rfl
  | .array bs => by simp only [BindingNode.unplaced, BindingNode.text,
    Binding.texts_allUnplaced D bs]
  | .object entries remaining => by
    simp only [BindingNode.unplaced, BindingNode.text, Binding.isMissing_unplaced,
      BindingEntry.texts_allUnplaced D entries, remaining.text_unplaced D]
  | .rest b => by simp only [BindingNode.unplaced, BindingNode.text, b.text_unplaced D]
  | .withDefault b e => by
    simp only [BindingNode.unplaced, BindingNode.text, b.text_unplaced D, e.text_unplaced D]
termination_by structural b => b

theorem Binding.texts_allUnplaced (D : Decls) :
    ∀ bs : List Binding, Binding.texts D (Binding.allUnplaced bs) = Binding.texts D bs
  | [] => rfl
  | b :: bs => by
    simp only [Binding.allUnplaced, Binding.texts, b.text_unplaced D,
      Binding.texts_allUnplaced D bs]
termination_by structural bs => bs

theorem BindingEntry.text_unplaced (D : Decls) : ∀ e : BindingEntry, e.unplaced.text D = e.text D
  | ⟨key, value, _⟩ => by
    simp only [BindingEntry.unplaced, BindingEntry.text, key.text_unplaced D, value.text_unplaced D]
termination_by structural e => e

theorem BindingEntry.texts_allUnplaced (D : Decls) :
    ∀ es : List BindingEntry,
      BindingEntry.texts D (BindingEntry.allUnplaced es) = BindingEntry.texts D es
  | [] => rfl
  | e :: es => by
    simp only [BindingEntry.allUnplaced, BindingEntry.texts, e.text_unplaced D,
      BindingEntry.texts_allUnplaced D es]
termination_by structural es => es

theorem Parameter.text_unplaced (D : Decls) : ∀ p : Parameter, p.unplaced.text D = p.text D
  | ⟨_, pattern, _, _, _, _⟩ => by
    simp only [Parameter.unplaced, Parameter.text, pattern.text_unplaced D]
termination_by structural p => p

theorem Parameter.texts_allUnplaced (D : Decls) :
    ∀ ps : List Parameter, Parameter.texts D (Parameter.allUnplaced ps) = Parameter.texts D ps
  | [] => rfl
  | p :: ps => by
    simp only [Parameter.allUnplaced, Parameter.texts, p.text_unplaced D,
      Parameter.texts_allUnplaced D ps]
termination_by structural ps => ps

theorem Func.text_unplaced (D : Decls) : ∀ f : Func, f.unplaced.text D = f.text D
  | ⟨_, _, _, params, _, body, _, _⟩ => by
    simp only [Func.unplaced, Func.text, Stmt.isMissing_unplaced,
      Parameter.texts_allUnplaced D params, body.text_unplaced D]
termination_by structural f => f

theorem Func.methodText_unplaced (D : Decls) : ∀ f : Func, f.unplaced.methodText D = f.methodText D
  | ⟨_, _, _, params, _, body, _, _⟩ => by
    simp only [Func.unplaced, Func.methodText, Stmt.isMissing_unplaced,
      Parameter.texts_allUnplaced D params, body.text_unplaced D]
termination_by structural f => f

theorem ClassDef.text_unplaced (D : Decls) : ∀ c : ClassDef, c.unplaced.text D = c.text D
  | ⟨_, _, base, members⟩ => by
    simp only [ClassDef.unplaced, ClassDef.text, Expr.isMissing_unplaced, base.text_unplaced D,
      ClassMember.lines_allUnplaced D members]
termination_by structural c => c

theorem ClassMember.text_unplaced (D : Decls) : ∀ m : ClassMember, m.unplaced.text D = m.text D
  | .property _ key _ _ value _ _ _ => by
    simp only [ClassMember.unplaced, ClassMember.text, Expr.isMissing_unplaced, key.text_unplaced D,
      value.text_unplaced D]
  | .method _ _ key _ function _ => by
    simp only [ClassMember.unplaced, ClassMember.text, Expr.isMissing_unplaced, key.text_unplaced D,
      function.methodText_unplaced D]
  | .index _ _ => rfl
termination_by structural m => m

theorem ClassMember.lines_allUnplaced (D : Decls) :
    ∀ ms : List ClassMember,
      ClassMember.lines D (ClassMember.allUnplaced ms) = ClassMember.lines D ms
  | [] => rfl
  | m :: ms => by
    simp only [ClassMember.allUnplaced, ClassMember.lines, m.text_unplaced D,
      ClassMember.lines_allUnplaced D ms]
termination_by structural ms => ms

theorem Stmt.indented_allUnplaced (D : Decls) :
    ∀ ss : List Stmt, Stmt.indented D (Stmt.allUnplaced ss) = Stmt.indented D ss
  | [] => rfl
  | s :: ss => by
    simp only [Stmt.allUnplaced, Stmt.indented, Stmt.isMissing_unplaced, s.text_unplaced D,
      Stmt.indented_allUnplaced D ss]
termination_by structural ss => ss

theorem Stmt.tabbed_allUnplaced (D : Decls) :
    ∀ ss : List Stmt, Stmt.tabbed D (Stmt.allUnplaced ss) = Stmt.tabbed D ss
  | [] => rfl
  | s :: ss => by
    simp only [Stmt.allUnplaced, Stmt.tabbed, s.text_unplaced D, Stmt.tabbed_allUnplaced D ss]
termination_by structural ss => ss

/-- The text of a statement does not show positions. -/
theorem Stmt.text_unplaced (D : Decls) : ∀ s : Stmt, s.unplaced.text D = s.text D
  | ⟨_, node⟩ => node.text_unplaced D
termination_by structural s => s

theorem StmtNode.text_unplaced (D : Decls) : ∀ s : StmtNode, s.unplaced.text D = s.text D
  | .missing | .empty | .break _ | .continue _ => rfl
  | .value e | .expr e | .return e | .throw e => by
    simp only [StmtNode.unplaced, StmtNode.text, Expr.isMissing_unplaced, e.text_unplaced D]
  | .block body => by simp only [StmtNode.unplaced, StmtNode.text, Stmt.indented_allUnplaced D body]
  | .ifElse c a b => by
    simp only [StmtNode.unplaced, StmtNode.text, Stmt.isMissing_unplaced, c.text_unplaced D,
      a.text_unplaced D, b.text_unplaced D]
  | .while c b | .doWhile b c => by
    simp only [StmtNode.unplaced, StmtNode.text, c.text_unplaced D, b.text_unplaced D]
  | .for start condition update body => by
    simp only [StmtNode.unplaced, StmtNode.text, start.text_unplaced D, condition.text_unplaced D,
      update.text_unplaced D, body.text_unplaced D]
  | .switch subject cases => by
    simp only [StmtNode.unplaced, StmtNode.text, subject.text_unplaced D,
      SwitchCase.lines_allUnplaced D cases]
  | .try block catchParam handler finalizer => by
    simp only [StmtNode.unplaced, StmtNode.text, Stmt.isMissing_unplaced,
      Binding.isMissing_unplaced,
      block.text_unplaced D, catchParam.text_unplaced D, handler.text_unplaced D,
      finalizer.text_unplaced D]
  | .var _ declarations => by
    simp only [StmtNode.unplaced, StmtNode.text, Declarator.texts_allUnplaced D declarations]
  | .function f => by simp only [StmtNode.unplaced, StmtNode.text, f.text_unplaced D]
  | .classDecl c => by simp only [StmtNode.unplaced, StmtNode.text, c.text_unplaced D]
termination_by structural s => s

theorem SwitchCase.lines_allUnplaced (D : Decls) :
    ∀ cs : List SwitchCase, SwitchCase.lines D (SwitchCase.allUnplaced cs) = SwitchCase.lines D cs
  | [] => rfl
  | c :: cs => by
    simp only [SwitchCase.allUnplaced, SwitchCase.lines, c.text_unplaced D,
      SwitchCase.lines_allUnplaced D cs]
termination_by structural cs => cs

theorem SwitchCase.text_unplaced (D : Decls) : ∀ c : SwitchCase, c.unplaced.text D = c.text D
  | ⟨condition, body⟩ => by
    simp only [SwitchCase.unplaced, SwitchCase.text, Expr.isMissing_unplaced,
      condition.text_unplaced D, Stmt.tabbed_allUnplaced D body]
termination_by structural c => c

theorem Declarator.text_unplaced (D : Decls) : ∀ d : Declarator, d.unplaced.text D = d.text D
  | ⟨target, _, value⟩ => by
    simp only [Declarator.unplaced, Declarator.text, Expr.isMissing_unplaced,
      target.text_unplaced D, value.text_unplaced D]
termination_by structural d => d

theorem Declarator.texts_allUnplaced (D : Decls) :
    ∀ ds : List Declarator, Declarator.texts D (Declarator.allUnplaced ds) = Declarator.texts D ds
  | [] => rfl
  | d :: ds => by
    simp only [Declarator.allUnplaced, Declarator.texts, d.text_unplaced D,
      Declarator.texts_allUnplaced D ds]
termination_by structural ds => ds

end

/-! ## Returns -/

/-- The returns with the expressions without positions. -/
def Returns.unplaced (r : Returns) : Returns := ⟨Expr.allUnplaced r.values, r.exits⟩

theorem Expr.allUnplaced_append (es es' : List Expr) :
    Expr.allUnplaced (es ++ es') = Expr.allUnplaced es ++ Expr.allUnplaced es' := by
  induction es with
  | nil => rfl
  | cons e es ih => exact congrArg (e.unplaced :: ·) ih

mutual

/-- A statement without positions returns the same expressions without positions. -/
theorem Stmt.returns_unplaced : ∀ s : Stmt, s.unplaced.returns = s.returns.unplaced
  | ⟨_, node⟩ => node.returns_unplaced
termination_by structural s => s

theorem StmtNode.returns_unplaced : ∀ s : StmtNode, s.unplaced.returns = s.returns.unplaced
  | .missing | .empty | .value _ | .expr _ | .return _ | .throw _ | .break _
  | .continue _ | .var _ _
  | .function _ | .classDecl _ => rfl
  | .block body => Stmt.returnsOf_allUnplaced body
  | .ifElse _ a b => by
    simp only [StmtNode.unplaced, StmtNode.returns, a.returns_unplaced, b.returns_unplaced,
      Returns.unplaced, Expr.allUnplaced_append]
  | .while _ b | .doWhile b _ | .for _ _ _ b => by
    simp only [StmtNode.unplaced, StmtNode.returns, b.returns_unplaced, Returns.unplaced]
  | .switch _ cases => by
    simp only [StmtNode.unplaced, StmtNode.returns, SwitchCase.returnsOf_allUnplaced cases,
      Returns.unplaced]
  | .try block _ handler finalizer => by
    simp only [StmtNode.unplaced, StmtNode.returns, block.returns_unplaced,
      handler.returns_unplaced,
      finalizer.returns_unplaced, Returns.unplaced, Expr.allUnplaced_append,
      Stmt.isMissing_unplaced]
termination_by structural s => s

theorem Stmt.returnsOf_allUnplaced :
    ∀ ss : List Stmt, Stmt.returnsOf (Stmt.allUnplaced ss) = (Stmt.returnsOf ss).unplaced
  | [] => rfl
  | s :: ss => by
    simp only [Stmt.allUnplaced, Stmt.returnsOf, s.returns_unplaced, Stmt.returnsOf_allUnplaced ss]
    cases hexits : s.returns.exits <;>
      simp [Returns.unplaced, hexits, Expr.allUnplaced_append]
termination_by structural ss => ss

theorem SwitchCase.returnsOf_allUnplaced :
    ∀ cs : List SwitchCase,
      SwitchCase.returnsOf (SwitchCase.allUnplaced cs) = Expr.allUnplaced (SwitchCase.returnsOf cs)
  | [] => rfl
  | c :: cs => by
    simp only [SwitchCase.allUnplaced, SwitchCase.returnsOf, c.returns_unplaced,
      SwitchCase.returnsOf_allUnplaced cs, Expr.allUnplaced_append]
termination_by structural cs => cs

theorem SwitchCase.returns_unplaced :
    ∀ c : SwitchCase, c.unplaced.returns = Expr.allUnplaced c.returns
  | ⟨_, body⟩ => by
    simp only [SwitchCase.unplaced, SwitchCase.returns, Stmt.returnsOf_allUnplaced body,
      Returns.unplaced]
termination_by structural c => c

end

/-! ## Diagnostics -/

/-- What a tree of diagnostics says: the kind and the message of each node. -/
inductive Wording where
  | node (kind : Option String) (message : String) (causes : List Wording)

namespace Diagnostic

mutual

/-- What a diagnostic says. -/
def wording (D : Decls) : Diagnostic → Wording
  | .assignFailed s l r cs =>
    .node (kind? (.assignFailed s l r cs)) (message D (.assignFailed s l r cs)) (wordings D cs)
  | .unionFailed s cs =>
    .node (kind? (.unionFailed s cs)) (message D (.unionFailed s cs)) (wordings D cs)
  | .intersectionFailed s c =>
    .node (kind? (.intersectionFailed s c)) (message D (.intersectionFailed s c)) [wording D c]
  | .noted s k m cs => .node (kind? (.noted s k m cs)) (message D (.noted s k m cs)) (wordings D cs)
  | .plain t cs => .node (kind? (.plain t cs)) (message D (.plain t cs)) (wordings D cs)
  | d => .node d.kind? (d.message D) []
termination_by structural d => d

/-- What diagnostics say. -/
def wordings (D : Decls) : List Diagnostic → List Wording
  | [] => []
  | d :: ds => wording D d :: wordings D ds
termination_by structural ds => ds

end

theorem wordings_eq_map (D : Decls) (ds : List Diagnostic) :
    wordings D ds = ds.map (wording D) := by
  induction ds with
  | nil => rfl
  | cons d ds ih => rw [wordings, ih, List.map_cons]

/-- The kind and the message of the root, and what its causes say. -/
theorem wording_eq (D : Decls) (d : Diagnostic) :
    d.wording D = .node d.kind? (d.message D) (d.causes.map (wording D)) := by
  cases d <;> simp only [wording, causes, wordings_eq_map, List.map_nil, List.map_cons]

mutual

/-- The diagnostic without positions. -/
def unplaced : Diagnostic → Diagnostic
  | .undefinedSymbol _ name => .undefinedSymbol Span.none name
  | .noCallSignature _ callee => .noCallSignature Span.none callee
  | .noNewSignature _ callee => .noNewSignature Span.none callee
  | .wrongTypeParams _ expected actual => .wrongTypeParams Span.none expected actual
  | .wrongParams _ expected actual => .wrongParams Span.none expected actual
  | .assignFailed _ l r cs => .assignFailed Span.none l r (allUnplaced cs)
  | .unionFailed _ cs => .unionFailed Span.none (allUnplaced cs)
  | .intersectionFailed _ c => .intersectionFailed Span.none (unplaced c)
  | .missingFields _ fields => .missingFields Span.none fields
  | .cannotAssignToThis _ => .cannotAssignToThis Span.none
  | .unsupported _ shape => .unsupported Span.none shape
  | .noted _ kind msg cs => .noted Span.none kind msg (allUnplaced cs)
  | .plain t cs => .plain t (allUnplaced cs)
termination_by structural d => d

/-- Diagnostics without positions. -/
def allUnplaced : List Diagnostic → List Diagnostic
  | [] => []
  | d :: ds => unplaced d :: allUnplaced ds
termination_by structural ds => ds

end

@[simp] theorem length_allUnplaced (ds : List Diagnostic) :
    (allUnplaced ds).length = ds.length := by
  induction ds with
  | nil => rfl
  | cons d ds ih => exact congrArg (· + 1) ih

@[simp] theorem kind?_unplaced (d : Diagnostic) : d.unplaced.kind? = d.kind? := by cases d <;> rfl

@[simp] theorem message_unplaced (D : Decls) (d : Diagnostic) :
    d.unplaced.message D = d.message D := by
  cases d with
  | unionFailed s cs =>
    exact congrArg (fun n : Nat => toString n ++ " union branch(es) failed") (length_allUnplaced cs)
  | _ => rfl

@[simp] theorem causes_unplaced (d : Diagnostic) : d.unplaced.causes = allUnplaced d.causes := by
  cases d <;> rfl

/-- The root says the same, so the diagnostic does where the causes do. -/
theorem wording_unplaced_of_causes {D : Decls} {d : Diagnostic}
    (h : wordings D (allUnplaced d.causes) = wordings D d.causes) :
    d.unplaced.wording D = d.wording D := by
  rw [wordings_eq_map, wordings_eq_map] at h
  rw [wording_eq, wording_eq, kind?_unplaced, message_unplaced, causes_unplaced, h]

mutual

/-- A diagnostic says the same with and without positions. -/
theorem wording_unplaced (D : Decls) : ∀ d : Diagnostic, d.unplaced.wording D = d.wording D
  | .assignFailed _ _ _ cs | .unionFailed _ cs | .noted _ _ _ cs | .plain _ cs =>
    wording_unplaced_of_causes (wordings_allUnplaced D cs)
  | .intersectionFailed _ c => wording_unplaced_of_causes (congrArg ([·]) (wording_unplaced D c))
  | .undefinedSymbol _ _ | .noCallSignature _ _ | .noNewSignature _ _ | .wrongTypeParams _ _ _
  | .wrongParams _ _ _ | .missingFields _ _ | .cannotAssignToThis _ | .unsupported _ _ =>
    wording_unplaced_of_causes rfl
termination_by structural d => d

theorem wordings_allUnplaced (D : Decls) :
    ∀ ds : List Diagnostic, wordings D (allUnplaced ds) = wordings D ds
  | [] => rfl
  | d :: ds => by simp only [allUnplaced, wordings, wording_unplaced D d, wordings_allUnplaced D ds]
termination_by structural ds => ds

end

end Diagnostic

end StructuralTyping
