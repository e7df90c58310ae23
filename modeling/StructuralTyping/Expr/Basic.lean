import StructuralTyping.Source
import StructuralTyping.Ty.Basic

/-!
# Expressions and statements

The tree that inference works on.  Every node has the span of the source it was
read from, and type annotations are types already.  A part that may be left out
is a node of its own, `missing`.
-/

namespace StructuralTyping

/-- What a class method is. -/
inductive MethodKind where
  | method
  | constructor
  | getter
  | setter
  deriving DecidableEq, Repr

mutual

/-- An expression. -/
structure Expr where
  span : Span
  node : ExprNode

/-- The forms of expressions. -/
inductive ExprNode where
  | missing
  | ident (name : String)
  | bool (value : Bool)
  | number (value : Binary64)
  | string (value : String)
  | null
  | regex (pattern flags : String)
  | template (chunks : List String) (parts : List Expr)
  | this
  | super
  | array (elements : List Expr)
  | spread (argument : Expr)
  | object (entries : List ObjectEntry)
  | paren (inner : Expr)
  | unary (operator : String) (operand : Expr)
  | typeOf (operand : Expr)
  | void (operand : Expr)
  | update (operator : String) (argument : Expr) (isBefore : Bool)
  | binary (left : Expr) (operator : String) (right : Expr)
  | ternary (condition consequence alternative : Expr)
  | assign (operator : String) (target value : Expr)
  | sequence (parts : List Expr)
  | call (callee : Expr) (typeArgs : List Ty) (args : List Expr)
  | construct (callee : Expr) (typeArgs : List Ty) (args : List Expr)
  | member (object : Expr) (property : String)
  | index (object index : Expr)
  | assertion (inner : Expr) (type : Ty)
  | cast (inner : Expr) (type : Ty)
  | nonNull (inner : Expr)
  | await (argument : Expr)
  | yield (argument : Expr) (isDelegate : Bool)
  | metaProperty (object property : String)
  | function (function : Func)
  | arrow (params : List Parameter) (result : Ty) (body : Stmt) (isAsync : Bool)
  | classExpr (definition : ClassDef)

/-- An entry of an object literal.  The key of a spread entry is missing. -/
structure ObjectEntry where
  key : Expr
  value : Expr
  computed : Bool
  shorthand : Bool

/-- A binding target. -/
structure Binding where
  span : Span
  node : BindingNode

/-- The forms of binding targets. -/
inductive BindingNode where
  | missing
  | ident (name : String)
  | array (elements : List Binding)
  | object (entries : List BindingEntry) (remaining : Binding)
  | rest (argument : Binding)
  | withDefault (target : Binding) (value : Expr)

/-- An entry of an object binding. -/
structure BindingEntry where
  key : Expr
  value : Binding
  computed : Bool

/-- A parameter of a function.  A constructor parameter with an accessibility,
or one that is readonly, also declares a property. -/
structure Parameter where
  span : Span
  pattern : Binding
  type : Ty
  isOptional : Bool
  accessibility : String
  isReadonly : Bool

/-- A function literal. -/
structure Func where
  span : Span
  name : Option String
  typeParams : List TypeParam
  params : List Parameter
  result : Ty
  body : Stmt
  isAsync : Bool
  isGenerator : Bool

/-- A class. -/
structure ClassDef where
  span : Span
  name : Option String
  base : Expr
  members : List ClassMember

/-- An element of a class body. -/
inductive ClassMember where
  | property (span : Span) (key : Expr) (computed : Bool) (type : Ty) (value : Expr)
      (isOptional isReadonly isStatic : Bool)
  | method (span : Span) (kind : MethodKind) (key : Expr) (computed : Bool) (function : Func)
      (isStatic : Bool)
  | index (span : Span) (signature : Member)

/-- A statement. -/
structure Stmt where
  span : Span
  node : StmtNode

/-- The forms of statements.  `value` is an expression that stands as a body. -/
inductive StmtNode where
  | missing
  | empty
  | value (value : Expr)
  | block (body : List Stmt)
  | expr (value : Expr)
  | return (value : Expr)
  | throw (value : Expr)
  | break (label : Option String)
  | continue (label : Option String)
  | ifElse (condition : Expr) (consequence alternative : Stmt)
  | while (condition : Expr) (body : Stmt)
  | doWhile (body : Stmt) (condition : Expr)
  | for (start : Stmt) (condition update : Expr) (body : Stmt)
  | switch (subject : Expr) (cases : List SwitchCase)
  | try (block : Stmt) (catchParam : Binding) (handler finalizer : Stmt)
  | var (kind : String) (declarations : List Declarator)
  | function (function : Func)
  | classDecl (definition : ClassDef)

/-- A clause of a switch.  The condition of the default clause is missing. -/
structure SwitchCase where
  condition : Expr
  body : List Stmt

/-- A binding of a variable declaration. -/
structure Declarator where
  target : Binding
  type : Ty
  value : Expr

end

instance : Inhabited Expr := ⟨⟨{}, .missing⟩⟩
instance : Inhabited ExprNode := ⟨.missing⟩
instance : Inhabited Binding := ⟨⟨{}, .missing⟩⟩
instance : Inhabited Stmt := ⟨⟨{}, .missing⟩⟩
instance : Inhabited Func := ⟨⟨{}, none, [], [], .missing, ⟨{}, .missing⟩, false, false⟩⟩
instance : Inhabited ClassDef := ⟨⟨{}, none, ⟨{}, .missing⟩, []⟩⟩
instance : Inhabited Parameter := ⟨⟨{}, ⟨{}, .missing⟩, .missing, false, "", false⟩⟩
instance : Inhabited ClassMember := ⟨.index {} default⟩

/-- An expression that is left out. -/
def Expr.missing : Expr := ⟨{}, .missing⟩

/-- The expression is left out. -/
def Expr.isMissing (e : Expr) : Bool :=
  match e.node with
  | .missing => true
  | _ => false

/-- The expression is a spread. -/
def Expr.isSpread (e : Expr) : Bool :=
  match e.node with
  | .spread _ => true
  | _ => false

/-- The binding target is left out. -/
def Binding.isMissing (b : Binding) : Bool :=
  match b.node with
  | .missing => true
  | _ => false

/-- The statement is left out. -/
def Stmt.isMissing (s : Stmt) : Bool :=
  match s.node with
  | .missing => true
  | _ => false

/-- The parameter also declares a property. -/
def Parameter.isProperty (p : Parameter) : Bool := !p.accessibility.isEmpty || p.isReadonly

/-- The span of a class member. -/
def ClassMember.span : ClassMember → Span
  | .property s _ _ _ _ _ _ _ => s
  | .method s _ _ _ _ _ => s
  | .index s _ => s

/-- A program, the statements of a file. -/
structure Program where
  span : Span
  statements : List Stmt

end StructuralTyping
