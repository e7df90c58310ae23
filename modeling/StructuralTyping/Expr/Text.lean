import StructuralTyping.Expr.Basic
import StructuralTyping.Ty.Text

/-!
# The text of expressions and statements

A tree is shown close to its source.  Operators are shown with brackets around
them, and the statements of a block are indented by a tab.
-/

namespace StructuralTyping

/-- Braces around a text. -/
def curly (s : String) : String := "\x7b" ++ s ++ "\x7d"

/-- Brackets around a key that is computed. -/
def keyText (computed : Bool) (s : String) : String := if computed then "[" ++ s ++ "]" else s

/-- A type after a colon, unless it is missing. -/
def annotationText (D : Decls) (t : Ty) : String := if t.isMissing then "" else ": " ++ D.text t

/-- Type arguments in angle brackets, unless there are none. -/
def typeArgsText (D : Decls) (ts : List Ty) : String :=
  if ts.isEmpty then "" else "<" ++ joinText ", " (ts.map D.text) ++ ">"

/-- Each line of a text after a tab. -/
def indentLines (s : String) : String :=
  String.join ((pieces '\n' s).map fun line => "\t" ++ line ++ "\n")

/-- A word with a label after it, closed by a semicolon. -/
def jumpText (word : String) : Option String → String
  | some label => word ++ " " ++ label ++ ";"
  | none => word ++ ";"

/-- The chunks of a template with its parts between them. -/
def templateText : List String → List String → String
  | [], _ => ""
  | chunk :: chunks, part :: parts => chunk ++ "$" ++ curly part ++ templateText chunks parts
  | chunk :: chunks, [] => chunk ++ templateText chunks []

/-- A name after a blank, unless there is none. -/
def nameAfterBlank : Option String → String
  | some name => " " ++ name
  | none => ""

mutual

/-- The text of an expression. -/
def Expr.text (D : Decls) : Expr → String
  | ⟨_, node⟩ => node.text D
termination_by structural e => e

/-- The text of a form of expression. -/
def ExprNode.text (D : Decls) : ExprNode → String
  | .missing => ""
  | .ident name => name
  | .bool b => boolText b
  | .number x => x.text
  | .string s => quote s
  | .null => "null"
  | .regex pattern flags => "/" ++ pattern ++ "/" ++ flags
  | .template chunks parts => "\x60" ++ templateText chunks (Expr.texts D parts) ++ "\x60"
  | .this => "this"
  | .super => "super"
  | .array es => "[" ++ joinText ", " (Expr.texts D es) ++ "]"
  | .spread e => "..." ++ e.text D
  | .object entries => curly (joinText ", " (ObjectEntry.texts D entries))
  | .paren e => parenthesized (e.text D)
  | .unary operator e =>
    parenthesized (operator ++ (if operator == "delete" then " " else "") ++ e.text D)
  | .typeOf e => "typeof " ++ e.text D
  | .void e => "void " ++ e.text D
  | .update operator e isBefore => if isBefore then operator ++ e.text D else e.text D ++ operator
  | .binary l operator r => parenthesized (l.text D ++ " " ++ operator ++ " " ++ r.text D)
  | .ternary c a b => parenthesized (c.text D ++ " ? " ++ a.text D ++ " : " ++ b.text D)
  | .assign operator l r => parenthesized (l.text D ++ " " ++ operator ++ " " ++ r.text D)
  | .sequence es => parenthesized (joinText ", " (Expr.texts D es))
  | .call f ts args =>
    f.text D ++ typeArgsText D ts ++ parenthesized (joinText ", " (Expr.texts D args))
  | .construct f ts args =>
    "new " ++ f.text D ++ typeArgsText D ts ++ parenthesized (joinText ", " (Expr.texts D args))
  | .member o p => o.text D ++ "." ++ p
  | .index o i => o.text D ++ "[" ++ i.text D ++ "]"
  | .assertion e t => "<" ++ D.text t ++ ">" ++ e.text D
  | .cast e t => parenthesized (e.text D ++ " as " ++ D.text t)
  | .nonNull e => e.text D ++ "!"
  | .await e => "await " ++ e.text D
  | .yield e isDelegate =>
    (if isDelegate then "yield*" else "yield") ++ (if e.isMissing then "" else " " ++ e.text D)
  | .metaProperty o p => o ++ "." ++ p
  | .function f => f.text D
  | .arrow params result body _ =>
    parenthesized (joinText ", " (Parameter.texts D params)) ++ annotationText D result ++ " => "
      ++ body.text D
  | .classExpr c => c.text D
termination_by structural e => e

/-- The texts of expressions. -/
def Expr.texts (D : Decls) : List Expr → List String
  | [] => []
  | e :: es => e.text D :: Expr.texts D es
termination_by structural es => es

/-- The text of an entry of an object literal. -/
def ObjectEntry.text (D : Decls) : ObjectEntry → String
  | ⟨key, value, computed, shorthand⟩ =>
    if key.isMissing then value.text D
    else if shorthand then key.text D
    else keyText computed (key.text D) ++ ": " ++ value.text D
termination_by structural e => e

/-- The texts of entries. -/
def ObjectEntry.texts (D : Decls) : List ObjectEntry → List String
  | [] => []
  | e :: es => e.text D :: ObjectEntry.texts D es
termination_by structural es => es

/-- The text of a binding target. -/
def Binding.text (D : Decls) : Binding → String
  | ⟨_, node⟩ => node.text D
termination_by structural b => b

/-- The text of a form of binding target. -/
def BindingNode.text (D : Decls) : BindingNode → String
  | .missing => ""
  | .ident name => name
  | .array es => "[" ++ joinText ", " (Binding.texts D es) ++ "]"
  | .object entries remaining =>
    let last := if remaining.isMissing then [] else ["..." ++ remaining.text D]
    braced ", " (BindingEntry.texts D entries ++ last)
  | .rest b => "..." ++ b.text D
  | .withDefault b e => b.text D ++ " = " ++ e.text D
termination_by structural b => b

/-- The texts of binding targets. -/
def Binding.texts (D : Decls) : List Binding → List String
  | [] => []
  | b :: bs => b.text D :: Binding.texts D bs
termination_by structural bs => bs

/-- The text of an entry of an object binding. -/
def BindingEntry.text (D : Decls) : BindingEntry → String
  | ⟨key, value, computed⟩ => keyText computed (key.text D) ++ ": " ++ value.text D
termination_by structural e => e

/-- The texts of entries. -/
def BindingEntry.texts (D : Decls) : List BindingEntry → List String
  | [] => []
  | e :: es => e.text D :: BindingEntry.texts D es
termination_by structural es => es

/-- The text of a parameter. -/
def Parameter.text (D : Decls) : Parameter → String
  | ⟨_, pattern, type, isOptional, accessibility, isReadonly⟩ =>
    (if accessibility.isEmpty then "" else accessibility ++ " ") ++
      (if isReadonly then "readonly " else "")
      ++ pattern.text D ++ (if isOptional then "?" else "") ++ annotationText D type
termination_by structural p => p

/-- The texts of parameters. -/
def Parameter.texts (D : Decls) : List Parameter → List String
  | [] => []
  | p :: ps => p.text D :: Parameter.texts D ps
termination_by structural ps => ps

/-- The text of a function literal. -/
def Func.text (D : Decls) : Func → String
  | ⟨_, name, _, params, result, body, isAsync, isGenerator⟩ =>
    (if isAsync then "async " else "") ++ "function" ++ (if isGenerator then "*" else "")
      ++ nameAfterBlank name ++ parenthesized (joinText ", " (Parameter.texts D params))
      ++ annotationText D result ++ (if body.isMissing then "" else " " ++ body.text D)
termination_by structural f => f

/-- The parameters and body of a function, as a method shows them. -/
def Func.methodText (D : Decls) : Func → String
  | ⟨_, _, _, params, _, body, _, _⟩ =>
    parenthesized (joinText ", " (Parameter.texts D params))
      ++ (if body.isMissing then "" else " " ++ body.text D)
termination_by structural f => f

/-- The text of a class. -/
def ClassDef.text (D : Decls) : ClassDef → String
  | ⟨_, name, base, members⟩ =>
    "class" ++ nameAfterBlank name ++ (if base.isMissing then "" else " extends " ++ base.text D)
      ++ " \x7b\n" ++ String.join (ClassMember.lines D members) ++ "\x7d"
termination_by structural c => c

/-- The text of a class member. -/
def ClassMember.text (D : Decls) : ClassMember → String
  | .property _ key computed type value isOptional isReadonly isStatic =>
    (if isStatic then "static " else "") ++ (if isReadonly then "readonly " else "")
      ++ keyText computed (key.text D) ++ (if isOptional then "?" else "") ++ annotationText D type
      ++ (if value.isMissing then "" else " = " ++ value.text D) ++ ";"
  | .method _ kind key computed function isStatic =>
    let word :=
      match kind with
      | .method => ""
      | .constructor => "constructor"
      | .getter => "get "
      | .setter => "set "
    (if isStatic then "static " else "") ++ word
      ++ (if key.isMissing then "" else keyText computed (key.text D)) ++ function.methodText D
  | .index _ signature => D.memberText signature ++ ";"
termination_by structural m => m

/-- The members of a class, each on a line of its own. -/
def ClassMember.lines (D : Decls) : List ClassMember → List String
  | [] => []
  | m :: ms => ("\t" ++ m.text D ++ "\n") :: ClassMember.lines D ms
termination_by structural ms => ms

/-- The statements of a block, indented.  Those left out are skipped. -/
def Stmt.indented (D : Decls) : List Stmt → String
  | [] => ""
  | s :: ss => (if s.isMissing then "" else indentLines (s.text D)) ++ Stmt.indented D ss
termination_by structural ss => ss

/-- The statements of a clause, each after a tab. -/
def Stmt.tabbed (D : Decls) : List Stmt → String
  | [] => ""
  | s :: ss => "\t" ++ s.text D ++ "\n" ++ Stmt.tabbed D ss
termination_by structural ss => ss

/-- The text of a statement. -/
def Stmt.text (D : Decls) : Stmt → String
  | ⟨_, node⟩ => node.text D
termination_by structural s => s

/-- The text of a form of statement. -/
def StmtNode.text (D : Decls) : StmtNode → String
  | .missing => ""
  | .empty => ";"
  | .value e => e.text D
  | .block body => curly ("\n" ++ Stmt.indented D body)
  | .expr e => e.text D ++ ";"
  | .return e => if e.isMissing then "return;" else "return " ++ e.text D ++ ";"
  | .throw e => "throw " ++ e.text D ++ ";"
  | .break label => jumpText "break" label
  | .continue label => jumpText "continue" label
  | .ifElse c a b =>
    "if (" ++ c.text D ++ ") " ++ a.text D ++ (if b.isMissing then "" else " else " ++ b.text D)
  | .while c b => "while (" ++ c.text D ++ ") " ++ b.text D
  | .doWhile b c => "do " ++ b.text D ++ " while (" ++ c.text D ++ ");"
  | .for start condition update body =>
    "for (" ++ dropEnding ";" (start.text D) ++ "; " ++ condition.text D ++ "; " ++
      update.text D ++ ") " ++ body.text D
  | .switch subject cases =>
    "switch (" ++ subject.text D ++ ") \x7b\n" ++ SwitchCase.lines D cases ++ "\x7d"
  | .try block catchParam handler finalizer =>
    let caught := if catchParam.isMissing then "" else parenthesized (catchParam.text D) ++ " "
    "try " ++ block.text D
      ++ (if handler.isMissing then "" else " catch " ++ caught ++ handler.text D)
      ++ (if finalizer.isMissing then "" else " finally " ++ finalizer.text D)
  | .var kind declarations => kind ++ " " ++ joinText ", " (Declarator.texts D declarations) ++ ";"
  | .function f => f.text D
  | .classDecl c => c.text D
termination_by structural s => s

/-- The clauses of a switch. -/
def SwitchCase.lines (D : Decls) : List SwitchCase → String
  | [] => ""
  | c :: cs => c.text D ++ SwitchCase.lines D cs
termination_by structural cs => cs

/-- The text of a clause. -/
def SwitchCase.text (D : Decls) : SwitchCase → String
  | ⟨condition, body⟩ =>
    (if condition.isMissing then "default:\n" else "case " ++ condition.text D ++ ":\n") ++
      Stmt.tabbed D body
termination_by structural c => c

/-- The text of a binding of a variable declaration. -/
def Declarator.text (D : Decls) : Declarator → String
  | ⟨target, type, value⟩ =>
    target.text D ++ annotationText D type ++
      (if value.isMissing then "" else " = " ++ value.text D)
termination_by structural d => d

/-- The texts of bindings. -/
def Declarator.texts (D : Decls) : List Declarator → List String
  | [] => []
  | d :: ds => d.text D :: Declarator.texts D ds
termination_by structural ds => ds

end

/-- The text of a program. -/
def Program.text (D : Decls) (p : Program) : String :=
  String.join (p.statements.map fun s => s.text D ++ "\n")

end StructuralTyping
