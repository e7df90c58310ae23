import StructuralTyping.Expr.Basic

/-!
# Return statements

The return statements that a function body can reach, in source order, and
whether the body always ends before its last statement is done.  A statement
after a point that is never passed is not reached.  Functions and classes inside
the body have returns of their own.
-/

namespace StructuralTyping

/-- The returned expressions found, and whether the end is never reached. -/
structure Returns where
  values : List Expr := []
  exits : Bool := false

mutual

/-- The returns of a statement. -/
def Stmt.returns : Stmt → Returns
  | ⟨_, node⟩ => node.returns
termination_by structural s => s

/-- The returns of a form of statement.  A loop or a switch may be passed, an
alternative is passed unless both sides exit, and a finalizer that exits
overrides what stands before it. -/
def StmtNode.returns : StmtNode → Returns
  | .return e => ⟨[e], true⟩
  | .throw _ | .break _ | .continue _ => ⟨[], true⟩
  | .block body => Stmt.returnsOf body
  | .ifElse _ a b =>
    let x := a.returns
    let y := b.returns
    ⟨x.values ++ y.values, x.exits && y.exits⟩
  | .while _ b | .doWhile b _ | .for _ _ _ b => ⟨b.returns.values, false⟩
  | .switch _ cases => ⟨SwitchCase.returnsOf cases, false⟩
  | .try block _ handler finalizer =>
    let t := block.returns
    let h := handler.returns
    let f := finalizer.returns
    ⟨t.values ++ h.values ++ f.values, f.exits || (t.exits && (handler.isMissing || h.exits))⟩
  | _ => {}
termination_by structural s => s

/-- The returns of statements, up to one that is never passed. -/
def Stmt.returnsOf : List Stmt → Returns
  | [] => {}
  | s :: ss =>
    let x := s.returns
    if x.exits then x
    else
      let y := Stmt.returnsOf ss
      ⟨x.values ++ y.values, y.exits⟩
termination_by structural ss => ss

/-- The returns of the clauses of a switch. -/
def SwitchCase.returnsOf : List SwitchCase → List Expr
  | [] => []
  | c :: cs => c.returns ++ SwitchCase.returnsOf cs
termination_by structural cs => cs

/-- The returns of a clause. -/
def SwitchCase.returns : SwitchCase → List Expr
  | ⟨_, body⟩ => (Stmt.returnsOf body).values
termination_by structural c => c

end

end StructuralTyping
