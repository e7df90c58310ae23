import Mathlib.Data.List.Infix
import StructuralTyping.Checker.Returns

/-!
# Returns and control flow

A statement completes normally, or it completes abruptly with a return, a thrown
value, a break or a continue.  `StmtNode.Completes` says how it can complete.  A
condition may go either way, and an expression that is evaluated may throw.

Three things carry the content.  A loop is left by a break and goes on after a
continue, and so neither comes out of it.  A switch runs the statements of its
clauses one after the other from any clause on, and is left by a break.  A
finalizer that completes abruptly takes the place of what stands before it.

The main statement, `returnsOf_covers`, is that the collected returns cover every
run: a value that is returned is among them, and where they say that the end is
never reached, no run completes normally.
-/

namespace StructuralTyping

/-! ## Completions -/

/-- How a run of a statement ends. -/
inductive Completion where
  | normal
  | return (value : Expr)
  | throw
  | break
  | continue

namespace Completion

/-- A loop goes on after its body has completed so. -/
def goesOn : Completion → Bool
  | .normal | .continue => true
  | _ => false

/-- What comes out of the loop or the switch that a break belongs to. -/
def consumeBreak : Completion → Completion
  | .break => .normal
  | c => c

end Completion

/-- The form evaluates an expression before anything else it does. -/
def StmtNode.evaluates : StmtNode → Bool
  | .value _ | .expr _ | .throw _ | .ifElse _ _ _ | .switch _ _ => true
  | .return e => !e.isMissing
  | .var _ ds => ds.any fun d => !d.value.isMissing
  | _ => false

mutual

/-- A form of statement can complete so. -/
inductive StmtNode.Completes : StmtNode → Completion → Prop where
  | missing : StmtNode.Completes .missing .normal
  | empty : StmtNode.Completes .empty .normal
  | value {e : Expr} : StmtNode.Completes (.value e) .normal
  | expr {e : Expr} : StmtNode.Completes (.expr e) .normal
  | var {kind : String} {ds : List Declarator} : StmtNode.Completes (.var kind ds) .normal
  | function {f : Func} : StmtNode.Completes (.function f) .normal
  | classDecl {d : ClassDef} : StmtNode.Completes (.classDecl d) .normal
  | evaluation {n : StmtNode} (h : n.evaluates = true) : StmtNode.Completes n .throw
  | return {e : Expr} : StmtNode.Completes (.return e) (.return e)
  | throw {e : Expr} : StmtNode.Completes (.throw e) .throw
  | break {label : Option String} : StmtNode.Completes (.break label) .break
  | continue {label : Option String} : StmtNode.Completes (.continue label) .continue
  | block {body : List Stmt} {c : Completion} (h : Stmt.CompletesAll body c) :
      StmtNode.Completes (.block body) c
  | consequence {e : Expr} {a b : Stmt} {c : Completion} (h : a.node.Completes c) :
      StmtNode.Completes (.ifElse e a b) c
  | alternative {e : Expr} {a b : Stmt} {c : Completion} (h : b.node.Completes c) :
      StmtNode.Completes (.ifElse e a b) c
  | while {e : Expr} {body : Stmt} {c : Completion} (h : body.Loops c) :
      StmtNode.Completes (.while e body) c
  | doWhile {e : Expr} {body : Stmt} {c : Completion} (h : body.Iterates c) :
      StmtNode.Completes (.doWhile body e) c
  | for {start body : Stmt} {e update : Expr} {c : Completion} (h : body.Loops c) :
      StmtNode.Completes (.for start e update body) c
  | switch {e : Expr} {cases entered : List SwitchCase} {c : Completion}
      (hentered : entered <:+ cases) (h : Stmt.CompletesAll (entered.flatMap (·.body)) c) :
      StmtNode.Completes (.switch e cases) c.consumeBreak
  | try {block handler finalizer : Stmt} {param : Binding} {c : Completion}
      (h : block.GuardedBy param handler c) (hfinal : finalizer.node.Completes .normal) :
      StmtNode.Completes (.try block param handler finalizer) c
  | override {block handler finalizer : Stmt} {param : Binding} {c d : Completion}
      (h : block.GuardedBy param handler c) (hfinal : finalizer.node.Completes d)
      (habrupt : d ≠ .normal) : StmtNode.Completes (.try block param handler finalizer) d

/-- Statements in a row can complete so.  The first one that completes abruptly is
the last one that is run. -/
inductive Stmt.CompletesAll : List Stmt → Completion → Prop where
  | nil : Stmt.CompletesAll [] .normal
  | next {s : Stmt} {ss : List Stmt} {c : Completion} (h : s.node.Completes .normal)
      (hrest : Stmt.CompletesAll ss c) : Stmt.CompletesAll (s :: ss) c
  | stop {s : Stmt} {ss : List Stmt} {c : Completion} (h : s.node.Completes c)
      (habrupt : c ≠ .normal) : Stmt.CompletesAll (s :: ss) c

/-- A loop that comes to the head of its body can complete so.  What stands in the
head may throw. -/
inductive Stmt.Loops : Stmt → Completion → Prop where
  | leave {body : Stmt} : Stmt.Loops body .normal
  | throw {body : Stmt} : Stmt.Loops body .throw
  | enter {body : Stmt} {c : Completion} (h : body.Iterates c) : Stmt.Loops body c

/-- A loop that comes to its body can complete so. -/
inductive Stmt.Iterates : Stmt → Completion → Prop where
  | next {body : Stmt} {c d : Completion} (h : body.node.Completes c) (hnext : c.goesOn = true)
      (hrest : body.Loops d) : Stmt.Iterates body d
  | stop {body : Stmt} {c : Completion} (h : body.node.Completes c) (hstop : c.goesOn = false) :
      Stmt.Iterates body c.consumeBreak

/-- A block with a handler can complete so.  Binding what was thrown may throw. -/
inductive Stmt.GuardedBy : Stmt → Binding → Stmt → Completion → Prop where
  | pass {block handler : Stmt} {param : Binding} {c : Completion} (h : block.node.Completes c)
      (hthrow : c ≠ .throw) : Stmt.GuardedBy block param handler c
  | uncaught {block handler : Stmt} {param : Binding} (h : block.node.Completes .throw)
      (hnone : handler.isMissing = true) : Stmt.GuardedBy block param handler .throw
  | caught {block handler : Stmt} {param : Binding} {c : Completion}
      (h : block.node.Completes .throw)
      (hsome : handler.isMissing = false) (hcaught : handler.node.Completes c) :
      Stmt.GuardedBy block param handler c
  | binding {block handler : Stmt} {param : Binding} (h : block.node.Completes .throw)
      (hsome : handler.isMissing = false) (hparam : param.isMissing = false) :
      Stmt.GuardedBy block param handler .throw

end

/-! ## Coverage -/

/-- The returns allow for a completion: a value that is returned is among them, and
a normal completion comes to an end that they do not exclude. -/
def Returns.Covers (r : Returns) : Completion → Prop
  | .normal => r.exits = false
  | .return e => e ∈ r.values
  | _ => True

namespace Returns.Covers

variable {r s : Returns} {c : Completion}

theorem mono (h : r.Covers c) (hvalues : r.values ⊆ s.values)
    (hexits : s.exits = true → r.exits = true) : s.Covers c := by
  cases c with
  | normal =>
    rw [Covers, ← Bool.not_eq_true] at *
    exact fun hs => h (hexits hs)
  | «return» e => exact hvalues h
  | _ => trivial

/-- Where a completion is abrupt, only the values count. -/
theorem of_abrupt (h : r.Covers c) (habrupt : c ≠ .normal) (hvalues : r.values ⊆ s.values) :
    s.Covers c := by
  cases c with
  | normal => exact absurd rfl habrupt
  | «return» e => exact hvalues h
  | _ => trivial

/-- Returns that are passed anyway cover a break that is consumed. -/
theorem consumeBreak (h : r.Covers c) (hvalues : r.values ⊆ s.values) (hpassed : s.exits = false) :
    s.Covers c.consumeBreak := by
  cases c with
  | normal | «break» => exact hpassed
  | «return» e => exact hvalues h
  | throw | «continue» => trivial

end Returns.Covers

theorem Stmt.covers_of_node {s : Stmt} {c : Completion} (h : s.node.returns.Covers c) :
    s.returns.Covers c := by
  cases s
  exact h

/-- Statements in a row return what their parts return. -/
theorem Stmt.values_returnsOf_append (ss ts : List Stmt) :
    (Stmt.returnsOf (ss ++ ts)).values ⊆ (Stmt.returnsOf ss).values ++
      (Stmt.returnsOf ts).values := by
  induction ss with
  | nil => simp [Stmt.returnsOf]
  | cons s ss ih =>
    simp only [List.cons_append, Stmt.returnsOf]
    split
    · exact List.subset_append_left _ _
    · rw [List.append_assoc]
      exact List.append_subset.2
        ⟨List.subset_append_left _ _, fun e he => List.mem_append_right _ (ih he)⟩

theorem SwitchCase.values_returnsOf (cs : List SwitchCase) :
    (Stmt.returnsOf (cs.flatMap (·.body))).values ⊆ SwitchCase.returnsOf cs := by
  induction cs with
  | nil => simp [Stmt.returnsOf, SwitchCase.returnsOf]
  | cons c cs ih =>
    obtain ⟨condition, body⟩ := c
    rw [List.flatMap_cons, SwitchCase.returnsOf, SwitchCase.returns]
    intro e he
    rcases List.mem_append.1 (Stmt.values_returnsOf_append _ _ he) with he | he
    · exact List.mem_append_left _ he
    · exact List.mem_append_right _ (ih he)

/-- Later clauses return no more than all clauses. -/
theorem SwitchCase.returnsOf_subset_of_suffix {cs ds : List SwitchCase} (h : cs <:+ ds) :
    SwitchCase.returnsOf cs ⊆ SwitchCase.returnsOf ds := by
  obtain ⟨es, rfl⟩ := h
  induction es with
  | nil => exact fun _ he => he
  | cons e es ih =>
    rw [List.cons_append, SwitchCase.returnsOf]
    exact fun _ he => List.mem_append_right _ (ih he)

/-! ## Runs -/

mutual

theorem StmtNode.Completes.covers :
    ∀ {n : StmtNode} {c : Completion}, n.Completes c → n.returns.Covers c
  | _, _, .missing | _, _, .empty | _, _, .value | _, _, .expr | _, _, .var | _, _, .function
  | _, _, .classDecl => rfl
  | _, _, .evaluation _ | _, _, .throw | _, _, .break | _, _, .continue => trivial
  | _, _, .return => List.mem_singleton.2 rfl
  | _, _, .block h => h.covers
  | _, _, .consequence h => by
      have hcovers := Stmt.covers_of_node h.covers
      exact hcovers.mono (List.subset_append_left _ _) fun hexits =>
        (Bool.and_eq_true_iff.1 hexits).1
  | _, _, .alternative h => by
      have hcovers := Stmt.covers_of_node h.covers
      exact hcovers.mono (List.subset_append_right _ _) fun hexits =>
        (Bool.and_eq_true_iff.1 hexits).2
  | _, _, .while h | _, _, .for h => h.covers
  | _, _, .doWhile h => h.covers
  | _, _, .switch hentered h =>
      -- The clauses that are not entered only add values.
      have hvalues := fun _ he =>
        SwitchCase.returnsOf_subset_of_suffix hentered (SwitchCase.values_returnsOf _ he)
      h.covers.consumeBreak hvalues rfl
  | .try _ _ _ finalizer, _, .try h hfinal => by
      have hpassed : finalizer.returns.exits = false := Stmt.covers_of_node hfinal.covers
      refine h.covers.mono (List.subset_append_left _ _) fun hexits => ?_
      simpa [StmtNode.returns, hpassed] using hexits
  | _, _, .override _ hfinal habrupt => by
      have hcovers := Stmt.covers_of_node hfinal.covers
      exact hcovers.of_abrupt habrupt (List.subset_append_right _ _)

theorem Stmt.CompletesAll.covers : ∀ {ss : List Stmt} {c : Completion}, Stmt.CompletesAll ss c →
    (Stmt.returnsOf ss).Covers c
  | _, _, .nil => rfl
  | s :: _, _, .next h hrest => by
      have hpassed : s.returns.exits = false := Stmt.covers_of_node h.covers
      rw [Stmt.returnsOf, hpassed]
      exact hrest.covers.mono (List.subset_append_right _ _) id
  | _, _, .stop h habrupt => by
      have hcovers := Stmt.covers_of_node h.covers
      rw [Stmt.returnsOf]
      split
      · exact hcovers
      · exact hcovers.of_abrupt habrupt (List.subset_append_left _ _)

theorem Stmt.Loops.covers : ∀ {body : Stmt} {c : Completion}, body.Loops c →
    Returns.Covers ⟨body.returns.values, false⟩ c
  | _, _, .leave => rfl
  | _, _, .throw => trivial
  | _, _, .enter h => h.covers

theorem Stmt.Iterates.covers : ∀ {body : Stmt} {c : Completion}, body.Iterates c →
    Returns.Covers ⟨body.returns.values, false⟩ c
  | _, _, .next _ _ hrest => hrest.covers
  | _, _, .stop h _ => by
      have hcovers := Stmt.covers_of_node h.covers
      exact hcovers.consumeBreak (List.Subset.refl _) rfl

theorem Stmt.GuardedBy.covers : ∀ {block handler : Stmt} {param : Binding} {c : Completion},
    block.GuardedBy param handler c →
    Returns.Covers ⟨block.returns.values ++ handler.returns.values,
      block.returns.exits && (handler.isMissing || handler.returns.exits)⟩ c
  | _, _, _, _, .pass h _ => by
      have hcovers := Stmt.covers_of_node h.covers
      exact hcovers.mono (List.subset_append_left _ _) fun hexits =>
        (Bool.and_eq_true_iff.1 hexits).1
  | _, _, _, _, .uncaught _ _ | _, _, _, _, .binding _ _ _ => trivial
  | _, _, _, _, .caught _ hsome hcaught => by
      have hcovers := Stmt.covers_of_node hcaught.covers
      refine hcovers.mono (List.subset_append_right _ _) fun hexits => ?_
      simpa [hsome] using (Bool.and_eq_true_iff.1 hexits).2

end

/-- The collected returns cover every run of the statements.  A value with which a run
returns is among them, and where they say that the end is never reached, no run
completes normally. -/
theorem Stmt.returnsOf_covers (body : List Stmt) :
    (∀ e, Stmt.CompletesAll body (.return e) → e ∈ (Stmt.returnsOf body).values) ∧
      ((Stmt.returnsOf body).exits = true → ¬ Stmt.CompletesAll body .normal) := by
  refine ⟨fun e h => h.covers, fun hexits h => ?_⟩
  have hpassed : (Stmt.returnsOf body).exits = false := h.covers
  rw [hexits] at hpassed
  cases hpassed

/-- A loop is stopped, what follows it throws, and the handler falls through its first
clause to a return.  That return is collected, and the end is never reached. -/
theorem Stmt.returnsOf_covers_handler :
    let test : Expr := ⟨{}, .ident "more"⟩
    let lost : Expr := ⟨{}, .string "lost"⟩
    let round : Stmt := ⟨{}, .ifElse test ⟨{}, .break none⟩ ⟨{}, .return test⟩⟩
    let loop : Stmt := ⟨{}, .for ⟨{}, .missing⟩ test .missing round⟩
    let clauses : List SwitchCase :=
      [⟨test, [⟨{}, .empty⟩]⟩, ⟨.missing, [⟨{}, .return lost⟩, ⟨{}, .break none⟩]⟩]
    let handler : List Stmt := [⟨{}, .switch test clauses⟩, ⟨{}, .return test⟩]
    let body : List Stmt :=
      [⟨{}, .try ⟨{}, .block [loop, ⟨{}, .throw test⟩]⟩ ⟨{}, .ident "reason"⟩ ⟨{}, .block handler⟩
        ⟨{}, .missing⟩⟩]
    Stmt.CompletesAll body (.return lost) ∧ lost ∈ (Stmt.returnsOf body).values ∧
      (Stmt.returnsOf body).exits = true ∧ ¬ Stmt.CompletesAll body .normal := by
  intro test lost round loop clauses handler body
  have hstopped : round.Iterates .normal :=
    Stmt.Iterates.stop (c := .break) (.consequence .break) rfl
  have hblock : Stmt.CompletesAll [loop, ⟨{}, .throw test⟩] .throw :=
    .next (.for (.enter hstopped)) (.stop .throw (by simp))
  have hfallen : Stmt.CompletesAll (clauses.flatMap (·.body)) (.return lost) :=
    .next .empty (.stop .return (by simp))
  have hhandler : Stmt.CompletesAll handler (.return lost) :=
    .stop (StmtNode.Completes.switch List.suffix_rfl hfallen) (by simp)
  have hrun : Stmt.CompletesAll body (.return lost) :=
    .stop (.try (.caught (.block hblock) rfl (.block hhandler)) .missing) (by simp)
  obtain ⟨hvalues, hend⟩ := Stmt.returnsOf_covers body
  exact ⟨hrun, hvalues lost hrun, rfl, hend rfl⟩

end StructuralTyping
