import Mathlib.Tactic.SplitIfs
import StructuralTyping.Assigner
import StructuralTyping.Proofs.Identity

/-!
# The assigner keeps its state

`Keeps s m a` says that a step `m` which starts in a state `s` gives `a` and ends in `s`
again.  A rule whose questions keep the state keeps it too, and it gives what the rule
without a state gives for the same answers.

A question that is put into the state is taken out by its name.  Up to then the rules
have kept the state, so the question is still the latest one, and what is left are the
questions from before.  So a search keeps the state that it starts in, and its answer
is that of `Decls.assignWithin`, which is told the open questions
(`Decls.keeps_assignIn`).
-/

namespace StructuralTyping

/-! ## Steps that keep the state -/

/-- A step gives a value and ends in the state that it started in. -/
def Keeps (s : σ) (m : StateM σ α) (a : α) : Prop := m.run s = (a, s)

theorem Keeps.pure (s : σ) (a : α) : Keeps s (Pure.pure a) a := rfl

theorem Keeps.bind {s : σ} {m : StateM σ α} {f : α → StateM σ β} {a : α} {b : β} (hm : Keeps s m a)
    (hf : Keeps s (f a) b) : Keeps s (m >>= f) b := by
  have hrun : (m >>= f).run s = (f (m.run s).1).run (m.run s).2 := rfl
  rw [Keeps, hrun, hm]
  exact hf

/-- Changing the value at the end keeps the state. -/
theorem Keeps.map {s : σ} {m : StateM σ α} {a : α} (f : α → β) (hm : Keeps s m a) :
    Keeps s (do return f (← m)) (f a) := hm.bind (.pure s (f a))

/-- Reading the state keeps it. -/
theorem Keeps.get_bind {s : σ} {f : σ → StateM σ α} {a : α} (h : Keeps s (f s) a) :
    Keeps s (get >>= f) a := h

/-- A step between two changes keeps the state if the second change undoes the first. -/
theorem Keeps.bracket {s : σ} {enter leave : σ → σ} {m : StateM σ α} {a : α}
    (hleave : leave (enter s) = s) (hm : Keeps (enter s) m a) :
    Keeps s (do modify enter; let r ← m; modify leave; return r) a := by
  have hrun : (do modify enter; let r ← m; modify leave; return r : StateM σ α).run s =
      ((m.run (enter s)).1, leave (m.run (enter s)).2) := rfl
  rw [Keeps, hrun, hm, hleave]

/-! ## Lists of questions -/

namespace Assigner

section Lists

variable {s : List Pair} {ask : α → Assigner Verdict} {f : α → Verdict}
  (hask : ∀ x, Keeps s (ask x) (f x))
include hask

theorem keeps_firstFailure (xs : List α) :
    Keeps s (firstFailure ask xs) (StructuralTyping.firstFailure f xs) := by
  induction xs with
  | nil => exact .pure s _
  | cons x xs ih =>
    refine (hask x).bind ?_
    rw [StructuralTyping.firstFailure]
    cases f x with
    | ok => exact ih
    | error d => exact .pure s _

theorem keeps_allFailures (xs : List α) :
    Keeps s (allFailures ask xs) (StructuralTyping.allFailures f xs) := by
  induction xs with
  | nil => exact .pure s _
  | cons x xs ih =>
    refine (hask x).bind ?_
    rw [StructuralTyping.allFailures, List.filterMap_cons]
    cases f x with
    | ok => exact ih
    | error d => exact ih.map (d :: ·)

theorem keeps_firstSuccess (xs : List α) :
    Keeps s (firstSuccess ask xs) (StructuralTyping.firstSuccess f xs) := by
  induction xs with
  | nil => exact .pure s _
  | cons x xs ih =>
    refine (hask x).bind ?_
    rw [StructuralTyping.firstSuccess]
    cases f x with
    | ok => exact .pure s _
    | error d =>
      refine ih.bind ?_
      cases StructuralTyping.firstSuccess f xs <;> exact .pure s _

end Lists

/-! ## Members and shapes -/

section Rules

variable {D : Decls} {span : Span} {s : List Pair} {ask : Ty → Ty → Assigner Verdict}
  {f : Ty → Ty → Verdict} (hask : ∀ a b, Keeps s (ask a b) (f a b))
include hask

theorem keeps_assignMember (m : Member) (cs : List Member) :
    Keeps s (assignMember D ask m cs) (D.assignMember f m cs) := by
  induction cs with
  | nil => exact .pure s _
  | cons c cs ih =>
    rw [assignMember, Decls.assignMember]
    cases D.memberQuestion? m c with
    | none => exact ih
    | some q =>
      obtain ⟨t, u⟩ := q
      refine (hask t u).bind ?_
      dsimp only
      cases f t u <;> exact .pure s _

theorem keeps_providesMember (source : List Member) (m : Member) :
    Keeps s (providesMember D ask source m) (D.providesMember f source m) := by
  rw [providesMember, Decls.providesMember]
  cases m.key? with
  | none => exact .pure s _
  | some key => exact (keeps_assignMember hask m _).map _

theorem keeps_lackingMembers (source ms : List Member) :
    Keeps s (lackingMembers D ask source ms) (D.lackingMembers f source ms) := by
  induction ms with
  | nil => exact .pure s _
  | cons m ms ih =>
    refine (keeps_providesMember hask source m).bind ?_
    rw [Decls.lackingMembers]
    cases D.providesMember f source m with
    | error d => exact .pure s _
    | ok provided => exact ih.map _

theorem keeps_assignMembers (target source : List Member) :
    Keeps s (assignMembers D span ask target source) (D.assignMembers span f target source) := by
  refine (keeps_lackingMembers hask source target).bind ?_
  rw [Decls.assignMembers]
  cases D.lackingMembers f source target with
  | error d => exact .pure s _
  | ok lacking => cases lacking <;> exact .pure s _

theorem keeps_assignElements : ∀ ts ss : List Ty,
    Keeps s (assignElements D ask ts ss) (D.assignElements f ts ss)
  | [], _ => .pure s _
  | _ :: _, [] => .pure s _
  | t :: ts, u :: us => by
      refine (hask t u).bind ?_
      rw [Decls.assignElements]
      cases f t u with
      | ok => exact keeps_assignElements ts us
      | error d =>
        dsimp only
        split
        · exact keeps_assignElements ts us
        · exact .pure s _

theorem keeps_assignSignature (fail : Diagnostic) (target : Signature) (source : Option Signature) :
    Keeps s (assignSignature ask fail target source)
      (Decls.assignSignature f fail target source) := by
  cases source with
  | none => exact .pure s _
  | some r =>
    rw [assignSignature, Decls.assignSignature]
    split
    · exact hask _ _
    · exact .pure s _

theorem keeps_assignShape (target source : Ty) :
    Keeps s (assignShape D span ask target source) (D.assignShape span f target source) := by
  simp only [assignShape, Decls.assignShape]
  cases D.head target with
  | array t =>
    cases D.head source with
    | array u =>
      dsimp only
      refine (hask t u).bind ?_
      cases f t u <;> exact .pure s _
    | tuple us => exact keeps_firstFailure (hask t) us
    | _ => exact .pure s _
  | union bs =>
    dsimp only
    refine (keeps_firstSuccess (hask · source) bs).bind ?_
    cases StructuralTyping.firstSuccess (f · source) bs <;> exact .pure s _
  | inter bs =>
    dsimp only
    refine (keeps_firstFailure (hask · source) bs).bind ?_
    cases StructuralTyping.firstFailure (f · source) bs <;> exact .pure s _
  | function t | ctor t =>
    dsimp only
    split
    · exact keeps_assignSignature hask _ t _
    · exact .pure s _
  | tuple ts =>
    cases D.head source with
    | tuple us =>
      dsimp only
      split
      · exact keeps_assignElements hask ts us
      · exact .pure s _
    | _ => exact .pure s _
  | enum => cases D.head source <;> exact .pure s _
  | object | interface | classType =>
    cases D.head source with
    | array | tuple | literal => exact .pure s _
    | _ =>
      cases D.allMembers? target <;> cases D.allMembers? source <;>
        first | exact keeps_assignMembers hask _ _ | exact .pure s _
  | missing | param | this | indexed | other | regExp | named =>
    cases D.allMembers? target <;> cases D.allMembers? source <;>
      first | exact keeps_assignMembers hask _ _ | exact .pure s _
  | keyword | variant | literal => exact .pure s _

theorem keeps_assignStep (target source : Ty) :
    Keeps s (assignStep D span ask target source) (D.assignStep span f target source) := by
  generalize hverdict : D.assignStep span f target source = verdict
  simp only [Decls.assignStep] at hverdict
  generalize htarget : D.head target = shape, hsource : D.head source = other at hverdict
  split at hverdict <;> subst hverdict <;> simp only [assignStep, htarget, hsource]
  case h_4 bs _ _ _ =>
    refine (keeps_allFailures (hask target) bs).bind ?_
    cases StructuralTyping.allFailures (f target) bs <;> exact .pure s _
  case h_5 name bound _ _ _ =>
    cases shape <;> split_ifs <;> first | exact .pure s _ | exact hask target bound
  case h_9 =>
    split
    · exact .pure s _
    · exact keeps_assignShape hask target source
  all_goals exact .pure s _

end Rules

end Assigner

/-! ## The search -/

namespace Decls

/-- A search keeps the open questions that it starts with, and is told by them which
questions hold so far. -/
theorem keeps_assignIn (D : Decls) (span : Span) (fuel : Nat) (s : List Pair) (target source : Ty) :
    Keeps s (D.assignIn span fuel target source) (D.assignWithin span fuel s target source) := by
  induction fuel generalizing s target source with
  | zero => exact .pure s _
  | succ fuel ih =>
    rw [assignWithin]
    refine .get_bind ?_
    split
    · exact .pure s _
    · -- The question stands first in the state when it is taken out.
      have hclosed : ((target.orAny, source.orAny) :: s).erase (target.orAny, source.orAny) = s :=
        List.erase_cons_head ..
      exact .bracket hclosed
        (Assigner.keeps_assignStep (ih ((target.orAny, source.orAny) :: s)) _ _)

theorem keeps_assigning (D : Decls) (maxDepth : Int) (target source : Ty) (span : Span) :
    Keeps [] (D.assigning maxDepth target source span) (D.assign maxDepth target source span) :=
  (D.keeps_assignIn span _ [] target source).map _

end Decls

end StructuralTyping
