import Mathlib.Tactic.SplitIfs
import StructuralTyping.Assign

/-!
# The cases of a step

A step of the search is one of a few programs, each of which asks its own questions and
makes a verdict from the answers.  Which program it is depends on the target and the source
only, not on the position or on the answers.

`Decls.assignShape_cases` and `Decls.assignStep_cases` list the programs, each with the
shapes that it is for.  What holds of all of them holds of the step.  The property is one of
programs, so that two runs of a step, with other answers or at another position, are in the
same case.
-/

namespace StructuralTyping

namespace Ty

/-- The types that accept everything. -/
def isTop : Ty → Bool
  | .keyword .any | .keyword .unknown => true
  | _ => false

/-- A source that is compared with the target.  The others have rules of their
own. -/
def isCompared : Ty → Bool
  | .union _ | .param _ _ | .keyword .any | .keyword .never | .keyword .unknown => false
  | _ => true

/-- A source that has elements or a value, and whose members are never read. -/
def isMemberless : Ty → Bool
  | .tuple _ | .array _ | .literal _ => true
  | _ => false

/-- The shapes of a target and a source for which no rule by shape decides. -/
def leavesOpen (target source : Ty) : Bool :=
  match target with
  | .function f | .ctor f => !f.typeParams.isEmpty
  | .object _ | .interface _ _ _ _ | .classType _ _ _ _ =>
    !source.isMemberless && source.ownMembers?.isNone
  | .missing | .param _ _ | .this | .indexed _ _ | .other _ | .regExp | .named _ => true
  | _ => false

end Ty

namespace Decls

/-- Only object shapes have members. -/
theorem isSome_allMembers? (D : Decls) (t : Ty) :
    (D.allMembers? t).isSome = (D.head t).ownMembers?.isSome := D.isSome_membersWithin? _ t

/-- What a step does at a position with the answers to its questions. -/
abbrev Rule := Span → (Ty → Ty → Verdict) → Verdict

section Cases

variable (D : Decls) (t s : Ty) {motive : Rule → Prop}

/-- The rules by the shape of the target, and the two ways to fail when none applies. -/
theorem assignShape_cases
    (array : ∀ a b, D.head t = .array a → D.head s = .array b →
      motive fun span ask =>
        match ask a b with
        | .ok _ => .holds
        | .error d => .error (.assignFailed span t s [d]))
    (arrayOfTuple : ∀ a bs, D.head t = .array a → D.head s = .tuple bs →
      motive fun _ ask => firstFailure (ask a) bs)
    (union : ∀ bs, D.head t = .union bs →
      motive fun span ask =>
        match firstSuccess (ask · s) bs with
        | .ok _ => .holds
        | .error ds => .error (.assignFailed span t s ds))
    (inter : ∀ bs, D.head t = .inter bs →
      motive fun span ask =>
        match firstFailure (ask · s) bs with
        | .ok _ => .holds
        | .error d => .error (.intersectionFailed span d))
    (keyword : ∀ k, D.head t = .keyword k → keywordAccepts k (D.head s) = true →
      motive fun _ _ => .holds)
    (enum : ∀ name members isConst member, D.head t = .enum name members isConst →
      D.head s = .variant name member → motive fun _ _ => .holds)
    (function : ∀ f g, D.head t = .function f → D.head s = .function g → f.typeParams = [] →
      g.typeParams = [] → motive fun _ ask => ask f.result g.result)
    (ctor : ∀ f g, D.head t = .ctor f → D.head s = .ctor g → f.typeParams = [] →
      g.typeParams = [] → motive fun _ ask => ask f.result g.result)
    (tuple : ∀ as bs, D.head t = .tuple as → D.head s = .tuple bs → bs.length = as.length →
      motive fun _ ask => D.assignElements ask as bs)
    (members : ∀ wanted given, D.allMembers? t = some wanted → D.allMembers? s = some given →
      motive fun span ask => D.assignMembers span ask wanted given)
    (alike : (D.head t).leavesOpen (D.head s) = true → D.equalIgnoringNames t s = true →
      motive fun _ _ => .holds)
    (unsupported : (D.head t).leavesOpen (D.head s) = true → D.equalIgnoringNames t s = false →
      motive fun span _ => .error (.unsupported span (.assigning s t)))
    (fails : motive fun span _ => .error (.assignFailed span t s [])) :
    motive fun span ask => D.assignShape span ask t s := by
  have hotherwise (hopen : (D.head t).leavesOpen (D.head s) = true) :
      motive fun span _ => D.assignOtherwise span t s := by
    cases hequal : D.equalIgnoringNames t s with
    | true => simpa [assignOtherwise, require, hequal] using alike hopen hequal
    | false => simpa [assignOtherwise, require, hequal] using unsupported hopen hequal
  have htarget := D.isSome_allMembers? t
  have hsource := D.isSome_allMembers? s
  simp only [assignShape]
  generalize D.head t = target, D.head s = source, D.allMembers? t = wanted?,
    D.allMembers? s = given? at *
  cases target with
  | array a =>
    cases source with
    | array b => exact array a b rfl rfl
    | tuple bs => exact arrayOfTuple a bs rfl rfl
    | _ => exact fails
  | union bs => exact union bs rfl
  | inter bs => exact inter bs rfl
  | keyword k =>
    cases haccepts : keywordAccepts k source with
    | true => simpa [require, haccepts] using keyword k rfl haccepts
    | false => simpa [require, haccepts] using fails
  | enum name ms isConst =>
    cases source with
    | variant other member =>
      by_cases hname : other = name
      · subst hname
        simpa [require] using enum other ms isConst member rfl rfl
      · simpa [require, hname] using fails
    | _ => exact fails
  | function f =>
    by_cases hf : f.typeParams = []
    · cases source with
      | function g =>
        by_cases hg : g.typeParams = []
        · simpa [assignSignature, hf, hg] using function f g rfl rfl hf hg
        · simpa [assignSignature, hf, hg] using fails
      | _ => simpa [assignSignature, hf] using fails
    · simpa [hf] using hotherwise (by simpa [Ty.leavesOpen] using hf)
  | ctor f =>
    by_cases hf : f.typeParams = []
    · cases source with
      | ctor g =>
        by_cases hg : g.typeParams = []
        · simpa [assignSignature, hf, hg] using ctor f g rfl rfl hf hg
        · simpa [assignSignature, hf, hg] using fails
      | _ => simpa [assignSignature, hf] using fails
    · simpa [hf] using hotherwise (by simpa [Ty.leavesOpen] using hf)
  | tuple as =>
    cases source with
    | tuple bs =>
      by_cases hlen : bs.length = as.length
      · simpa [hlen] using tuple as bs rfl rfl hlen
      · simpa [hlen] using fails
    | _ => exact fails
  | object | interface | classType =>
    cases source with
    | array | tuple | literal => exact fails
    | object | interface | classType =>
      obtain ⟨wanted, rfl⟩ := Option.isSome_iff_exists.1 htarget
      obtain ⟨given, rfl⟩ := Option.isSome_iff_exists.1 hsource
      exact members wanted given rfl rfl
    | _ =>
      obtain ⟨wanted, rfl⟩ := Option.isSome_iff_exists.1 htarget
      obtain rfl : given? = none := by simpa [Ty.ownMembers?] using hsource
      exact hotherwise rfl
  | missing | param | this | indexed | other | regExp | named =>
    obtain rfl : wanted? = none := by simpa [Ty.ownMembers?] using htarget
    exact hotherwise rfl
  | variant | literal => exact fails

/-- The rules of a step, in the order in which they are tried. -/
theorem assignStep_cases
    (top : (D.head t).isTop = true → motive fun _ _ => .holds)
    (this : D.head t = .this → motive fun span _ => .error (.cannotAssignToThis span))
    (unionSource : ∀ bs, D.head t ≠ .this → D.head s = .union bs →
      motive fun span ask =>
        match allFailures (ask t) bs with
        | [] => .holds
        | ds => .error (.unionFailed span ds))
    (sameParam : ∀ name b c, D.head t = .param name b → D.head s = .param name c →
      motive fun _ _ => .holds)
    (bound : ∀ name b, D.head t ≠ .this → D.head s = .param name b → b.isMissing = false →
      motive fun _ ask => ask t b)
    (emptyObject : ∀ name b, D.head t = .object [] → D.head s = .param name b → b.isMissing = true →
      motive fun _ _ => .holds)
    (bottom : D.head t ≠ .this → D.head s = .any ∨ D.head s = .never → motive fun _ _ => .holds)
    (unknownSource : D.head t = .undefined → D.head s = .unknown → motive fun _ _ => .holds)
    (equal : D.head t ≠ .this → (D.head s).isCompared = true → D.equal t s = true →
      motive fun _ _ => .holds)
    (shape : D.head t ≠ .this → (D.head s).isCompared = true → D.equal t s = false →
      motive fun span ask => D.assignShape span ask t s)
    (fails : motive fun span _ => .error (.assignFailed span t s [])) :
    motive fun span ask => D.assignStep span ask t s := by
  have hcompared (hthis : D.head t ≠ .this) (hs : (D.head s).isCompared = true) :
      motive fun span ask => if D.equal t s then .holds else D.assignShape span ask t s := by
    cases hequal : D.equal t s with
    | true => exact equal hthis hs hequal
    | false => exact shape hthis hs hequal
  simp only [assignStep]
  generalize D.head t = target, D.head s = source at *
  split
  · exact top rfl
  · exact top rfl
  · exact this rfl
  · next bs _ _ hthis => exact unionSource bs hthis rfl
  · next name b _ _ hthis =>
    split_ifs with hsame hbound
    · cases target with
      | param other c =>
        exact sameParam name c b (congrArg (Ty.param · c) (by simpa using hsame)) rfl
      | _ => cases hsame
    · exact bound name b hthis rfl (by simpa using hbound)
    · cases target with
      | object ms =>
        cases ms with
        | nil => exact emptyObject name b rfl rfl (by simpa using hbound)
        | cons => exact fails
      | _ => exact fails
  · next _ _ hthis => exact bottom hthis (.inl rfl)
  · next _ _ hthis => exact bottom hthis (.inr rfl)
  · cases target with
    | keyword k =>
      cases k with
      | undefined => exact unknownSource rfl rfl
      | _ => exact fails
    | _ => exact fails
  · next _ _ hthis hunion hparam hany hnever hunknown =>
    refine hcompared hthis ?_
    unfold Ty.isCompared
    split <;> first | rfl | (exfalso; solve_by_elim)

end Cases

end Decls

end StructuralTyping
