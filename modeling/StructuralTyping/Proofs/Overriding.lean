import StructuralTyping.Proofs.Overloads
import StructuralTyping.Ty.Build

/-!
# Inherited candidates

A call of a member and a construction choose among own and inherited candidates, own
ones first.  The choice counts all of them.  So a method of a base is one more overload
of the method that overrides it, and an inherited property is called in place of an own
method.

The own candidates decide by themselves in some cases: where nothing is inherited, where
an own property comes first, and where the number of arguments tells own signatures
from inherited ones.  `OwnDecides` and `Hides` say which.  There a call has the outcome
that it has on the shape without its bases, up to the callee that a failure names
(`Checker.answer_withoutBases`).  Elsewhere it need not
(`Checker.typeOf_overridden`).
-/

namespace StructuralTyping

/-! ## Shapes without their bases -/

/-- The shape without what it inherits. -/
def Ty.withoutBases : Ty → Ty
  | .interface name typeParams members _ => .interface name typeParams members []
  | .classType name typeParams members _ => .classType name typeParams members .missing
  | t => t

/-- The members that a type has from its bases. -/
def Decls.inheritedMembers (D : Decls) (t : Ty) : List Member :=
  (D.head t).bases.flatMap fun b => (D.membersWithin? defaultMaxDepth b).getD []

section Members

variable {D : Decls} {t : Ty} {own : List Member} (hown : (D.head t).ownMembers? = some own)
include hown

theorem Decls.allMembers?_eq : D.allMembers? t = some (own ++ D.inheritedMembers t) := by
  simp [allMembers?, membersWithin?, membersOf?, hown, inheritedMembers]

theorem Decls.head_withoutBases : D.head (D.head t).withoutBases = (D.head t).withoutBases := by
  cases hhead : D.head t <;> first | rfl | simp [hhead, Ty.ownMembers?] at hown

theorem Decls.allMembers?_withoutBases : D.allMembers? (D.head t).withoutBases = some own := by
  have hbare : (D.head t).withoutBases.ownMembers? = some own ∧
      (D.head t).withoutBases.bases = [] := by
    cases hhead : D.head t <;> simp_all [Ty.ownMembers?, Ty.withoutBases, Ty.bases, Ty.isMissing]
  simp [allMembers?, membersWithin?, membersOf?, head_withoutBases hown, hbare]

end Members

namespace Checker

variable {C : Checker} {site : CallSite} {callee callee' : Ty}

/-! ## Choosing among own and inherited signatures -/

/-- Own signatures decide a call in spite of inherited ones.  Nothing is inherited, or
only own signatures have as many parameters as there are arguments, or two own ones
have and are ambiguous, or own signatures are overloaded and no inherited one can take
the arguments. -/
inductive Hides (arity : Nat) (own inherited : List Signature) : Prop where
  | nothing (h : inherited = [])
  | exactly (hown : exactSignatures own arity ≠ [])
      (hinherited : exactSignatures inherited arity = [])
  | ambiguously (hown : 2 ≤ (exactSignatures own arity).length)
  | unable (hown : 2 ≤ own.length) (hinherited : ∀ s ∈ inherited, canTake arity s = false)

theorem exactSignatures_append (own inherited : List Signature) (arity : Nat) :
    exactSignatures (own ++ inherited) arity =
      exactSignatures own arity ++ exactSignatures inherited arity :=
  List.filter_append ..

/-- A signature that matches the arguments one by one can take them. -/
theorem exactSignatures_of_unable {sigs : List Signature} {arity : Nat}
    (h : ∀ s ∈ sigs, canTake arity s = false) : exactSignatures sigs arity = [] := by
  refine List.filter_eq_nil_iff.2 fun s hs hexact => ?_
  have hunable := h s hs
  simp only [canTake, Bool.or_eq_false_iff, decide_eq_false_iff_not] at hunable
  simp only [Bool.and_eq_true, beq_iff_eq] at hexact
  omega

/-- Signatures that are hidden do not change the choice. -/
theorem pickSignature_append {own inherited : List Signature}
    (h : Hides site.args.length own inherited) :
    C.pickSignature (own ++ inherited) callee site = C.pickSignature own callee site := by
  have hexact (hown : exactSignatures own site.args.length ≠ [])
      (hinherited : exactSignatures inherited site.args.length = []) :
      C.pickSignature (own ++ inherited) callee site = C.pickSignature own callee site := by
    have happend : exactSignatures (own ++ inherited) site.args.length =
        exactSignatures own site.args.length := by
      rw [exactSignatures_append, hinherited, List.append_nil]
    rw [pickSignature_of_exact (by rwa [happend]), pickSignature_of_exact hown, happend]
  cases h with
  | nothing h => rw [h, List.append_nil]
  | exactly hown hinherited => exact hexact hown hinherited
  | ambiguously hown =>
    rw [pickSignature_of_exact, pickSignature_of_exact, exactSignatures_append]
    · match exactSignatures own site.args.length, hown with
      | _ :: _ :: _, _ => rfl
    · exact List.ne_nil_of_length_pos (by omega)
    · rw [exactSignatures_append]
      exact List.append_ne_nil_of_left_ne_nil (List.ne_nil_of_length_pos (by omega)) _
  | unable hown hinherited =>
    have hnone := exactSignatures_of_unable hinherited
    by_cases hempty : exactSignatures own site.args.length = []
    · have hfilter : inherited.filter (canTake site.args.length) = [] :=
        List.filter_eq_nil_iff.2 fun s hs => by simp [hinherited s hs]
      rw [pickSignature_of_not_exact hown hempty, pickSignature_of_not_exact,
        List.filter_append, hfilter, List.append_nil]
      · simp only [List.length_append]
        omega
      · rw [exactSignatures_append, hempty, hnone, List.append_nil]
    · exact hexact hempty hnone

/-! ## The callee that a failure names -/

/-- Outcomes with types that are related.  Failures only differ in the callee that they
name. -/
inductive SameOutcome (callee callee' : Ty) (R : Ty → Ty → Prop) :
    Except Diagnostic Ty → Except Diagnostic Ty → Prop where
  | ok {a b : Ty} (h : R a b) : SameOutcome callee callee' R (.ok a) (.ok b)
  | error (d : Diagnostic) : SameOutcome callee callee' R (.error d) (.error d)
  | noSignature (site : CallSite) :
      SameOutcome callee callee' R (.error (noSignature site callee))
        (.error (noSignature site callee'))
  | ambiguous (span : Span) (arity : Nat) :
      SameOutcome callee callee' R (.error (.unsupported span (.ambiguousOverload callee arity)))
        (.error (.unsupported span (.ambiguousOverload callee' arity)))

namespace SameOutcome

theorem refl (r : Except Diagnostic Ty) : SameOutcome callee callee' Eq r r := by
  cases r with
  | ok a => exact .ok rfl
  | error d => exact .error d

/-- The types of successes may be changed at the end. -/
theorem bind_pure {ask : Question → Infer Ty} {assign : Ty → Ty → Span → Infer Unit}
    {m m' : Inference Ty} {R : Ty → Ty → Prop} {f g : Ty → Ty} (hfg : ∀ a, R (f a) (g a))
    (h : SameOutcome callee callee' Eq (m.outcome ask assign) (m'.outcome ask assign)) :
    SameOutcome callee callee' R ((do return f (← m) : Inference Ty).outcome ask assign)
      ((do return g (← m') : Inference Ty).outcome ask assign) := by
  rw [Inference.outcome_bind, Inference.outcome_bind]
  generalize m.outcome ask assign = r, m'.outcome ask assign = r' at h
  cases h with
  | ok h => exact .ok (h ▸ hfg _)
  | error d => exact .error d
  | noSignature site => exact .noSignature site
  | ambiguous span arity => exact .ambiguous span arity

end SameOutcome

/-- The callee is only looked at to name it. -/
theorem sameOutcome_pickSignature (ask : Question → Infer Ty) (assign : Ty → Ty → Span → Infer Unit)
    (sigs : List Signature) :
    SameOutcome callee callee' Eq ((C.pickSignature sigs callee site).outcome ask assign)
      ((C.pickSignature sigs callee' site).outcome ask assign) := by
  by_cases hexact : exactSignatures sigs site.args.length = []
  · match sigs with
    | [] => exact .noSignature site
    | [s] => exact .refl _
    | s :: r :: rest =>
      rw [pickSignature_of_not_exact (by simp) hexact, pickSignature_of_not_exact (by simp) hexact,
        Inference.outcome_bind, Inference.outcome_bind]
      cases Inference.outcome ask assign (Inference.firstSuccess _ _) with
      | error d => exact .error d
      | ok tried =>
        cases tried with
        | ok t => exact .ok rfl
        | error ds => exact .noSignature site
  · rw [pickSignature_of_exact hexact, pickSignature_of_exact hexact]
    split
    · exact .refl _
    · exact .ambiguous site.span site.args.length

/-! ## Own candidates -/

/-- The own members with a key decide a call of the key.  A property comes first, or
there are methods on both sides, and the own ones hide the inherited ones. -/
inductive OwnDecides (arity : Nat) : Candidates → Candidates → Prop where
  | property (type : Ty) (inherited : Candidates) : OwnDecides arity (.property type) inherited
  | methods {own inherited : List Signature} (h : Hides arity own inherited) :
      OwnDecides arity (.methods own) (.methods inherited)

/-- Candidates that come after others. -/
def Candidates.append : Candidates → Candidates → Candidates
  | .property t, _ => .property t
  | .methods _, .property t => .property t
  | .methods ss, .methods ts => .methods (ss ++ ts)

theorem candidates_append (ms ns : List Member) :
    candidates (ms ++ ns) = (candidates ms).append (candidates ns) := by
  induction ms with
  | nil =>
    rw [List.nil_append, candidates]
    cases candidates ns <;> rfl
  | cons m ms ih =>
    cases m with
    | method key isOptional s =>
      rw [List.cons_append, candidates, candidates, ih]
      cases candidates ms <;> cases candidates ns <;> rfl
    | property => rfl
    | _ => exact ih

theorem findMembers_append (ms ns : List Member) (key : PropKey) :
    findMembers (ms ++ ns) key = findMembers ms key ++ findMembers ns key := List.filter_append ..

section Resolution

variable {t : Ty} {own : List Member} (hown : (C.decls.head t).ownMembers? = some own)
  (ask : Question → Infer Ty) (assign : Ty → Ty → Span → Infer Unit)
include hown

theorem sameOutcome_extractMemberStep {key : PropKey}
    (h : OwnDecides site.args.length (candidates (findMembers own key))
      (candidates (findMembers (C.decls.inheritedMembers t) key))) :
    SameOutcome (memberCallee t key) (memberCallee (C.decls.head t).withoutBases key) Eq
      ((C.extractMemberStep t key site).outcome ask assign)
      ((C.extractMemberStep (C.decls.head t).withoutBases key site).outcome ask assign) := by
  simp only [extractMemberStep, Decls.allMembers?_eq hown, Decls.allMembers?_withoutBases hown,
    findMembers_append, candidates_append]
  generalize candidates (findMembers own key) = first,
    candidates (findMembers (C.decls.inheritedMembers t) key) = second at h
  cases h with
  | property type inherited => exact .refl _
  | methods h =>
    refine .bind_pure (fun _ => rfl) ?_
    cases site.isNew with
    | true => exact sameOutcome_pickSignature ask assign []
    | false =>
      simp only [Bool.false_eq_true, if_false, pickSignature_append h]
      exact sameOutcome_pickSignature ask assign _

theorem sameOutcome_extractStep
    (h : Hides site.args.length (siteSignatures site own)
      (siteSignatures site (C.decls.inheritedMembers t))) :
    SameOutcome t (C.decls.head t).withoutBases
      (fun a b => a = b ∨ a = t ∧ b = (C.decls.head t).withoutBases)
      ((C.extractStep t site).outcome ask assign)
      ((C.extractStep (C.decls.head t).withoutBases site).outcome ask assign) := by
  have happend : siteSignatures site (own ++ C.decls.inheritedMembers t) =
      siteSignatures site own ++ siteSignatures site (C.decls.inheritedMembers t) :=
        List.filterMap_append ..
  have hconstructed (result : Ty) :
      constructed C.decls t site result =
        constructed C.decls (C.decls.head t).withoutBases site result ∨
        constructed C.decls t site result = t ∧
          constructed C.decls (C.decls.head t).withoutBases site result =
            (C.decls.head t).withoutBases := by
    simp only [constructed, Decls.head_withoutBases hown]
    cases hhead : C.decls.head t with
    | classType => cases result.isMissing <;> cases site.isNew <;> simp [Ty.withoutBases]
    | object | interface => exact .inl rfl
    | _ => simp [hhead, Ty.ownMembers?] at hown
  simp only [extractStep, Decls.allMembers?_eq hown, Decls.allMembers?_withoutBases hown, happend,
    pickSignature_append h]
  exact .bind_pure hconstructed (sameOutcome_pickSignature ask assign _)

end Resolution

/-! ## Calls of members and constructions -/

/-- Where the own members decide, a call of a member and a call or construction have the
outcome that they have on the shape without its bases.  A class that is constructed is
identified with the class without its base. -/
theorem answer_withoutBases {t : Ty} {own : List Member}
    (hown : (C.decls.head t).ownMembers? = some own) (levels : Nat) (site : CallSite) :
    (∀ key, OwnDecides site.args.length (candidates (findMembers own key))
        (candidates (findMembers (C.decls.inheritedMembers t) key)) →
      SameOutcome (memberCallee t key) (memberCallee (C.decls.head t).withoutBases key) Eq
        (C.answer levels (.extractMember t key site)).outcome
        (C.answer levels (.extractMember (C.decls.head t).withoutBases key site)).outcome) ∧
      (Hides site.args.length (siteSignatures site own)
        (siteSignatures site (C.decls.inheritedMembers t)) →
        SameOutcome t (C.decls.head t).withoutBases
          (fun a b => a = b ∨ a = t ∧ b = (C.decls.head t).withoutBases)
          (C.answer levels (.extract t site)).outcome
          (C.answer levels (.extract (C.decls.head t).withoutBases site)).outcome) := by
  cases levels with
  | zero => exact ⟨fun key _ => .error _, fun _ => .error _⟩
  | succ levels =>
    exact ⟨fun key h => sameOutcome_extractMemberStep hown _ _ h,
      fun h => sameOutcome_extractStep hown _ _ h⟩

/-- The members of a class with a constructor and two methods, all with the same
parameters. -/
def overridingMembers (params : List Param) : List Member :=
  [.methodNamed "m" (.mk [] params .string), .methodNamed "p" (.mk [] params .string),
    .construct (.mk [] params .missing)]

/-- The class that extends one with a method, a property that holds a function, and a
constructor, all without parameters. -/
def overriding (params : List Param) : Ty :=
  .classType "D" [] (overridingMembers params)
    (.classType "B" []
      [.methodNamed "m" (.mk [] [] .number), .required "p" (.function (.mk [] [] .number)),
        .construct (.mk [] [] .missing)]
      .missing)

/-- A method and a constructor with one parameter are told from inherited ones without
any by a call with one argument. -/
theorem answer_withoutBases_oneParameter :
    let C : Checker := { scope := Environment.scope {} }
    let t := overriding [.plain "a" .any]
    let outcome (q : Question) := (C.answer C.options.expressionDepth q).outcome
    SameOutcome (memberCallee t ⟨"m", false⟩) (memberCallee t.withoutBases ⟨"m", false⟩) Eq
        (outcome (.extractMember t ⟨"m", false⟩ (callWith false 1)))
        (outcome (.extractMember t.withoutBases ⟨"m", false⟩ (callWith false 1))) ∧
      SameOutcome t t.withoutBases (fun a b => a = b ∨ a = t ∧ b = t.withoutBases)
        (outcome (.extract t (callWith true 1)))
          (outcome (.extract t.withoutBases (callWith true 1))) := by
  intro C t outcome
  have hown : (C.decls.head t).ownMembers? = some (overridingMembers [.plain "a" .any]) := rfl
  refine ⟨(answer_withoutBases hown _ (callWith false 1)).1 ⟨"m", false⟩ ?_,
    (answer_withoutBases hown _ (callWith true 1)).2 ?_⟩
  · exact .methods (.exactly (List.ne_nil_of_length_pos (by decide)) rfl)
  · exact .exactly (List.ne_nil_of_length_pos (by decide)) rfl

/-- Without arguments, a method and a constructor are ambiguous with the ones that they
override, and an inherited property is called in place of an own method. -/
theorem typeOf_overridden :
    let t := overriding []
    let typeOf (object : Ty) (node : ExprNode) :=
      (Checker.typeOf { scope := (Environment.define {} "d" object).scope }
        ⟨Span.none, node⟩).outcome
    let object : Expr := ⟨Span.none, .ident "d"⟩
    let call (key : String) : ExprNode := .call ⟨Span.none, .member object key⟩ [] []
    let construct : ExprNode := .construct object [] []
    let ambiguous (callee : Ty) : Diagnostic := .unsupported Span.none (.ambiguousOverload callee 0)
    typeOf t (call "m") = .error (ambiguous (memberCallee t ⟨"m", false⟩)) ∧
      typeOf t.withoutBases (call "m") = .ok .string ∧
      typeOf t (call "p") = .ok .number ∧ typeOf t.withoutBases (call "p") = .ok .string ∧
      typeOf t construct = .error (ambiguous t) ∧
      typeOf t.withoutBases construct = .ok t.withoutBases :=
  ⟨rfl, rfl, rfl, rfl, rfl, rfl⟩

end Checker

end StructuralTyping
