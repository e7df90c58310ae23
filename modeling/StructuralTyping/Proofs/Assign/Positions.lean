import StructuralTyping.Proofs.Assign.Cases
import StructuralTyping.Proofs.Unplaced

/-!
# Verdicts do not depend on positions

An assignment is checked at a position, which every failure carries.  At another position
the verdict is the same up to positions (`assign_agree`).

The rules look at whether an answer is a success, and put the failures of answers below
their own.  So answers that agree make verdicts that agree, rule by rule
(`assignStep_agree`), and the search follows by induction on the depth.  Only the root that
a rejection gets depends on what kind of failure it is, which the position does not change.
-/

namespace StructuralTyping

/-! ## Outcomes that agree -/

/-- Two outcomes agree: both succeed with related values, or both fail with related
reasons. -/
inductive Agree (E : ε → ε → Prop) (V : α → α → Prop) : Except ε α → Except ε α → Prop where
  | ok {a a' : α} (h : V a a') : Agree E V (.ok a) (.ok a')
  | error {e e' : ε} (h : E e e') : Agree E V (.error e) (.error e')

/-- Two diagnostics are the same up to positions. -/
def Diagnostic.Alike (d d' : Diagnostic) : Prop := d.unplaced = d'.unplaced

/-- Two lists of diagnostics are the same up to positions. -/
def Diagnostic.AllAlike (ds ds' : List Diagnostic) : Prop :=
  Diagnostic.allUnplaced ds = Diagnostic.allUnplaced ds'

/-- Two outcomes with the same value, or with diagnostics that are the same up to
positions. -/
abbrev SameReport (r r' : Except Diagnostic α) : Prop := Agree Diagnostic.Alike Eq r r'

theorem Diagnostic.AllAlike.cons {d d' : Diagnostic} {ds ds' : List Diagnostic} (h : d.Alike d')
    (hs : AllAlike ds ds') : AllAlike (d :: ds) (d' :: ds') := by
  rw [AllAlike, allUnplaced, allUnplaced, h, hs]

namespace Agree

variable {E : ε → ε → Prop} {V : α → α → Prop} {W : β → β → Prop}

theorem map {r r' : Except ε α} (h : Agree E V r r') {f f' : α → β}
    (hf : ∀ a a', V a a' → W (f a) (f' a')) : Agree E W (r.map f) (r'.map f') := by
  cases h with
  | ok h => exact .ok (hf _ _ h)
  | error h => exact .error h

theorem bind {r r' : Except ε α} (h : Agree E V r r') {f f' : α → Except ε β}
    (hf : ∀ a a', V a a' → Agree E W (f a) (f' a')) : Agree E W (r >>= f) (r' >>= f') := by
  cases h with
  | ok h => exact hf _ _ h
  | error h => exact .error h

theorem inv {r r' : Except ε α} (h : Agree E V r r') :
    (∃ a a', r = .ok a ∧ r' = .ok a' ∧ V a a') ∨
      ∃ e e', r = .error e ∧ r' = .error e' ∧ E e e' := by
  cases h with
  | ok h => exact .inl ⟨_, _, rfl, rfl, h⟩
  | error h => exact .inr ⟨_, _, rfl, rfl, h⟩

/-- A test that is the same may come first. -/
theorem ite (c : Prop) [Decidable c] {r r' s s' : Except ε α} (h : Agree E V r r')
    (h' : Agree E V s s') : Agree E V (if c then r else s) (if c then r' else s') := by
  split
  · exact h
  · exact h'

end Agree

namespace SameReport

theorem map {r r' : Except Diagnostic α} (h : SameReport r r') (f : α → β) :
    SameReport (r.map f) (r'.map f) :=
  Agree.map h fun _ _ ha => congrArg f ha

theorem bind {r r' : Except Diagnostic α} (h : SameReport r r') {f f' : α → Except Diagnostic β}
    (hf : ∀ a, SameReport (f a) (f' a)) : SameReport (r >>= f) (r' >>= f') :=
  Agree.bind h fun a _ ha => ha ▸ hf a

theorem inv {r r' : Except Diagnostic α} (h : SameReport r r') :
    (∃ a, r = .ok a ∧ r' = .ok a) ∨ ∃ d d', r = .error d ∧ r' = .error d' ∧ d.Alike d' := by
  cases h with
  | ok h => exact .inl ⟨_, rfl, h ▸ rfl⟩
  | error h => exact .inr ⟨_, _, rfl, rfl, h⟩

/-- Outcomes that are the same up to positions say the same. -/
theorem mapError_wording {r r' : Except Diagnostic α} (h : SameReport r r') (D : Decls) :
    r.mapError (·.wording D) = r'.mapError (·.wording D) := by
  cases h with
  | ok h => rw [h]
  | @error d d' h =>
    have hwording : d.wording D = d'.wording D := by
      rw [← d.wording_unplaced D, h, d'.wording_unplaced D]
    exact congrArg Except.error hwording

end SameReport

/-! ## Lists of questions -/

section Lists

variable {ask ask' : α → Verdict}

theorem firstFailure_agree (h : ∀ x, SameReport (ask x) (ask' x)) (xs : List α) :
    SameReport (firstFailure ask xs) (firstFailure ask' xs) := by
  induction xs with
  | nil => exact .ok rfl
  | cons x xs ih =>
    rw [firstFailure, firstFailure]
    obtain ⟨_, hx, hx'⟩ | ⟨d, d', hx, hx', hd⟩ := (h x).inv
    · rw [hx, hx']
      exact ih
    · rw [hx, hx']
      exact .error hd

theorem allFailures_agree (h : ∀ x, SameReport (ask x) (ask' x)) (xs : List α) :
    Diagnostic.AllAlike (allFailures ask xs) (allFailures ask' xs) := by
  induction xs with
  | nil => rfl
  | cons x xs ih =>
    simp only [allFailures, List.filterMap_cons] at ih ⊢
    obtain ⟨_, hx, hx'⟩ | ⟨d, d', hx, hx', hd⟩ := (h x).inv
    · rw [hx, hx']
      exact ih
    · rw [hx, hx']
      exact .cons hd ih

theorem firstSuccess_agree (h : ∀ x, SameReport (ask x) (ask' x)) (xs : List α) :
    Agree Diagnostic.AllAlike Eq (firstSuccess ask xs) (firstSuccess ask' xs) := by
  induction xs with
  | nil => exact .error rfl
  | cons x xs ih =>
    rw [firstSuccess, firstSuccess]
    obtain ⟨_, hx, hx'⟩ | ⟨d, d', hx, hx', hd⟩ := (h x).inv
    · rw [hx, hx']
      exact .ok rfl
    · rw [hx, hx']
      obtain ⟨_, _, hxs, hxs', -⟩ | ⟨ds, ds', hxs, hxs', hds⟩ := ih.inv
      · rw [hxs, hxs']
        exact .ok rfl
      · rw [hxs, hxs']
        exact .error (.cons hd hds)

end Lists

namespace Decls

section Steps

variable {D : Decls} {span span' : Span} {ask ask' : Ty → Ty → Verdict}
variable (h : ∀ t s, SameReport (ask t s) (ask' t s))
include h

/-! ## Members and elements -/

theorem assignMember_agree (m : Member) (cs : List Member) :
    SameReport (D.assignMember ask m cs) (D.assignMember ask' m cs) := by
  induction cs with
  | nil => exact .ok rfl
  | cons c cs ih =>
    simp only [assignMember]
    cases D.memberQuestion? m c with
    | none => exact ih
    | some q =>
      obtain ⟨_, hq, hq'⟩ | ⟨d, d', hq, hq', hd⟩ := (h q.1 q.2).inv
      · simp only [hq, hq']
        exact .ok rfl
      · simp only [hq, hq']
        exact .error hd

theorem providesMember_agree (source : List Member) (m : Member) :
    SameReport (D.providesMember ask source m) (D.providesMember ask' source m) := by
  simp only [providesMember]
  cases m.key? with
  | none => exact .ok rfl
  | some key => exact (assignMember_agree h m _).map _

theorem lackingMembers_agree (source ms : List Member) :
    SameReport (D.lackingMembers ask source ms) (D.lackingMembers ask' source ms) := by
  induction ms with
  | nil => exact .ok rfl
  | cons m ms ih =>
    rw [lackingMembers, lackingMembers]
    obtain ⟨provided, hm, hm'⟩ | ⟨d, d', hm, hm', hd⟩ :=
      (providesMember_agree (D := D) h source m).inv
    · rw [hm, hm']
      exact ih.map _
    · rw [hm, hm']
      exact .error hd

theorem assignMembers_agree (target source : List Member) :
    SameReport (D.assignMembers span ask target source)
      (D.assignMembers span' ask' target source) := by
  rw [assignMembers, assignMembers]
  obtain ⟨lacking, hms, hms'⟩ | ⟨d, d', hms, hms', hd⟩ :=
    (lackingMembers_agree (D := D) h source target).inv
  · rw [hms, hms']
    cases lacking with
    | nil => exact .ok rfl
    | cons m ms => exact .error rfl
  · rw [hms, hms']
    exact .error hd

theorem assignElements_agree :
    ∀ ts ss : List Ty, SameReport (D.assignElements ask ts ss) (D.assignElements ask' ts ss)
  | t :: ts, s :: ss => by
    have ih := assignElements_agree ts ss
    rw [assignElements, assignElements]
    obtain ⟨_, hts, hts'⟩ | ⟨d, d', hts, hts', hd⟩ := (h t s).inv
    · rw [hts, hts']
      exact ih
    · rw [hts, hts']
      exact .ite _ ih (.error hd)
  | [], _ => .ok rfl
  | _ :: _, [] => .ok rfl

/-! ## One step -/

theorem assignShape_agree (target source : Ty) :
    SameReport (D.assignShape span ask target source) (D.assignShape span' ask' target source) := by
  apply D.assignShape_cases target source
    (motive := fun rule => SameReport (rule span ask) (rule span' ask'))
  case array =>
    intro t s _ _
    dsimp only
    obtain ⟨_, hts, hts'⟩ | ⟨d, d', hts, hts', hd⟩ := (h t s).inv
    · rw [hts, hts']
      exact .ok rfl
    · rw [hts, hts']
      exact .error (congrArg (Diagnostic.assignFailed Span.none target source)
        (Diagnostic.AllAlike.cons hd rfl))
  case arrayOfTuple => exact fun t ss _ _ => firstFailure_agree (h t) ss
  case union =>
    intro bs _
    dsimp only
    obtain ⟨_, _, hbs, hbs', -⟩ | ⟨ds, ds', hbs, hbs', hds⟩ :=
      (firstSuccess_agree (fun b => h b source) bs).inv
    · rw [hbs, hbs']
      exact .ok rfl
    · rw [hbs, hbs']
      exact .error (congrArg (Diagnostic.assignFailed Span.none target source) hds)
  case inter =>
    intro bs _
    dsimp only
    obtain ⟨_, hbs, hbs'⟩ | ⟨d, d', hbs, hbs', hd⟩ :=
      (firstFailure_agree (fun b => h b source) bs).inv
    · rw [hbs, hbs']
      exact .ok rfl
    · rw [hbs, hbs']
      exact .error (congrArg (Diagnostic.intersectionFailed Span.none) hd)
  case function | ctor => exact fun f g _ _ _ _ => h f.result g.result
  case tuple => exact fun ts ss _ _ _ => assignElements_agree h ts ss
  case members => exact fun wanted given _ _ => assignMembers_agree h wanted given
  -- The others ask nothing.
  case keyword | enum | alike =>
    intros
    exact .ok rfl
  case unsupported | fails =>
    intros
    exact .error rfl

/-- The rules make verdicts that agree from answers that agree. -/
theorem assignStep_agree (target source : Ty) :
    SameReport (D.assignStep span ask target source) (D.assignStep span' ask' target source) := by
  apply D.assignStep_cases target source
    (motive := fun rule => SameReport (rule span ask) (rule span' ask'))
  case unionSource =>
    intro bs _ _
    dsimp only
    have hfailures := allFailures_agree (h target) bs
    generalize allFailures (ask target) bs = ds, allFailures (ask' target) bs = ds' at hfailures
    match ds, ds', hfailures with
    | [], [], _ => exact .ok rfl
    | _ :: _, _ :: _, hds => exact .error (congrArg (Diagnostic.unionFailed Span.none) hds)
  case bound => exact fun name b _ _ _ => h target b
  case shape => exact fun _ _ _ => assignShape_agree h target source
  case top | sameParam | emptyObject | bottom | unknownSource | equal =>
    intros
    exact .ok rfl
  case this | fails =>
    intros
    exact .error rfl

end Steps

/-! ## The search -/

theorem assignWithin_agree (D : Decls) (span span' : Span) (fuel : Nat) (opened : List Pair)
    (target source : Ty) : SameReport (D.assignWithin span fuel opened target source)
      (D.assignWithin span' fuel opened target source) := by
  induction fuel generalizing opened target source with
  | zero => exact .error rfl
  | succ fuel ih => exact .ite _ (.ok rfl) (assignStep_agree (fun t s => ih _ t s) _ _)

/-- The root that a rejection gets. -/
def rejection (target source : Ty) (span : Span) : Diagnostic → Diagnostic
  | .assignFailed s l r cs => .assignFailed s l r cs
  | d => .assignFailed span target source [d]

theorem assign_eq (D : Decls) (maxDepth : Int) (target source : Ty) (span : Span) :
    D.assign maxDepth target source span =
      (D.assignWithin span (depthLimit maxDepth + 1) [] target source).mapError
        (rejection target source span) := by
  rw [assign]
  cases D.assignWithin span (depthLimit maxDepth + 1) [] target source with
  | ok _ => rfl
  | error d => cases d <;> rfl

theorem rejection_alike {d d' : Diagnostic} (h : d.Alike d') (target source : Ty)
    (span span' : Span) :
    (rejection target source span d).Alike (rejection target source span' d') := by
  cases d <;> cases d' <;>
    simp_all [Diagnostic.Alike, rejection, Diagnostic.unplaced, Diagnostic.allUnplaced]

/-- An assignment that is checked at another position has the same verdict up to
positions. -/
theorem assign_agree (D : Decls) (maxDepth : Int) (target source : Ty) (span span' : Span) :
    SameReport (D.assign maxDepth target source span) (D.assign maxDepth target source span') := by
  have hwithin := assignWithin_agree D span span' (depthLimit maxDepth + 1) [] target source
  rw [assign_eq, assign_eq]
  obtain ⟨_, hok, hok'⟩ | ⟨d, d', herror, herror', hd⟩ := hwithin.inv
  · rw [hok, hok']
    exact .ok rfl
  · rw [herror, herror']
    exact .error (rejection_alike hd target source span span')

end Decls

end StructuralTyping
