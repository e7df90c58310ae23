import Mathlib.Data.List.Forall2
import Mathlib.Tactic.SplitIfs
import StructuralTyping.Proofs.Assign.Cases

/-!
# The rules of assignability

`Decls.Follows D R t s` says that a source `s` may be used for a target `t` by one
rule whose recursive questions all lie in the relation `R`.  The rules are given
one by one, without the order in which a search tries them.  Where a rule is
passed over because of an earlier one, its premises say so.

`Decls.Assignable` is the greatest relation all of whose pairs follow from pairs
of it.  It is what assignability means on cyclic types, where a derivation need
not end.

The main statement, `assignStep_eq_ok_iff`, is that a step of the search succeeds
exactly when a rule applies.
-/

namespace StructuralTyping

namespace Decls

/-! ## Rules -/

/-- A member of a target is provided by the members of a source.  A named member
asks about the first candidate of its key that goes together with it, and may be
left out when there is none and it is optional. -/
inductive Provides (D : Decls) (R : Ty → Ty → Prop) (source : List Member) (m : Member) : Prop where
  | unnamed {c : Member} (hkey : m.key? = none) (hc : c ∈ source)
      (heq : D.memberEqualIgnoringNames m c = true)
  | named {key : PropKey} {a b : Ty} (hkey : m.key? = some key)
      (hfirst : (findMembers source key).findSome? (D.memberQuestion? m) = some (a, b)) (h : R a b)
  | omitted {key : PropKey} (hkey : m.key? = some key)
      (hnone : (findMembers source key).findSome? (D.memberQuestion? m) = none)
      (hoptional : m.isOptional = true)

/-- The rules by the shape of the target. -/
inductive FollowsByShape (D : Decls) (R : Ty → Ty → Prop) (t s : Ty) : Prop where
  | array {a b : Ty} (ht : D.head t = .array a) (hs : D.head s = .array b) (h : R a b)
  | arrayOfTuple {a : Ty} {bs : List Ty} (ht : D.head t = .array a) (hs : D.head s = .tuple bs)
      (h : ∀ b ∈ bs, R a b)
  | union {b : Ty} {bs : List Ty} (ht : D.head t = .union bs) (hb : b ∈ bs) (h : R b s)
  | inter {bs : List Ty} (ht : D.head t = .inter bs) (h : ∀ b ∈ bs, R b s)
  | keyword {k : Keyword} (ht : D.head t = .keyword k) (h : keywordAccepts k (D.head s) = true)
  | enum {name member : String} {members : List String} {isConst : Bool}
      (ht : D.head t = .enum name members isConst) (hs : D.head s = .variant name member)
  | function {f g : Signature} (ht : D.head t = .function f) (hs : D.head s = .function g)
      (hf : f.typeParams = []) (hg : g.typeParams = []) (h : R f.result g.result)
  | ctor {f g : Signature} (ht : D.head t = .ctor f) (hs : D.head s = .ctor g)
      (hf : f.typeParams = []) (hg : g.typeParams = []) (h : R f.result g.result)
  | tuple {as bs : List Ty} (ht : D.head t = .tuple as) (hs : D.head s = .tuple bs)
      (h : List.Forall₂ (fun a b => R a b ∨ D.isKeyword b .undefined = true) as bs)
  | members {wanted given : List Member} (ht : D.allMembers? t = some wanted)
      (hs : D.allMembers? s = some given) (h : ∀ m ∈ wanted, D.Provides R given m)
  | alike (hopen : (D.head t).leavesOpen (D.head s) = true) (h : D.equalIgnoringNames t s = true)

/-- A source may be used for a target by one rule, with the recursive questions in
`R`. -/
inductive Follows (D : Decls) (R : Ty → Ty → Prop) (t s : Ty) : Prop where
  | top (ht : (D.head t).isTop = true)
  | unionSource {bs : List Ty} (ht : D.head t ≠ .this) (hs : D.head s = .union bs)
      (h : ∀ b ∈ bs, R t b)
  | sameParam {name : String} {b c : Ty} (ht : D.head t = .param name b)
      (hs : D.head s = .param name c)
  | bound {name : String} {b : Ty} (ht : D.head t ≠ .this) (hs : D.head s = .param name b)
      (hb : b.isMissing = false) (h : R t b)
  | emptyObject {name : String} {b : Ty} (ht : D.head t = .object [])
      (hs : D.head s = .param name b) (hb : b.isMissing = true)
  | bottom (ht : D.head t ≠ .this) (hs : D.head s = .any ∨ D.head s = .never)
  | unknownSource (ht : D.head t = .undefined) (hs : D.head s = .unknown)
  | equal (ht : D.head t ≠ .this) (hs : (D.head s).isCompared = true) (h : D.equal t s = true)
  | shape (ht : D.head t ≠ .this) (hs : (D.head s).isCompared = true) (h : D.FollowsByShape R t s)

/-! ## Monotonicity -/

section Mono

variable {D : Decls} {R S : Ty → Ty → Prop} (hRS : ∀ a b, R a b → S a b)
include hRS

theorem Provides.mono {source : List Member} {m : Member} (h : D.Provides R source m) :
    D.Provides S source m := by
  cases h with
  | unnamed hkey hc heq => exact .unnamed hkey hc heq
  | named hkey hfirst h => exact .named hkey hfirst (hRS _ _ h)
  | omitted hkey hnone hoptional => exact .omitted hkey hnone hoptional

theorem FollowsByShape.mono {t s : Ty} (h : D.FollowsByShape R t s) : D.FollowsByShape S t s := by
  cases h with
  | array ht hs h => exact .array ht hs (hRS _ _ h)
  | arrayOfTuple ht hs h => exact .arrayOfTuple ht hs fun b hb => hRS _ _ (h b hb)
  | union ht hb h => exact .union ht hb (hRS _ _ h)
  | inter ht h => exact .inter ht fun b hb => hRS _ _ (h b hb)
  | keyword ht h => exact .keyword ht h
  | enum ht hs => exact .enum ht hs
  | function ht hs hf hg h => exact .function ht hs hf hg (hRS _ _ h)
  | ctor ht hs hf hg h => exact .ctor ht hs hf hg (hRS _ _ h)
  | tuple ht hs h => exact .tuple ht hs (h.imp fun a b hab => hab.imp_left (hRS a b))
  | members ht hs h => exact .members ht hs fun m hm => (h m hm).mono hRS
  | alike hopen h => exact .alike hopen h

/-- A rule stays applicable when more questions hold. -/
theorem Follows.mono {t s : Ty} (h : D.Follows R t s) : D.Follows S t s := by
  cases h with
  | top ht => exact .top ht
  | unionSource ht hs h => exact .unionSource ht hs fun b hb => hRS _ _ (h b hb)
  | sameParam ht hs => exact .sameParam ht hs
  | bound ht hs hb h => exact .bound ht hs hb (hRS _ _ h)
  | emptyObject ht hs hb => exact .emptyObject ht hs hb
  | bottom ht hs => exact .bottom ht hs
  | unknownSource ht hs => exact .unknownSource ht hs
  | equal ht hs h => exact .equal ht hs h
  | shape ht hs h => exact .shape ht hs (h.mono hRS)

end Mono

/-! ## The greatest relation -/

/-- Every pair of the relation follows from pairs of it.  A missing annotation
counts as `any`. -/
def Consistent (D : Decls) (R : Ty → Ty → Prop) : Prop :=
  ∀ t s, R t s → D.Follows R t.orAny s.orAny

/-- Assignability as the greatest consistent relation. -/
def Assignable (D : Decls) (t s : Ty) : Prop := ∃ R, D.Consistent R ∧ R t s

/-- The greatest consistent relation is consistent. -/
theorem consistent_assignable (D : Decls) : D.Consistent D.Assignable := by
  rintro t s ⟨R, hR, hts⟩
  exact (hR t s hts).mono fun a b hab => ⟨R, hR, hab⟩

/-! ## Steps and rules -/

section Steps

variable {D : Decls} {span : Span} {ask : Ty → Ty → Verdict}

/-- The candidates of a member are asked about one question, that of the first
which goes together with it. -/
theorem assignMember_eq (m : Member) (cs : List Member) :
    D.assignMember ask m cs =
      match cs.findSome? (D.memberQuestion? m) with
      | none => .ok false
      | some (a, b) => (ask a b).map fun _ => true := by
  induction cs with
  | nil => rfl
  | cons c cs ih =>
    simp only [assignMember, List.findSome?_cons]
    cases D.memberQuestion? m c with
    | none => exact ih
    | some q => cases h : ask q.1 q.2 <;> simp [h, Except.map]

theorem providesMember_eq_ok_iff {source : List Member} {m : Member} :
    D.providesMember ask source m = .ok true ↔
      D.Provides (fun a b => ask a b = .ok ()) source m := by
  simp only [providesMember]
  cases hkey : m.key? with
  | none =>
    constructor
    · intro h
      obtain ⟨c, hc, heq⟩ := List.any_eq_true.1 (Except.ok.inj h)
      exact .unnamed hkey hc heq
    · intro h
      cases h with
      | unnamed _ hc heq => exact congrArg _ (List.any_eq_true.2 ⟨_, hc, heq⟩)
      | named hkey' => simp [hkey] at hkey'
      | omitted hkey' => simp [hkey] at hkey'
  | some key =>
    dsimp only
    rw [assignMember_eq]
    constructor
    · intro h
      cases hfirst : (findMembers source key).findSome? (D.memberQuestion? m) with
      | none => exact .omitted hkey hfirst (by simpa [hfirst, Except.map] using h)
      | some q =>
        refine .named hkey hfirst ?_
        cases hq : ask q.1 q.2 with
        | ok => rfl
        | error d => simp [hfirst, hq, Except.map] at h
    · intro h
      cases h with
      | unnamed hkey' => simp [hkey] at hkey'
      | named hkey' hfirst h =>
        obtain rfl := Option.some.inj (hkey.symm.trans hkey')
        simp [hfirst, h, Except.map]
      | omitted hkey' hnone hoptional =>
        obtain rfl := Option.some.inj (hkey.symm.trans hkey')
        simp [hnone, hoptional, Except.map]

theorem lackingMembers_eq_nil_iff {source ms : List Member} :
    D.lackingMembers ask source ms = .ok [] ↔
      ∀ m ∈ ms, D.providesMember ask source m = .ok true := by
  induction ms with
  | nil => simp [lackingMembers]
  | cons m ms ih =>
    simp only [lackingMembers, List.forall_mem_cons]
    cases hm : D.providesMember ask source m with
    | error d => simp
    | ok provided =>
      rw [← ih]
      cases D.lackingMembers ask source ms <;> cases provided <;> simp [Except.map]

theorem assignMembers_eq_ok_iff {target source : List Member} :
    D.assignMembers span ask target source = .ok () ↔
      ∀ m ∈ target, D.Provides (fun a b => ask a b = .ok ()) source m := by
  simp only [assignMembers, ← providesMember_eq_ok_iff]
  rw [← lackingMembers_eq_nil_iff]
  split
  case h_1 h => simp [h]
  case h_2 h => simp [h, Verdict.holds]
  case h_3 hne h => simpa [h] using hne

theorem assignElements_eq_ok_iff : ∀ {ts ss : List Ty}, ss.length = ts.length →
    (D.assignElements ask ts ss = .ok () ↔
      List.Forall₂ (fun a b => ask a b = .ok () ∨ D.isKeyword b .undefined = true) ts ss)
  | [], [], _ => by simp [assignElements, Verdict.holds]
  | t :: ts, s :: ss, hlen => by
      have hrest : ss.length = ts.length := by simpa using hlen
      have ih := assignElements_eq_ok_iff hrest
      rw [assignElements, List.forall₂_cons, ← ih]
      cases h : ask t s with
      | ok => simp
      | error d => by_cases hs : D.isKeyword s .undefined = true <;> simp [hs]

theorem require_eq_ok_iff {b : Bool} {d : Diagnostic} : require b d = .ok () ↔ b = true := by
  cases b <;> simp [require, Verdict.holds]

theorem followsByShape_of_assignShape {t s : Ty} (h : D.assignShape span ask t s = .ok ()) :
    D.FollowsByShape (fun a b => ask a b = .ok ()) t s := by
  revert h
  apply D.assignShape_cases t s
    (motive := fun rule =>
      rule span ask = .ok () → D.FollowsByShape (fun a b => ask a b = .ok ()) t s)
  case array =>
    intro a b ht hs h
    cases hab : ask a b with
    | ok => exact .array ht hs hab
    | error d => simp [hab] at h
  case arrayOfTuple => exact fun a bs ht hs h => .arrayOfTuple ht hs (firstFailure_eq_ok_iff.1 h)
  case union =>
    intro bs ht h
    cases hbs : firstSuccess (ask · s) bs with
    | ok =>
      obtain ⟨b, hb, hask⟩ := firstSuccess_eq_ok_iff.1 hbs
      exact .union ht hb hask
    | error ds => simp [hbs] at h
  case inter =>
    intro bs ht h
    cases hbs : firstFailure (ask · s) bs with
    | ok => exact .inter ht (firstFailure_eq_ok_iff.1 hbs)
    | error d => simp [hbs] at h
  case keyword => exact fun k ht haccepts _ => .keyword ht haccepts
  case enum => exact fun name members isConst member ht hs _ => .enum ht hs
  case function => exact fun f g ht hs hf hg h => .function ht hs hf hg h
  case ctor => exact fun f g ht hs hf hg h => .ctor ht hs hf hg h
  case tuple => exact fun as bs ht hs hlen h => .tuple ht hs ((assignElements_eq_ok_iff hlen).1 h)
  case members => exact fun wanted given ht hs h => .members ht hs (assignMembers_eq_ok_iff.1 h)
  case alike => exact fun hopen hequal _ => .alike hopen hequal
  case unsupported | fails =>
    intros
    contradiction

/-- An object shape and a source that may have members are compared by them. -/
theorem assignShape_eq_members {t s : Ty} (ht : (D.head t).ownMembers?.isSome = true)
    (hs : (D.head s).isMemberless = false) :
    D.assignShape span ask t s =
      match D.allMembers? t, D.allMembers? s with
      | some wanted, some given => D.assignMembers span ask wanted given
      | _, _ => D.assignOtherwise span t s := by
  simp only [assignShape]
  generalize D.head t = target, D.head s = source at ht hs
  cases target <;> cases ht <;> cases source <;> first | rfl | cases hs

/-- Where no rule by shape decides, equality up to names does. -/
theorem assignShape_of_leavesOpen {t s : Ty} (h : (D.head t).leavesOpen (D.head s) = true) :
    D.assignShape span ask t s = D.assignOtherwise span t s := by
  have hmemberless (hown : (D.head t).ownMembers? = none) : D.allMembers? t = none := by
    simpa [hown] using D.isSome_allMembers? t
  cases htarget : D.head t with
  | object | interface | classType =>
    simp only [htarget, Ty.leavesOpen, Bool.and_eq_true, Bool.not_eq_true'] at h
    have hsource : D.allMembers? s = none := by
      simpa [Option.isNone_iff_eq_none.1 h.2] using D.isSome_allMembers? s
    rw [assignShape_eq_members (by simp [htarget, Ty.ownMembers?]) h.1, hsource]
    cases D.allMembers? t <;> rfl
  | function f | ctor f =>
    have hf : f.typeParams.isEmpty = false := by simpa [htarget, Ty.leavesOpen] using h
    simp [assignShape, htarget, hf]
  | missing | param | this | indexed | other | regExp | named =>
    simp [assignShape, htarget, hmemberless (by simp [htarget, Ty.ownMembers?])]
  | _ => simp [htarget, Ty.leavesOpen] at h

theorem assignShape_of_followsByShape {t s : Ty}
    (h : D.FollowsByShape (fun a b => ask a b = .ok ()) t s) :
    D.assignShape span ask t s = .ok () := by
  cases h with
  | array ht hs h => simp [assignShape, ht, hs, h, Verdict.holds]
  | arrayOfTuple ht hs h => simpa [assignShape, ht, hs] using firstFailure_eq_ok_iff.2 h
  | union ht hb h =>
    have hsome : firstSuccess (ask · s) _ = .ok () := firstSuccess_eq_ok_iff.2 ⟨_, hb, h⟩
    simp [assignShape, ht, hsome, Verdict.holds]
  | inter ht h =>
    have hall := firstFailure_eq_ok_iff.2 h
    simp [assignShape, ht, hall, Verdict.holds]
  | keyword ht h => simp [assignShape, ht, require_eq_ok_iff, h]
  | enum ht hs => simp [assignShape, ht, hs, require_eq_ok_iff]
  | function ht hs hf hg h => simp [assignShape, ht, hs, hf, assignSignature, hg, h]
  | ctor ht hs hf hg h => simp [assignShape, ht, hs, hf, assignSignature, hg, h]
  | tuple ht hs h =>
    have hlen := h.length_eq.symm
    simpa [assignShape, ht, hs, hlen] using (assignElements_eq_ok_iff hlen).2 h
  | members ht hs h =>
    have hsource : (D.head s).ownMembers?.isSome = true := by rw [← isSome_allMembers?, hs]; rfl
    rw [assignShape_eq_members (by rw [← isSome_allMembers?, ht]; rfl)
      (by cases hshape : D.head s <;> first | rfl | simp [hshape, Ty.ownMembers?] at hsource),
      ht, hs]
    exact assignMembers_eq_ok_iff.2 h
  | alike hopen h => rw [assignShape_of_leavesOpen hopen, assignOtherwise, require_eq_ok_iff, h]

theorem follows_of_assignStep {t s : Ty} (h : D.assignStep span ask t s = .ok ()) :
    D.Follows (fun a b => ask a b = .ok ()) t s := by
  revert h
  apply D.assignStep_cases t s
    (motive := fun rule => rule span ask = .ok () → D.Follows (fun a b => ask a b = .ok ()) t s)
  case top => exact fun ht _ => .top ht
  case unionSource =>
    intro bs hthis hs h
    refine .unionSource hthis hs (allFailures_eq_nil_iff.1 ?_)
    cases hfail : allFailures (ask t) bs with
    | nil => rfl
    | cons d ds => simp [hfail] at h
  case sameParam => exact fun name b c ht hs _ => .sameParam ht hs
  case bound => exact fun name b hthis hs hb h => .bound hthis hs hb h
  case emptyObject => exact fun name b ht hs hb _ => .emptyObject ht hs hb
  case bottom => exact fun hthis hs _ => .bottom hthis hs
  case unknownSource => exact fun ht hs _ => .unknownSource ht hs
  case equal => exact fun hthis hcompared hequal _ => .equal hthis hcompared hequal
  case shape =>
    exact fun hthis hcompared _ h =>
      .shape hthis hcompared (followsByShape_of_assignShape h)
  case this | fails =>
    intros
    contradiction

/-- A compared source goes to equality and then to the shapes, unless the target
accepts everything. -/
theorem assignStep_of_isCompared {t s : Ty} (ht : D.head t ≠ .this)
    (hs : (D.head s).isCompared = true) (htop : (D.head t).isTop = false) :
    D.assignStep span ask t s =
      if D.equal t s then .holds else D.assignShape span ask t s := by
  simp only [assignStep]
  generalize D.head t = target, D.head s = source at *
  split <;> first | rfl | simp_all [Ty.isCompared, Ty.isTop]

theorem assignStep_of_follows {t s : Ty} (h : D.Follows (fun a b => ask a b = .ok ()) t s) :
    D.assignStep span ask t s = .ok () := by
  by_cases htop : (D.head t).isTop = true
  · simp only [assignStep]
    generalize D.head t = target at htop
    unfold Ty.isTop at htop
    split at htop
    · rfl
    · rfl
    · cases htop
  have htop : (D.head t).isTop = false := by simpa using htop
  cases h with
  | top ht => simp [ht] at htop
  | unionSource ht hs h =>
    have hfail := allFailures_eq_nil_iff.2 h
    simp only [assignStep, hs]
    generalize D.head t = target at ht htop
    split <;> simp_all [Ty.isTop, Verdict.holds]
  | sameParam ht hs => simp [assignStep, ht, hs, Verdict.holds]
  | bound ht hs hb h =>
    simp only [assignStep, hs]
    generalize D.head t = target at ht htop
    split <;> simp_all [Ty.isTop, Verdict.holds]
  | emptyObject ht hs hb => simp [assignStep, ht, hs, hb, require, Verdict.holds]
  | bottom ht hs =>
    simp only [assignStep]
    generalize D.head t = target at ht htop
    rcases hs with hs | hs <;> rw [hs] <;> split <;> simp_all [Ty.isTop, Verdict.holds]
  | unknownSource ht hs => simp [assignStep, ht, hs, require, Verdict.holds]
  | equal ht hs h => simp [assignStep_of_isCompared ht hs htop, h, Verdict.holds]
  | shape ht hs h =>
    rw [assignStep_of_isCompared ht hs htop]
    split
    · rfl
    · exact assignShape_of_followsByShape h

/-- A step of the search succeeds exactly when a rule applies whose questions are
answered. -/
theorem assignStep_eq_ok_iff {t s : Ty} :
    D.assignStep span ask t s = .ok () ↔ D.Follows (fun a b => ask a b = .ok ()) t s :=
  ⟨follows_of_assignStep, assignStep_of_follows⟩

end Steps

end Decls

end StructuralTyping
