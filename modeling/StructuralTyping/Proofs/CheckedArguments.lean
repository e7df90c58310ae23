import StructuralTyping.Proofs.Overloads
import StructuralTyping.Ty.Build

/-!
# Checked arguments only restrict

A call that resolves where arguments are checked also resolves where they are not
(`Checker.resolves_of_checked`).  It may resolve to another type, since an overload or a branch
that the check refuses is then taken before the one that passes it.

Unions, intersections and overloads try alternatives and keep the first success.  They succeed
if and only if one of the alternatives does (`Inference.succeeds_firstSuccess_bind`), so it does
not matter which.  The number of arguments alone decides which signatures are tried.  The check
itself is the last step of instantiating a signature, and nothing is done with its result.
-/

namespace StructuralTyping

/-! ## Programs that succeed -/

namespace Inference

/-- The program ends with a success. -/
def Succeeds (ask : Question → Infer Ty) (assign : Ty → Ty → Span → Infer Unit) (m : Inference α) :
    Prop :=
  ∃ a, m.outcome ask assign = .ok a

section Succeeds

variable {ask : Question → Infer Ty} {assign : Ty → Ty → Span → Infer Unit}

theorem succeeds_pure (a : α) : (pure a).Succeeds ask assign := ⟨a, rfl⟩

theorem not_succeeds_fail (d : Diagnostic) : ¬ (fail d : Inference α).Succeeds ask assign := nofun

theorem succeeds_map_iff {m : Inference α} {f : α → β} :
    (do return f (← m) : Inference β).Succeeds ask assign ↔ m.Succeeds ask assign := by
  unfold Succeeds
  rw [outcome_bind]
  cases m.outcome ask assign with
  | ok a => exact ⟨fun _ => ⟨a, rfl⟩, fun _ => ⟨f a, rfl⟩⟩
  | error d => exact ⟨nofun, nofun⟩

/-- Alternatives that are tried in order succeed if one of them does. -/
theorem succeeds_firstSuccess_bind {f : α → Inference β} {xs : List α}
    {next : Except (List Diagnostic) β → Inference γ}
    (hok : ∀ b, (next (.ok b)).Succeeds ask assign)
    (herror : ∀ ds, ¬ (next (.error ds)).Succeeds ask assign) :
    (firstSuccess f xs >>= next).Succeeds ask assign ↔ ∃ x ∈ xs, (f x).Succeeds ask assign := by
  obtain ⟨ds, hattempts⟩ := outcome_firstSuccess ask assign f xs
  have hsome : (∃ x ∈ xs, (f x).Succeeds ask assign) ↔
      (xs.findSome? fun x => ((f x).outcome ask assign).toOption).isSome = true := by
    rw [List.findSome?_isSome_iff]
    refine exists_congr fun x => and_congr_right fun _ => ?_
    unfold Succeeds
    cases (f x).outcome ask assign with
    | ok b => exact ⟨fun _ => rfl, fun _ => ⟨b, rfl⟩⟩
    | error d => exact ⟨nofun, nofun⟩
  rw [hsome]
  unfold Succeeds
  rw [outcome_bind, hattempts]
  cases xs.findSome? fun x => ((f x).outcome ask assign).toOption with
  | some b => exact ⟨fun _ => rfl, fun _ => hok b⟩
  | none => exact ⟨fun h => absurd h (herror ds), nofun⟩

end Succeeds

end Inference

/-- The options with the check of arguments turned on or off. -/
def Options.checking (o : Options) (isChecked : Bool) : Options :=
  { o with checkArguments := isChecked }

namespace Checker

open Inference (Succeeds succeeds_pure not_succeeds_fail succeeds_map_iff
  succeeds_firstSuccess_bind)

variable {site : CallSite}

section Branches

variable {ask : Question → Infer Ty} {assign : Ty → Ty → Span → Infer Unit}

theorem succeeds_firstBranch_iff {callee : Ty} {f : Ty → Inference Ty} {bs : List Ty} :
    (firstBranch site callee f bs).Succeeds ask assign ↔ ∃ b ∈ bs, (f b).Succeeds ask assign := by
  refine succeeds_firstSuccess_bind succeeds_pure fun ds => ?_
  cases ds <;> exact not_succeeds_fail _

theorem succeeds_someBranch_iff {callee : Ty} {f : Ty → Inference Ty} {bs : List Ty} :
    (someBranch site callee f bs).Succeeds ask assign ↔ ∃ b ∈ bs, (f b).Succeeds ask assign :=
  succeeds_firstSuccess_bind succeeds_pure fun _ => not_succeeds_fail _

section Mono

variable {ask' : Question → Infer Ty} {assign' : Ty → Ty → Span → Infer Unit} {callee : Ty}
  {f f' : Ty → Inference Ty} {bs : List Ty}
  (hf : ∀ b, (f b).Succeeds ask assign → (f' b).Succeeds ask' assign')
include hf

/-- Where the program for every branch succeeds again, so does the one for a union. -/
theorem succeeds_firstBranch (h : (firstBranch site callee f bs).Succeeds ask assign) :
    (firstBranch site callee f' bs).Succeeds ask' assign' := by
  obtain ⟨b, hb, h⟩ := succeeds_firstBranch_iff.1 h
  exact succeeds_firstBranch_iff.2 ⟨b, hb, hf b h⟩

theorem succeeds_someBranch (h : (someBranch site callee f bs).Succeeds ask assign) :
    (someBranch site callee f' bs).Succeeds ask' assign' := by
  obtain ⟨b, hb, h⟩ := succeeds_someBranch_iff.1 h
  exact succeeds_someBranch_iff.2 ⟨b, hb, hf b h⟩

end Mono

end Branches

/-! ## Calls without the check -/

section Unchecked

variable {D : Decls} {S : Scope} {o : Options}
variable {ask ask' : Question → Infer Ty} {assign assign' : Ty → Ty → Span → Infer Unit}

theorem succeeds_instantiate (s : Signature)
    (h : (instantiate ⟨D, S, o.checking true⟩ s site).Succeeds ask assign) :
    (instantiate ⟨D, S, o.checking false⟩ s site).Succeeds ask' assign' := by
  unfold instantiate at h ⊢
  split at h
  · exact absurd h (not_succeeds_fail _)
  · next htypes =>
    split at h
    · exact absurd h (not_succeeds_fail _)
    · next hlength =>
      rw [if_neg htypes, if_neg hlength]
      exact succeeds_pure _

theorem succeeds_pickSignature_iff {C : Checker} {sigs : List Signature} {callee : Ty}
    (hlength : 2 ≤ sigs.length) (h : exactSignatures sigs site.args.length = []) :
    (C.pickSignature sigs callee site).Succeeds ask assign ↔
      ∃ s ∈ sigs.filter (canTake site.args.length), (C.instantiate s site).Succeeds ask assign := by
  rw [pickSignature_of_not_exact hlength h]
  dsimp only
  exact succeeds_firstSuccess_bind succeeds_pure fun _ => not_succeeds_fail _

/-- The number of arguments decides which signatures are tried. -/
theorem succeeds_pickSignature {sigs : List Signature} {callee : Ty}
    (h : (pickSignature ⟨D, S, o.checking true⟩ sigs callee site).Succeeds ask assign) :
    (pickSignature ⟨D, S, o.checking false⟩ sigs callee site).Succeeds ask' assign' := by
  match sigs with
  | [] => exact absurd h (not_succeeds_fail _)
  | [s] => exact succeeds_instantiate s h
  | s :: r :: rest =>
    have hlength : 2 ≤ (s :: r :: rest).length := by simp
    cases hcase : exactSignatures (s :: r :: rest) site.args.length with
    | nil =>
      obtain ⟨t, ht, h⟩ := (succeeds_pickSignature_iff hlength hcase).1 h
      exact (succeeds_pickSignature_iff hlength hcase).2 ⟨t, ht, succeeds_instantiate t h⟩
    | cons found others =>
      cases others with
      | nil =>
        rw [pickSignature_of_single hcase] at h ⊢
        exact succeeds_instantiate found h
      | cons =>
        rw [pickSignature_of_ambiguous (by simp [hcase])] at h
        exact absurd h (not_succeeds_fail _)

theorem succeeds_extractStep {callee : Ty}
    (hask : ∀ callee, (Inference.ask (.extract callee site)).Succeeds ask assign →
      (Inference.ask (.extract callee site)).Succeeds ask' assign')
    (h : (extractStep ⟨D, S, o.checking true⟩ callee site).Succeeds ask assign) :
    (extractStep ⟨D, S, o.checking false⟩ callee site).Succeeds ask' assign' := by
  have hinstantiate (s : Signature)
      (h : (do return (← instantiate ⟨D, S, o.checking true⟩ s site).orAny : Inference Ty).Succeeds
        ask assign) :
      (do return (← instantiate ⟨D, S, o.checking false⟩ s site).orAny : Inference Ty).Succeeds
        ask' assign' :=
    succeeds_map_iff.2 (succeeds_instantiate s (succeeds_map_iff.1 h))
  simp only [extractStep] at h ⊢
  cases hmembers : D.allMembers? callee with
  | some ms =>
    simp only [hmembers] at h ⊢
    exact succeeds_map_iff.2 (succeeds_pickSignature (succeeds_map_iff.1 h))
  | none =>
    simp only [hmembers] at h ⊢
    cases hhead : D.head callee with
    | function s =>
      simp only [hhead] at h ⊢
      cases hnew : site.isNew with
      | true => exact absurd (by simpa [hnew] using h) (not_succeeds_fail _)
      | false => exact hinstantiate s (by simpa [hnew] using h)
    | ctor s =>
      simp only [hhead] at h ⊢
      cases hnew : site.isNew with
      | true => exact hinstantiate s (by simpa [hnew] using h)
      | false => exact absurd (by simpa [hnew] using h) (not_succeeds_fail _)
    | union bs =>
      simp only [hhead] at h ⊢
      exact succeeds_firstBranch hask h
    | inter bs =>
      simp only [hhead] at h ⊢
      exact succeeds_someBranch hask h
    | param name bound =>
      simp only [hhead] at h ⊢
      split at h
      · exact absurd h (not_succeeds_fail _)
      · next hbound =>
        rw [if_neg hbound]
        exact hask bound h
    | _ =>
      simp only [hhead] at h ⊢
      by_cases hany : D.isAny callee = true
      · rw [if_pos hany]
        exact succeeds_pure _
      · rw [if_neg hany] at h
        exact absurd h (not_succeeds_fail _)

theorem succeeds_extractMemberStep {object : Ty} {key : PropKey}
    (hask : ∀ callee, (Inference.ask (.extract callee site)).Succeeds ask assign →
      (Inference.ask (.extract callee site)).Succeeds ask' assign')
    (haskMember : ∀ object, (Inference.ask (.extractMember object key site)).Succeeds ask assign →
      (Inference.ask (.extractMember object key site)).Succeeds ask' assign')
    (h : (extractMemberStep ⟨D, S, o.checking true⟩ object key site).Succeeds ask assign) :
    (extractMemberStep ⟨D, S, o.checking false⟩ object key site).Succeeds ask' assign' := by
  simp only [extractMemberStep] at h ⊢
  cases hmembers : D.allMembers? object with
  | some ms =>
    simp only [hmembers] at h ⊢
    cases hcandidates : candidates (findMembers ms key) with
    | property t =>
      simp only [hcandidates] at h ⊢
      cases hmissing : t.isMissing with
      | true => exact succeeds_pure _
      | false =>
        rw [hmissing] at h
        exact hask t h
    | methods ss =>
      simp only [hcandidates] at h ⊢
      exact succeeds_map_iff.2 (succeeds_pickSignature (succeeds_map_iff.1 h))
  | none =>
    simp only [hmembers] at h ⊢
    cases hhead : D.head object with
    | union bs =>
      simp only [hhead] at h ⊢
      exact succeeds_firstBranch haskMember h
    | inter bs =>
      simp only [hhead] at h ⊢
      exact succeeds_someBranch haskMember h
    | param name bound =>
      simp only [hhead] at h ⊢
      split at h
      · exact absurd h (not_succeeds_fail _)
      · next hbound =>
        rw [if_neg hbound]
        exact haskMember bound h
    | _ =>
      simp only [hhead] at h ⊢
      by_cases hany : D.isAny object = true
      · rw [if_pos hany]
        exact succeeds_pure _
      · rw [if_neg hany] at h
        by_cases hcomputed : key.computed = true
        · rw [if_pos hcomputed] at h
          exact absurd h (not_succeeds_fail _)
        · rw [if_neg hcomputed] at h
          exact absurd h (not_succeeds_fail _)

end Unchecked

/-! ## Any number of levels -/

theorem succeeds_answer {D : Decls} {S : Scope} {o : Options} (levels : Nat) {q : Question}
    (hq : ∀ e, q ≠ .typeOf e)
    (h : ∃ t, (answer ⟨D, S, o.checking true⟩ levels q).outcome = .ok t) :
    ∃ t, (answer ⟨D, S, o.checking false⟩ levels q).outcome = .ok t := by
  induction levels generalizing q with
  | zero => exact h
  | succ levels ih =>
    cases q with
    | typeOf e => exact absurd rfl (hq e)
    | extract callee site => exact succeeds_extractStep (fun callee => ih nofun) h
    | extractMember object key site =>
      exact succeeds_extractMemberStep (fun callee => ih nofun) (fun object => ih nofun) h

/-- A call of a value or of a member that resolves where arguments are checked also resolves
where they are not, whatever the callee and the arguments are and however deep the call is. -/
theorem resolves_of_checked (D : Decls) (S : Scope) (o : Options) (depth : Nat) :
    let resolves (isChecked : Bool) (q : Question) : Prop :=
      ∃ t, ((respond ⟨D, S, o.checking isChecked⟩ q).run ⟨depth, []⟩).1.outcome = .ok t
    (∀ callee site, resolves true (.extract callee site) → resolves false (.extract callee site)) ∧
      ∀ object key site, resolves true (.extractMember object key site) →
        resolves false (.extractMember object key site) := by
  intro resolves
  have hresolves {q : Question} (hq : ∀ e, q ≠ .typeOf e) (h : resolves true q) :
      resolves false q := by
    simp only [resolves, respond_eq_answer] at h ⊢
    exact succeeds_answer _ hq h
  exact ⟨fun callee site => hresolves nofun, fun object key site => hresolves nofun⟩

/-- An overload for texts and one for `null` with a rest parameter, in an intersection after a
function for texts, as the value and as a member of an object. -/
theorem resolves_of_checked_overloads :
    let rest (t : Ty) : Signature := .mk [] [.restOf "others" (.array t)] t
    let callee : Ty := .inter [.function (.mk [] [.plain "a" .string] .void),
      .object [.call (rest .string), .call (rest .null)]]
    let outcome (isChecked : Bool) (q : Question) :=
      ((respond ⟨{}, (Environment.scope {}), ({} : Options).checking isChecked⟩ q).run
        ⟨3, []⟩).1.outcome
    let call : Question := .extract callee (callWith false 1)
    let callMember : Question :=
      .extractMember (.object [.required "m" callee]) ⟨"m", false⟩ (callWith false 1)
    outcome true call = .ok .null ∧ (∃ t, outcome false call = .ok t) ∧
      outcome true callMember = .ok .null ∧ ∃ t, outcome false callMember = .ok t := by
  intro rest callee outcome call callMember
  have hcall : outcome true call = .ok .null := rfl
  have hcallMember : outcome true callMember = .ok .null := rfl
  have hresolves := resolves_of_checked {} (Environment.scope {}) {} 3
  exact ⟨hcall, hresolves.1 _ _ ⟨_, hcall⟩, hcallMember, hresolves.2 _ _ _ ⟨_, hcallMember⟩⟩

end Checker

end StructuralTyping
