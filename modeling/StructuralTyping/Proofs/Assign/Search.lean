import StructuralTyping.Proofs.Assign.Depth
import StructuralTyping.Proofs.Assign.Rules
import StructuralTyping.Proofs.Identity
import StructuralTyping.Ty.Build
import StructuralTyping.Ty.Declare

/-!
# The search decides assignability

The search takes a question that is still open for granted.  So an answer means
something only together with the open questions, and some of these may turn out
to fail.  `Decls.AssignableFrom` is assignability with open questions taken for
granted.  An answer that closes its own question needs the question no longer
(`assignableFrom_of_follows`), and so an accepted question follows from the
questions that were open before it (`assignableFrom_of_assignWithin`).

Where a question is assignable, the search can only fail for its depth
(`tooDeep_of_assignWithin`).  This holds under any open questions, since they
only help.

Together, `assign_decides` says that acceptance is membership in the greatest
consistent relation, and that a rejection which does not mention the depth is
non-membership.
-/

namespace StructuralTyping.Decls

variable {D : Decls} {span : Span}

/-! ## Acceptance -/

/-- Assignability with open questions taken for granted. -/
def AssignableFrom (D : Decls) (opened : List Pair) (t s : Ty) : Prop :=
  ∃ R : Ty → Ty → Prop,
    (∀ a b, R a b → D.Follows (fun x y => R x y ∨ (x.orAny, y.orAny) ∈ opened) a.orAny b.orAny) ∧
    R t s

theorem assignable_of_assignableFrom_nil {t s : Ty} (h : D.AssignableFrom [] t s) :
    D.Assignable t s := by
  obtain ⟨R, hR, hts⟩ := h
  refine ⟨R, fun a b hab => (hR a b hab).mono fun x y hxy => ?_, hts⟩
  simpa using hxy

/-- A question that follows when it is itself taken for granted follows without
that. -/
theorem assignableFrom_of_follows {opened : List Pair} {t s : Ty}
    (h : D.Follows (fun a b => D.AssignableFrom ((t.orAny, s.orAny) :: opened) a b ∨
      (a.orAny, b.orAny) ∈ (t.orAny, s.orAny) :: opened) t.orAny s.orAny) :
    D.AssignableFrom opened t s := by
  -- The question joins the relation that stands behind its answers.
  refine ⟨fun a b => D.AssignableFrom ((t.orAny, s.orAny) :: opened) a b ∨
    (a.orAny, b.orAny) = (t.orAny, s.orAny), ?_, .inr rfl⟩
  have hsplit : ∀ x y : Ty, (x.orAny, y.orAny) ∈ (t.orAny, s.orAny) :: opened →
      (x.orAny, y.orAny) = (t.orAny, s.orAny) ∨ (x.orAny, y.orAny) ∈ opened :=
    fun x y hxy => List.mem_cons.1 hxy
  rintro a b (⟨R, hR, hab⟩ | hab)
  · refine (hR a b hab).mono fun x y hxy => ?_
    rcases hxy with hxy | hxy
    · exact .inl (.inl ⟨R, hR, hxy⟩)
    · exact (hsplit x y hxy).imp .inr id
  · obtain ⟨ha, hb⟩ := Prod.mk.inj hab
    rw [ha, hb]
    refine h.mono fun x y hxy => ?_
    rcases hxy with hxy | hxy
    · exact .inl (.inl hxy)
    · exact (hsplit x y hxy).imp .inr id

/-- An accepted question is open, or follows from the open ones. -/
theorem assignableFrom_of_assignWithin {fuel : Nat} {opened : List Pair} {t s : Ty}
    (h : D.assignWithin span fuel opened t s = .ok ()) :
    D.AssignableFrom opened t s ∨ (t.orAny, s.orAny) ∈ opened := by
  induction fuel generalizing opened t s with
  | zero => simp [assignWithin] at h
  | succ fuel ih =>
    simp only [assignWithin] at h
    split at h
    · next hopen => exact .inr (mem_of_isOpen hopen)
    · exact .inl (assignableFrom_of_follows ((assignStep_eq_ok_iff.1 h).mono fun a b hab => ih hab))

/-! ## Rejection -/

/-- The search fails on assignable types for its depth only. -/
theorem tooDeep_of_assignWithin {fuel : Nat} {opened : List Pair} {t s : Ty} {d : Diagnostic}
    (hts : D.Assignable t s) (h : D.assignWithin span fuel opened t s = .error d) : d.TooDeep := by
  induction fuel generalizing opened t s d with
  | zero =>
    simp only [assignWithin, Except.error.injEq] at h
    exact h ▸ Diagnostic.tooDeep_unsupported span
  | succ fuel ih =>
    simp only [assignWithin] at h
    split at h
    · cases h
    · -- Compared with a search that knows all assignable questions, only depth makes a difference.
      classical
      let ask := D.assignWithin span fuel ((t.orAny, s.orAny) :: opened)
      let informed (a b : Ty) : Verdict := if D.Assignable a b then .ok () else ask a b
      have hkept : ∀ a b, KeptBy (ask a b) (informed a b) := by
        intro a b
        by_cases hab : D.Assignable a b
        · simp only [informed, if_pos hab]
          cases hask : ask a b with
          | ok => exact .refl _
          | error e => exact .of_tooDeep (ih hab hask) _
        · simp only [informed, if_neg hab]
          exact .refl _
      have hinformed : D.assignStep span informed t.orAny s.orAny = .ok () :=
        assignStep_eq_ok_iff.2 ((D.consistent_assignable t s hts).mono fun a b hab => if_pos hab)
      have hstep : KeptBy (D.assignStep span ask t.orAny s.orAny)
          (D.assignStep span informed t.orAny s.orAny) := assignStep_keptBy hkept t.orAny s.orAny
      rw [hinformed, h] at hstep
      by_contra hd
      cases hstep.eq_of_error hd

/-! ## Both -/

/-- The root that a rejection gets changes neither acceptance nor whether the depth
is mentioned. -/
theorem assign_cases (D : Decls) (maxDepth : Int) (t s : Ty) (span : Span) :
    (D.assignWithin span (depthLimit maxDepth + 1) [] t s = .ok () ∧
        D.assign maxDepth t s span = .ok ()) ∨
      ∃ d e, D.assignWithin span (depthLimit maxDepth + 1) [] t s = .error d ∧
        D.assign maxDepth t s span = .error e ∧ (d.TooDeep → e.TooDeep) := by
  simp only [assign]
  cases h : D.assignWithin span (depthLimit maxDepth + 1) [] t s with
  | ok => exact .inl ⟨rfl, rfl⟩
  | error d =>
    refine .inr ⟨d, ?_⟩
    cases d with
    | assignFailed => exact ⟨_, rfl, rfl, id⟩
    | _ => exact ⟨_, rfl, rfl, .of_cause (.head _)⟩

/-- Acceptance is membership in the greatest consistent relation, at every depth
limit, and a rejection that does not mention the depth is non-membership. -/
theorem assign_decides (D : Decls) (maxDepth : Int) (t s : Ty) (span : Span) :
    (D.assign maxDepth t s span = .ok () → D.Assignable t s) ∧
      ∀ d, D.assign maxDepth t s span = .error d → ¬ d.TooDeep → ¬ D.Assignable t s := by
  rcases D.assign_cases maxDepth t s span with ⟨hwithin, hassign⟩ | ⟨d, e, hwithin, hassign, hdeep⟩
  · refine ⟨fun _ => ?_, fun d herror => absurd (hassign.symm.trans herror) (by simp)⟩
    rcases assignableFrom_of_assignWithin hwithin with h | h
    · exact assignable_of_assignableFrom_nil h
    · cases h
  · refine ⟨fun hok => absurd (hassign.symm.trans hok) (by simp), ?_⟩
    intro d' herror hd hts
    rw [hassign] at herror
    cases herror
    exact hd (hdeep (tooDeep_of_assignWithin hts hwithin))

/-- Two chains, the links of the second with a number.  Each is a cyclic type. -/
def chains : Decls :=
  .ofDefinitions
    [("Chain", .object [.required "next" (.named (.given "Chain"))]),
      ("Numbered", .object
        [.required "next" (.named (.given "Numbered")), .required "value" .number])]

/-- A numbered chain may be used as a chain, link after link, but not the other way
round. -/
theorem assign_decides_chains :
    chains.Assignable (.named (.given "Chain")) (.named (.given "Numbered")) ∧
      ¬ chains.Assignable (.named (.given "Numbered")) (.named (.given "Chain")) :=
  ⟨(assign_decides chains 0 _ _ Span.none).1 rfl,
    (assign_decides chains 0 _ _ Span.none).2
      (.assignFailed Span.none (.named (.given "Numbered")) (.named (.given "Chain"))
        [.missingFields Span.none [.required "value" .number]]) rfl (by decide)⟩

end StructuralTyping.Decls
