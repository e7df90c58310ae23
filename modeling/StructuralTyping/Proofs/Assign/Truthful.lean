import StructuralTyping.Proofs.Assign.Union

/-!
# Rejections tell the truth

A rejection is a tree.  Some rules wrap the failures that they meet, some collect them, and
some pass the first one on as it is, so a node may speak about any pair that the search came
to.  What it says is true of that pair all the same: a pair that is said to fail fails when
it is asked about from the start, and fields that are said to be missing have no counterpart.

`assignStep_error` says what one step can fail with: an answer that it was given, or a node
about its own pair above such answers.  By induction on the depth every node speaks about a
pair that the search rejected on its way (`isTruthful_of_assignWithin`).  Such a pair is not
assignable, whatever questions were open, unless the depth is to blame.  So the pair is
rejected with an empty stack as well.
-/

namespace StructuralTyping

/-! ## Failures among questions -/

section Lists

variable {ask : α → Verdict} {xs : List α} {d : Diagnostic}

theorem exists_of_firstFailure_eq_error (h : firstFailure ask xs = .error d) :
    ∃ x ∈ xs, ask x = .error d := by
  induction xs with
  | nil => cases h
  | cons x xs ih =>
    rw [firstFailure] at h
    cases hx : ask x with
    | ok =>
      obtain ⟨y, hy, hask⟩ := ih (by simpa [hx] using h)
      exact ⟨y, .tail _ hy, hask⟩
    | error e => exact ⟨x, .head _, by simpa [hx] using h⟩

theorem exists_of_mem_allFailures (h : d ∈ allFailures ask xs) : ∃ x ∈ xs, ask x = .error d := by
  obtain ⟨x, hx, hfail⟩ := List.mem_filterMap.1 h
  cases hask : ask x with
  | ok => simp [hask, Verdict.failure?] at hfail
  | error e => exact ⟨x, hx, by simpa [hask, Verdict.failure?] using hfail⟩

theorem exists_of_firstSuccess_eq_error {ds : List Diagnostic}
    (h : firstSuccess ask xs = .error ds) : ∀ d ∈ ds, ∃ x ∈ xs, ask x = .error d := by
  induction xs generalizing ds with
  | nil =>
    cases h
    simp
  | cons x xs ih =>
    rw [firstSuccess] at h
    cases hx : ask x with
    | ok => simp [hx] at h
    | error e =>
      cases hrest : firstSuccess ask xs with
      | ok => simp [hx, hrest] at h
      | error es =>
        obtain rfl : e :: es = ds := by simpa [hx, hrest] using h
        refine List.forall_mem_cons.2 ⟨⟨x, .head _, hx⟩, fun d hd => ?_⟩
        obtain ⟨y, hy, hask⟩ := ih hrest d hd
        exact ⟨y, .tail _ hy, hask⟩

end Lists

namespace Decls

variable {D : Decls} {span : Span} {maxDepth : Int} {ask : Ty → Ty → Verdict} {t s : Ty}
  {d : Diagnostic}

/-! ## Members and elements -/

section Parts

variable {source : List Member} {m : Member}

theorem exists_of_providesMember_eq_error (h : D.providesMember ask source m = .error d) :
    ∃ a b, ask a b = .error d := by
  simp only [providesMember] at h
  split at h
  · cases h
  · rw [assignMember_eq] at h
    split at h
    · cases h
    · next a b _ =>
      cases hask : ask a b with
      | ok => simp [hask, Except.map] at h
      | error e => exact ⟨a, b, by simpa [hask, Except.map] using h⟩

/-- A member that is lacking would be lacking if all questions held. -/
theorem not_provides_of_providesMember (h : D.providesMember ask source m = .ok false) :
    ¬ D.Provides (fun _ _ => True) source m := by
  intro hprovides
  simp only [providesMember] at h
  cases hprovides with
  | unnamed hkey hc heq =>
    have hany : source.any (D.memberEqualIgnoringNames m) = false := by simpa [hkey] using h
    exact absurd heq (by simpa using List.any_eq_false.1 hany _ hc)
  | @named key a b hkey hfirst =>
    simp only [hkey, assignMember_eq, hfirst] at h
    cases hask : ask a b <;> simp [hask, Except.map] at h
  | omitted hkey hnone hoptional => simp [hkey, assignMember_eq, hnone, hoptional, Except.map] at h

theorem isOptional_of_providesMember (h : D.providesMember ask source m = .ok false) :
    m.isOptional = false := by
  by_contra hoptional
  rw [Bool.not_eq_false] at hoptional
  have hkey : m.key?.isSome = true := by cases m <;> first | rfl | cases hoptional
  obtain ⟨key, hkey⟩ := Option.isSome_iff_exists.1 hkey
  simp only [providesMember, hkey, hoptional, Bool.or_true] at h
  cases hmember : D.assignMember ask m (findMembers source key) <;> simp [hmember, Except.map] at h

/-- The members that are lacking, in order. -/
theorem sublist_of_lackingMembers {ms fields : List Member}
    (h : D.lackingMembers ask source ms = .ok fields) :
    fields.Sublist ms ∧ ∀ m ∈ fields, D.providesMember ask source m = .ok false := by
  induction ms generalizing fields with
  | nil =>
    cases h
    simp
  | cons m ms ih =>
    simp only [lackingMembers] at h
    cases hm : D.providesMember ask source m with
    | error e => simp [hm] at h
    | ok provided =>
      cases hms : D.lackingMembers ask source ms with
      | error e => simp [hm, hms, Except.map] at h
      | ok rest =>
        obtain ⟨hrest, hlacking⟩ := ih hms
        cases provided with
        | true =>
          obtain rfl : rest = fields := by simpa [hm, hms, Except.map] using h
          exact ⟨hrest.cons m, hlacking⟩
        | false =>
          obtain rfl : m :: rest = fields := by simpa [hm, hms, Except.map] using h
          exact ⟨hrest.cons_cons m, List.forall_mem_cons.2 ⟨hm, hlacking⟩⟩

theorem exists_of_lackingMembers_eq_error {ms : List Member}
    (h : D.lackingMembers ask source ms = .error d) : ∃ a b, ask a b = .error d := by
  induction ms with
  | nil => cases h
  | cons m ms ih =>
    simp only [lackingMembers] at h
    cases hm : D.providesMember ask source m with
    | error e =>
      obtain rfl : e = d := by simpa [hm] using h
      exact exists_of_providesMember_eq_error hm
    | ok provided =>
      cases hms : D.lackingMembers ask source ms with
      | error e =>
        obtain rfl : e = d := by simpa [hm, hms, Except.map] using h
        exact ih hms
      | ok rest => simp [hm, hms, Except.map] at h

theorem exists_of_assignElements_eq_error :
    ∀ {ts ss : List Ty}, D.assignElements ask ts ss = .error d → ∃ a b, ask a b = .error d
  | t :: ts, s :: ss, h => by
      rw [assignElements] at h
      cases hask : ask t s with
      | ok => exact exists_of_assignElements_eq_error (by simpa [hask] using h)
      | error e =>
        rw [hask] at h
        dsimp only at h
        split at h
        · exact exists_of_assignElements_eq_error h
        · exact ⟨t, s, hask.trans h⟩
  | [], _, h | _ :: _, [], h => by cases h

end Parts

/-! ## What a node says -/

/-- The pair is rejected when it is asked about from the start. -/
def Rejects (D : Decls) (maxDepth : Int) (span : Span) (t s : Ty) : Prop :=
  ∃ d, D.assign maxDepth t s span = .error d

/-- What a node of a rejection says is true.  Types that are said to fail are rejected on
their own.  Fields that are said to be missing are fields of the target of a pair that is
rejected, in order; none of them is optional, and the source has nothing to ask about. -/
def IsTruthful (D : Decls) (maxDepth : Int) (span : Span) : Diagnostic → Prop
  | .assignFailed place target source _ => place = span ∧ D.Rejects maxDepth span target source
  | .unsupported place (.assigning source target) =>
    place = span ∧ D.Rejects maxDepth span target source
  | .unionFailed place causes => place = span ∧ causes ≠ []
  | .missingFields place fields =>
    place = span ∧ fields ≠ [] ∧ ∃ t s wanted given, D.Rejects maxDepth span t s ∧
      D.allMembers? t = some wanted ∧ D.allMembers? s = some given ∧
      fields.Sublist (wanted.filter fun m => !m.isOptional) ∧
      ∀ m ∈ fields, ¬ D.Provides (fun _ _ => True) given m
  | .intersectionFailed place _ | .cannotAssignToThis place => place = span
  | _ => False

/-- A failure is an answer, or it is a truthful node above answers. -/
def RestsOn (D : Decls) (maxDepth : Int) (span : Span) (ask : Ty → Ty → Verdict) (d : Diagnostic) :
    Prop :=
  (∃ a b, ask a b = .error d) ∨
    D.IsTruthful maxDepth span d ∧ ∀ c ∈ d.causes, ∃ a b, ask a b = .error c

/-! ## One step -/

section Step

variable (hrejects : D.Rejects maxDepth span t s)
include hrejects

theorem restsOn_fail : D.RestsOn maxDepth span ask (.assignFailed span t s []) :=
  .inr ⟨⟨rfl, hrejects⟩, by simp [Diagnostic.causes]⟩

theorem restsOn_unsupported : D.RestsOn maxDepth span ask (.unsupported span (.assigning s t)) :=
  .inr ⟨⟨rfl, hrejects⟩, by simp [Diagnostic.causes]⟩

theorem restsOn_assignMembers {wanted given : List Member} (ht : D.allMembers? t = some wanted)
    (hs : D.allMembers? s = some given) (h : D.assignMembers span ask wanted given = .error d) :
    D.RestsOn maxDepth span ask d := by
  rw [assignMembers] at h
  split at h
  · next e he =>
    cases h
    exact .inl (exists_of_lackingMembers_eq_error he)
  · cases h
  · next fields hsome hfields =>
    cases h
    obtain ⟨hsub, hlacking⟩ := sublist_of_lackingMembers hfields
    have hrequired : fields.filter (fun m => !m.isOptional) = fields :=
      List.filter_eq_self.2 fun m hm => by simp [isOptional_of_providesMember (hlacking m hm)]
    refine .inr ⟨⟨rfl, hsome, t, s, wanted, given, hrejects, ht, hs, ?_, fun m hm => ?_⟩, ?_⟩
    · exact hrequired ▸ hsub.filter _
    · exact not_provides_of_providesMember (hlacking m hm)
    · simp [Diagnostic.causes]

theorem assignShape_error (h : D.assignShape span ask t s = .error d) :
    D.RestsOn maxDepth span ask d := by
  revert h
  apply D.assignShape_cases t s
    (motive := fun rule => rule span ask = .error d → D.RestsOn maxDepth span ask d)
  case array =>
    -- The failure of the elements is wrapped.
    intro a b _ _ h
    cases hask : ask a b with
    | ok => simp [hask, Verdict.holds] at h
    | error e =>
      obtain rfl : Diagnostic.assignFailed span t s [e] = d := by simpa [hask] using h
      exact .inr ⟨⟨rfl, hrejects⟩, List.forall_mem_singleton.2 ⟨a, b, hask⟩⟩
  case arrayOfTuple =>
    intro a bs _ _ h
    obtain ⟨b, -, hask⟩ := exists_of_firstFailure_eq_error h
    exact .inl ⟨a, b, hask⟩
  case union =>
    intro bs _ h
    cases hbs : firstSuccess (ask · s) bs with
    | ok => simp [hbs, Verdict.holds] at h
    | error es =>
      obtain rfl : Diagnostic.assignFailed span t s es = d := by simpa [hbs] using h
      refine .inr ⟨⟨rfl, hrejects⟩, fun c hc => ?_⟩
      obtain ⟨b, -, hask⟩ := exists_of_firstSuccess_eq_error hbs c hc
      exact ⟨b, s, hask⟩
  case inter =>
    intro bs _ h
    cases hbs : firstFailure (ask · s) bs with
    | ok => simp [hbs, Verdict.holds] at h
    | error e =>
      obtain rfl : Diagnostic.intersectionFailed span e = d := by simpa [hbs] using h
      obtain ⟨b, -, hask⟩ := exists_of_firstFailure_eq_error hbs
      exact .inr ⟨rfl, List.forall_mem_singleton.2 ⟨b, s, hask⟩⟩
  case function | ctor => exact fun f g _ _ _ _ h => .inl ⟨f.result, g.result, h⟩
  case tuple => exact fun as bs _ _ _ h => .inl (exists_of_assignElements_eq_error h)
  case members => exact fun wanted given ht hs h => restsOn_assignMembers hrejects ht hs h
  case unsupported =>
    rintro - - ⟨⟩
    exact restsOn_unsupported hrejects
  case keyword | enum | alike =>
    intros
    contradiction
  case fails =>
    rintro ⟨⟩
    exact restsOn_fail hrejects

/-- A step fails with an answer, or with a truthful node above answers. -/
theorem assignStep_error (h : D.assignStep span ask t s = .error d) :
    D.RestsOn maxDepth span ask d := by
  revert h
  apply D.assignStep_cases t s
    (motive := fun rule => rule span ask = .error d → D.RestsOn maxDepth span ask d)
  case this =>
    rintro - ⟨⟩
    exact .inr ⟨rfl, by simp [Diagnostic.causes]⟩
  case unionSource =>
    intro bs _ _ h
    cases hfail : allFailures (ask t) bs with
    | nil => simp [hfail, Verdict.holds] at h
    | cons e es =>
      obtain rfl : Diagnostic.unionFailed span (e :: es) = d := by simpa [hfail] using h
      refine .inr ⟨⟨rfl, by simp⟩, fun c hc => ?_⟩
      obtain ⟨b, -, hask⟩ := exists_of_mem_allFailures (hfail ▸ hc)
      exact ⟨t, b, hask⟩
  case bound => exact fun name b _ _ _ h => .inl ⟨t, b, h⟩
  case shape => exact fun _ _ _ h => assignShape_error hrejects h
  case top | sameParam | emptyObject | bottom | unknownSource | equal =>
    intros
    contradiction
  case fails =>
    rintro ⟨⟩
    exact restsOn_fail hrejects

end Step

/-! ## The whole search -/

theorem rejects_of_not_assignable (h : ¬ D.Assignable t s) : D.Rejects maxDepth span t s := by
  cases hassign : D.assign maxDepth t s span with
  | ok => exact absurd ((D.assign_decides maxDepth t s span).1 hassign) h
  | error d => exact ⟨d, hassign⟩

/-- Every node of a failure that does not mention the depth is truthful, whatever questions
are open. -/
theorem isTruthful_of_assignWithin {fuel : Nat} {opened : List Pair} {e : Diagnostic}
    (h : D.assignWithin span fuel opened t s = .error d) (hd : ¬ d.TooDeep) (he : d.HasNode e) :
    D.IsTruthful maxDepth span e := by
  induction fuel generalizing opened t s d with
  | zero =>
    cases h
    exact absurd (Diagnostic.tooDeep_unsupported span) hd
  | succ fuel ih =>
    have hsame : D.assignWithin span (fuel + 1) opened t.orAny s.orAny = .error d := by
      simpa only [assignWithin, Ty.orAny_orAny] using h
    have hrejects : D.Rejects maxDepth span t.orAny s.orAny :=
      rejects_of_not_assignable fun hassignable => hd (tooDeep_of_assignWithin hassignable hsame)
    simp only [assignWithin] at h
    split at h
    · cases h
    · rcases assignStep_error hrejects h with ⟨a, b, hask⟩ | ⟨hroot, hcauses⟩
      · exact ih hask hd he
      · cases he with
        | root => exact hroot
        | cause hc he =>
          obtain ⟨a, b, hask⟩ := hcauses _ hc
          exact ih hask (fun hdeep => hd (hdeep.of_cause hc)) he

/-- A rejection that does not mention the depth is rooted in a failed assignment, and every
node of it is truthful. -/
theorem isTruthful_of_assign (h : D.assign maxDepth t s span = .error d) (hd : ¬ d.TooDeep) :
    (∃ target source causes, d = .assignFailed span target source causes) ∧
      ∀ e, d.HasNode e → D.IsTruthful maxDepth span e := by
  have hrejects : D.Rejects maxDepth span t s := ⟨d, h⟩
  rw [assign] at h
  split at h
  · cases h
  · next place target source causes hwithin =>
    cases h
    have hnodes : ∀ e, Diagnostic.HasNode (.assignFailed place target source causes) e →
        D.IsTruthful maxDepth span e := fun e he => isTruthful_of_assignWithin hwithin hd he
    obtain ⟨rfl, -⟩ := hnodes _ (.root _)
    exact ⟨⟨target, source, causes, rfl⟩, hnodes⟩
  · next cause _ hwithin =>
    cases h
    refine ⟨⟨t, s, [cause], rfl⟩, fun e he => ?_⟩
    cases he with
    | root => exact ⟨rfl, hrejects⟩
    | cause hc he =>
      obtain rfl := List.mem_singleton.1 hc
      exact isTruthful_of_assignWithin hwithin (fun hdeep => hd (hdeep.of_cause hc)) he

/-- A union as the source, a union and an intersection as the target: failures are collected,
wrapped and passed on. -/
theorem isTruthful_of_assign_collected :
    let id : Member := .required "id" .number
    let named : Ty := .object [.required "name" .string]
    let numbered : Ty :=
      .object [.required "name" .string, .property ⟨"size", false⟩ .number true false, id]
    let pair : Ty := .tuple [.number, .string]
    let target : Ty := .union [.array .number, .inter [numbered]]
    let source : Ty := .union [pair, named]
    let span : Span := { line := 3, column := 1 }
    let tree : Diagnostic := .assignFailed span target source
      [.unionFailed span
        [.assignFailed span target pair
          [.assignFailed span .number .string [],
            .intersectionFailed span (.assignFailed span numbered pair [])],
        .assignFailed span target named
          [.assignFailed span (.array .number) named [],
            .intersectionFailed span (.missingFields span [id])]]]
    empty.assign 4 target source span = .error tree ∧ ¬ tree.TooDeep ∧
      ∀ e, tree.HasNode e → empty.IsTruthful 4 span e := by
  intro id named numbered pair target source span tree
  have hrejected : empty.assign 4 target source span = .error tree := rfl
  have hdeep : ¬ tree.TooDeep := by decide
  exact ⟨hrejected, hdeep, (isTruthful_of_assign hrejected hdeep).2⟩

end Decls

end StructuralTyping
