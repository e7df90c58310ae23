import StructuralTyping.Proofs.Assign.Union

/-!
# Unions as targets

A source that is compared may be used for a union exactly where it may be used for one of
the branches: no rule but the one by shape looks at such a source together with a union
(`assignable_unionTarget_iff`).

A type parameter is not compared.  Its bound takes its place before the shape of the target
is looked at, so a bound that is a union is split, and its parts may be used for different
branches (`string_or_number_accepts_bound`).
-/

namespace StructuralTyping

namespace Decls

variable {D : Decls} {u c b : Ty} {bs : List Ty} {name : String}

theorem assignable_source_orAny_iff : D.Assignable u c.orAny ↔ D.Assignable u c := by
  rw [assignable_iff_follows, Ty.orAny_orAny, ← assignable_iff_follows]

theorem orAny_of_head_param (hc : D.head c = .param name b) : c.orAny = c := by
  cases c with
  | missing => cases hc
  | _ => rfl

/-- Nothing may be used for `this`. -/
theorem Assignable.ne_this (h : D.Assignable u c) : D.head u.orAny ≠ .this := by
  intro hthis
  cases assignable_iff_follows.1 h with
  | top ht => simp [hthis, Ty.isTop] at ht
  | sameParam ht | emptyObject ht | unknownSource ht => cases hthis.symm.trans ht
  | unionSource ht | bound ht | bottom ht | equal ht | shape ht => exact ht hthis

/-- A source that is compared may be used for a union where it may be used for a branch. -/
theorem assignable_unionTarget_iff (hu : D.head u = .union bs)
    (hc : (D.head c.orAny).isCompared = true) : D.Assignable u c ↔ ∃ b ∈ bs, D.Assignable b c := by
  have hthere := orAny_of_head_union hu
  constructor
  · intro h
    have hfollows := assignable_iff_follows.1 h
    rw [hthere] at hfollows
    cases hfollows with
    | top ht => simp [hu, Ty.isTop] at ht
    | unionSource _ hs | sameParam _ hs | bound _ hs | emptyObject _ hs | unknownSource _ hs =>
      simp [hs, Ty.isCompared] at hc
    | bottom _ hs => rcases hs with hs | hs <;> simp [hs, Ty.isCompared] at hc
    | equal _ _ hequal =>
      -- A type that is equal to a union is a union, and a union is not compared.
      have hlayer := isBisimulation_bisimilar u c.orAny (bisimilar_of_equalWithin (by simp) hequal)
      rw [hu] at hlayer
      obtain ⟨cs, hcs, -⟩ := hlayer.exists_union
      simp [hcs, Ty.isCompared] at hc
    | shape _ _ hshape =>
      cases hshape with
      | union ht hb hask =>
        obtain rfl := Ty.union.inj (hu.symm.trans ht)
        exact ⟨_, hb, assignable_source_orAny_iff.1 hask⟩
      | members ht =>
        have hown := D.isSome_allMembers? u
        simp [ht, hu, Ty.ownMembers?] at hown
      | alike hopen => simp [hu, Ty.leavesOpen] at hopen
      | array ht | arrayOfTuple ht | inter ht | keyword ht | enum ht | function ht
      | ctor ht | tuple ht =>
        cases hu.symm.trans ht
  · rintro ⟨b, hb, h⟩
    refine assignable_iff_follows.2 (.shape ?_ hc (.union ?_ hb (assignable_source_orAny_iff.2 h)))
    · simp [hthere, hu]
    · rw [hthere, hu]

/-- A type parameter may be used for a union where its bound may be used. -/
theorem assignable_unionTarget_param_iff (hu : D.head u = .union bs) (hc : D.head c = .param name b)
    (hb : b.isMissing = false) : D.Assignable u c ↔ D.Assignable u b := by
  have hthere := orAny_of_head_union hu
  have hcthere := orAny_of_head_param hc
  constructor
  · intro h
    have hfollows := assignable_iff_follows.1 h
    rw [hthere, hcthere] at hfollows
    cases hfollows with
    | top ht => simp [hu, Ty.isTop] at ht
    | sameParam ht | emptyObject ht | unknownSource ht => cases hu.symm.trans ht
    | unionSource _ hs => cases hc.symm.trans hs
    | bound _ hs _ hask =>
      obtain ⟨-, rfl⟩ := Ty.param.inj (hc.symm.trans hs)
      exact hask
    | bottom _ hs => rcases hs with hs | hs <;> cases hc.symm.trans hs
    | equal _ hs | shape _ hs => simp [hc, Ty.isCompared] at hs
  · intro h
    refine assignable_iff_follows.2 ?_
    rw [hthere, hcthere]
    exact .bound (by simp [hu]) hc hb h

/-- What accepts the bound of a type parameter accepts the type parameter. -/
theorem Assignable.of_bound (hc : D.head c = .param name b) (hb : b.isMissing = false)
    (h : D.Assignable u b) : D.Assignable u c := by
  refine assignable_iff_follows.2 ?_
  rw [orAny_of_head_param hc]
  exact .bound h.ne_this hc hb (assignable_orAny_iff.2 h)

/-- A union accepts a source that is compared exactly if one of its branches does.  It accepts
a type parameter if it accepts its bound, and if the bound is compared, a type parameter that
it accepts is accepted by one of the branches. -/
theorem isAssignable_unionTarget {m n : Nat} (hnestu : D.HasNesting m u) (hnestc : D.HasNesting n c)
    (hdepth : m + n ≤ defaultMaxDepth) (hu : D.head u = .union bs) :
    ((D.head c.orAny).isCompared = true →
        (D.isAssignable u c = true ↔ ∃ b ∈ bs, D.isAssignable b c = true)) ∧
      ∀ name b, D.head c = .param name b → b.isMissing = false →
        (D.isAssignable u b = true → D.isAssignable u c = true) ∧
          ((D.head b).isCompared = true → D.isAssignable u c = true →
            ∃ x ∈ bs, D.isAssignable x c = true) := by
  have hunion : D.isAssignable u c = true ↔ D.Assignable u c :=
    isAssignable_iff_assignable hnestu hnestc hdepth
  have hbranch : ∀ x ∈ bs, (D.isAssignable x c = true ↔ D.Assignable x c) := by
    intro x hx
    obtain ⟨k, rfl, hk⟩ := hnestu.exists_part (x := x) (by rw [hu]; exact hx)
    exact isAssignable_iff_assignable hk hnestc (by omega)
  rw [hunion]
  refine ⟨fun hc => ?_, fun name b hc hb => ⟨fun h => ?_, fun hcompared h => ?_⟩⟩
  · rw [assignable_unionTarget_iff hu hc]
    exact exists_congr fun x => and_congr_right fun hx => (hbranch x hx).symm
  · obtain ⟨k, rfl, hk⟩ := hnestc.exists_part (x := b) (by rw [hc]; exact .head _)
    exact ((isAssignable_iff_assignable hnestu hk (by omega)).1 h).of_bound hc hb
  · have hbound : D.Assignable u b := (assignable_unionTarget_param_iff hu hc hb).1 h
    obtain ⟨x, hx, h⟩ := (assignable_unionTarget_iff hu
      (by rwa [Ty.orAny_of_isMissing_eq_false hb])).1 hbound
    exact ⟨x, hx, (hbranch x hx).2 (h.of_bound hc hb)⟩

/-- A tuple is accepted by the branch that is an array, and a type parameter by the branch that
accepts its bound. -/
theorem isAssignable_unionTarget_elements :
    let elements : Ty := .union [.null, .array (.union [.string, .number])]
    let pair : Ty := .tuple [.string, .literal (.string "a")]
    let either : Ty := .union [.string, .null]
    (empty.isAssignable elements pair = true ∧
        ∃ b ∈ [.null, .array (.union [.string, .number])], empty.isAssignable b pair = true) ∧
      empty.isAssignable elements (.param "T" (.param "S" pair)) = true ∧
      empty.isAssignable either (.param "T" either) = true := by
  intro elements pair either
  have helements : empty.HasHeight 4 elements := by decide
  have heither : empty.HasHeight 2 either := by decide
  have hpair : empty.HasHeight 2 pair := by decide
  have hbound : empty.HasHeight 3 (.param "S" pair) := by decide
  have hparam : empty.HasHeight 4 (.param "T" (.param "S" pair)) := by decide
  have hchosen : empty.HasHeight 3 (.param "T" either) := by decide
  obtain ⟨hcompared, -⟩ :=
    isAssignable_unionTarget helements.hasNesting hpair.hasNesting (by decide) rfl
  obtain ⟨-, hinner⟩ :=
    isAssignable_unionTarget helements.hasNesting hbound.hasNesting (by decide) rfl
  obtain ⟨-, houter⟩ :=
    isAssignable_unionTarget helements.hasNesting hparam.hasNesting (by decide) rfl
  obtain ⟨-, hsplit⟩ :=
    isAssignable_unionTarget heither.hasNesting hchosen.hasNesting (by decide) rfl
  have haccepted : empty.isAssignable elements pair = true := by decide
  refine ⟨⟨haccepted, (hcompared rfl).1 haccepted⟩, ?_, ?_⟩
  · exact (houter "T" _ rfl rfl).1 ((hinner "S" _ rfl rfl).1 haccepted)
  · exact (hsplit "T" _ rfl rfl).1 (by decide)

/-- A type parameter that is bounded by `string | number` is no union, and is accepted by
`string | number`, but neither by `string` nor by `number`. -/
theorem string_or_number_accepts_bound :
    let u : Ty := .union [.string, .number]
    let c : Ty := .param "T" u
    empty.HasNesting 2 u ∧ empty.HasNesting 3 c ∧
      (∀ bs, empty.head c ≠ .union bs) ∧ empty.head c ≠ .any ∧ empty.head c ≠ .unknown ∧
      empty.head c ≠ .never ∧
      ¬ (empty.isAssignable u c = true ↔
        ∃ b ∈ [.string, .number], empty.isAssignable b c = true) := by
  intro u c
  have hu : empty.HasHeight 2 u := by decide
  have hc : empty.HasHeight 3 c := by decide
  have haccepted : empty.isAssignable u c = true := by decide
  have hrejected : ∀ b ∈ [Ty.string, Ty.number], empty.isAssignable b c = false := by decide
  refine ⟨hu.hasNesting, hc.hasNesting, nofun, nofun, nofun, nofun, fun h => ?_⟩
  obtain ⟨b, hb, h⟩ := h.1 haccepted
  rw [hrejected b hb] at h
  cases h

end Decls

end StructuralTyping
