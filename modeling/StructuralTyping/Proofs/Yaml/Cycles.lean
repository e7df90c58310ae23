import Mathlib.Data.Finset.Card
import Mathlib.Logic.Relation
import Mathlib.Order.WellFounded
import StructuralTyping.Proofs.Yaml.Calls
import StructuralTyping.Proofs.Yaml.Tags

/-!
# Aliases that lead back to themselves

Expanding aliases ends on every graph of aliases.  A call asks for calls about nodes inside, or
it expands one more target, so the targets that are left and the depth of the node bound what is
below a call (`Anchors.bound`).  The steps that are counted are enough, and the outcome of a
call is put together from the outcomes of the calls that it asks for (`Anchors.answer_eq_step`).
What need not end is looking up the tag of an alias (`Anchors.TagLoops`), which is done
where a literal, fields or items are wanted, without regard to the targets that are being
expanded.

An alias that refers to itself is reported if and only if it is met.  The targets that are
being expanded are a path of references (`Anchors.Path`), so an alias of one of them closes a
cycle.  And a call that succeeds has asked only for calls that succeed
(`Anchors.AsksFor.succeeds`), so that none of them was such an alias.
-/

namespace StructuralTyping.Yaml.Anchors

open TypeSource (Names)

variable {A : Anchors} {root n : Node} {c d : Call} {fuel : Nat}

/-! ## Termination -/

/-- A bound for the calls below a call. -/
def bound (A : Anchors) (c : Call) : Nat :=
  A.unvisited c.expanding * (Node.depths A + 1) + c.node.depth

theorem Below.bound_lt (h : A.Below d c) : A.bound d < A.bound c := by
  cases h with
  | inside hdepth => exact Nat.add_lt_add_left hdepth _
  | @target expanding _ _ i name t m hfresh htarget =>
    have hlt := unvisited_cons_lt (List.getElem?_eq_some_iff.1 htarget).1 hfresh
    have hdepth := Node.depth_le_depths (List.mem_of_getElem? htarget)
    calc A.unvisited (t :: expanding) * (Node.depths A + 1) + m.depth
        < (A.unvisited (t :: expanding) + 1) * (Node.depths A + 1) := by rw [Nat.succ_mul]; omega
      _ ≤ A.unvisited expanding * (Node.depths A + 1) := Nat.mul_le_mul_right _ hlt
      _ ≤ _ := Nat.le_add_right _ _

theorem wellFounded_below (A : Anchors) : WellFounded A.Below :=
  Subrelation.wf Below.bound_lt (measure A.bound).wf

/-- Two successes with related values, or the same failure. -/
inductive Matches (R : α → α → Prop) : Outcome α → Outcome α → Prop where
  | ok {a b : α} (h : R a b) : Matches R (.ok a) (.ok b)
  | error (p : Problem) : Matches R (.error p) (.error p)

theorem matches_eq_iff {x y : Outcome α} : Matches Eq x y ↔ x = y := by
  constructor
  · rintro (rfl | p) <;> rfl
  · rintro rfl
    cases x with
    | ok a => exact .ok rfl
    | error p => exact .error p

/-- The same outcome. -/
def matching : OutcomeComparison where
  Admits _ := True
  admits _ := trivial
  Holds := Matches
  ok h := .ok h
  error _ _ _ := .error _
  bind h hfg := by
    cases h with
    | ok h => exact hfg _ _ h
    | error p => exact .error p
  inPart _ _ h := by
    cases h with
    | ok h => exact .ok h
    | error p => exact .error _

/-- A call does not depend on calls that are not below it. -/
theorem step_congr {answer answer' : Call → Outcome Ty}
    (h : ∀ d, A.Below d c → answer d = answer' d) : A.step answer c = A.step answer' c :=
  matches_eq_iff.1 (related_step matching (fun d hd => matches_eq_iff.2 (h d hd))
    (fun _ _ _ => trivial) fun _ _ _ _ _ => .error _)

/-- More steps than the bound make no difference. -/
theorem run_succ_of_bound (h : A.bound c < fuel) : A.run (fuel + 1) c = A.run fuel c := by
  induction fuel generalizing c with
  | zero => exact absurd h (Nat.not_lt_zero _)
  | succ fuel ih =>
    rw [run_succ, run_succ]
    exact step_congr fun d hd => ih (Nat.lt_of_lt_of_le hd.bound_lt (Nat.le_of_lt_succ h))

/-- The outcome of a call. -/
def answer (A : Anchors) (c : Call) : Outcome Ty := A.run (A.bound c + 1) c

theorem run_eq_answer (h : A.bound c < fuel) : A.run fuel c = A.answer c := by
  induction fuel, h using Nat.le_induction with
  | base => rfl
  | succ fuel h ih => exact (run_succ_of_bound h).trans ih

/-- The outcome of a call is put together from the outcomes of the calls below it. -/
theorem answer_eq_step (A : Anchors) (c : Call) : A.answer c = A.step A.answer c := by
  rw [answer, run_succ]
  exact step_congr fun d hd => run_eq_answer hd.bound_lt

theorem bound_lt_decodeFuel (N : Names) (n : Node) : A.bound ⟨[], N, n⟩ < A.decodeFuel n := by
  calc A.bound ⟨[], N, n⟩ = A.length * (Node.depths A + 1) + n.depth := by rw [bound, unvisited_nil]
    _ < A.length * (max n.depth (Node.depths A) + 1) + (max n.depth (Node.depths A) + 1) :=
      Nat.add_lt_add_of_le_of_lt (Nat.mul_le_mul_left _ (by omega)) (by omega)
    _ = A.decodeFuel n := (Nat.succ_mul _ _).symm

/-- The steps that are counted are enough for a node. -/
theorem decodeWithin_eq_answer (N : Names) (h : A.decodeFuel n ≤ fuel) :
    A.decodeWithin fuel [] N n = A.answer ⟨[], N, n⟩ :=
  run_eq_answer (Nat.lt_of_lt_of_le (bound_lt_decodeFuel N n) h)

/-! ## Calls that are asked for -/

/-- The outcome of a call depends on the answer to another one. -/
def AsksFor (A : Anchors) (answer : Call → Outcome Ty) (c d : Call) : Prop :=
  ∃ answer' : Call → Outcome Ty, (∀ e, e ≠ d → answer' e = answer e) ∧
    A.step answer' c ≠ A.step answer c

theorem AsksFor.below {answer : Call → Outcome Ty} (h : A.AsksFor answer c d) : A.Below d c := by
  by_contra hbelow
  obtain ⟨answer', hsame, hne⟩ := h
  exact hne (step_congr fun e he => hsame e fun heq => hbelow (heq ▸ he))

/-- What a call that succeeds has asked for succeeds. -/
theorem AsksFor.succeeds {answer : Call → Outcome Ty} {t : Ty} (h : A.AsksFor answer c d)
    (hc : A.step answer c = .ok t) : ∃ u, answer d = .ok u := by
  cases hd : answer d with
  | ok u => exact ⟨u, rfl⟩
  | error p =>
    obtain ⟨answer', hsame, hne⟩ := h
    -- Where another answer is looked at instead of the failure, all the more succeeds.
    have hanswers (e : Call) : Refines Eq (answer e) (answer' e) := by
      by_cases heq : e = d
      · rw [heq, hd]
        exact .error p _
      · rw [hsame e heq]
        exact .refl _
    have hstep : Refines Eq (A.step answer c) (A.step answer' c) :=
      related_step .refining (fun e _ => hanswers e) (fun _ _ _ => trivial)
        fun _ _ _ _ _ => .error _ _
    obtain ⟨_, hok, rfl⟩ := hstep t hc
    exact absurd (hok.trans hc.symm) hne

theorem succeeds_of_reflTransGen {t : Ty} (h : Relation.ReflTransGen (A.AsksFor A.answer) c d)
    (hc : A.answer c = .ok t) : ∃ u, A.answer d = .ok u := by
  induction h with
  | refl => exact ⟨t, hc⟩
  | tail _ hasks ih =>
    obtain ⟨u, hu⟩ := ih
    exact hasks.succeeds ((A.answer_eq_step _).symm.trans hu)

/-- A call that succeeds does not ask for an alias inside its own target. -/
theorem not_mem_expanding_of_asked {t : Ty} (h : Relation.ReflTransGen (A.AsksFor A.answer) c d)
    (hc : A.answer c = .ok t) {i : Info} {name : String} {u : Nat}
    (hd : d.node = .alias i name (some u)) : u ∉ d.expanding := by
  intro hopen
  obtain ⟨v, hv⟩ := succeeds_of_reflTransGen h hc
  obtain ⟨expanding, N, n⟩ := d
  cases hd
  rw [answer_eq_step] at hv
  simp only [step, List.contains_iff_mem.2 hopen, if_true] at hv
  cases hv

/-! ## Paths of references -/

/-- A node refers to a target, directly or through other targets. -/
def Reaches (A : Anchors) (root : Node) (t : Nat) : Prop :=
  ∃ u, some u ∈ root.targets ∧ Relation.ReflTransGen A.Refers u t

/-- The targets on a path from a node, the last one first, and the node at its end. -/
inductive Path (A : Anchors) (root : Node) : List Nat → Node → Prop where
  | root : Path A root [] root
  | expand {expanding : List Nat} {m m' : Node} {t : Nat} (h : Path A root expanding m)
      (ht : some t ∈ m.targets) (htarget : A[t]? = some m') : Path A root (t :: expanding) m'

namespace Path

variable {expanding : List Nat} {m : Node} {t u : Nat}

theorem reaches (h : A.Path root expanding m) (ht : some t ∈ m.targets) : A.Reaches root t := by
  induction h generalizing t with
  | root => exact ⟨t, ht, .refl⟩
  | expand _ hu htarget ih =>
    obtain ⟨v, hv, hreach⟩ := ih hu
    exact ⟨v, hv, hreach.tail ⟨_, htarget, ht⟩⟩

/-- Every target on the path refers to what the last node refers to. -/
theorem transGen (h : A.Path root expanding m) (ht : t ∈ expanding) (hu : some u ∈ m.targets) :
    Relation.TransGen A.Refers t u := by
  induction h generalizing u with
  | root => cases ht
  | expand _ hv htarget ih =>
    rcases List.mem_cons.1 ht with rfl | ht
    · exact .single ⟨_, htarget, hu⟩
    · exact (ih ht hv).tail ⟨_, htarget, hu⟩

end Path

/-- The node of a call lies in the node at the end of a path of the targets that are being
expanded. -/
def OnPath (A : Anchors) (root : Node) (c : Call) : Prop :=
  ∃ m, A.Path root c.expanding m ∧ c.node.targets ⊆ m.targets

theorem OnPath.below (h : A.OnPath root c) (hd : A.Below d c) : A.OnPath root d := by
  obtain ⟨m, hpath, htargets⟩ := h
  cases hd with
  | inside _ hinside => exact ⟨m, hpath, List.Subset.trans hinside htargets⟩
  | target _ htarget => exact ⟨_, hpath.expand (htargets (.head _)) htarget, List.Subset.refl _⟩

/-! ## Problems of the recursion -/

/-- A tag is only given up, and an alias that refers to itself is only reported, under a
condition each. -/
structure Problem.Guarded (P Q : Prop) (p : Problem) : Prop where
  endless : p.cause = .endless → P
  selfAlias : ∀ line name, p.cause = .selfAlias line name → Q

/-- What the first reading fails for. -/
def reporting (P Q : Prop) : OutcomeComparison where
  Admits := Problem.Guarded P Q
  admits hp :=
    ⟨fun h => absurd h hp.ne_endless, fun line name h => absurd h (hp.ne_selfAlias line name)⟩
  Holds R x _ := Fails (Problem.Guarded P Q) x ∧ ∀ a, x = .ok a → ∃ b, R a b
  ok h := ⟨.ok _, fun _ heq => Except.ok.inj heq ▸ ⟨_, h⟩⟩
  error _ _ hp := ⟨.error hp, nofun⟩
  bind {_ _ _ _ x _ _ _} h hfg := by
    obtain ⟨hfails, hvalue⟩ := h
    cases x with
    | error p => exact ⟨.error (hfails p rfl), nofun⟩
    | ok a =>
      obtain ⟨b, hab⟩ := hvalue a rfl
      exact hfg a b hab
  inPart {_ _ x _} part name h := by
    obtain ⟨hfails, hvalue⟩ := h
    cases x with
    | error p =>
      obtain ⟨hendless, hself⟩ := hfails p rfl
      exact ⟨.error ⟨hendless, hself⟩, nofun⟩
    | ok a => exact ⟨nofun, hvalue⟩

/-- A tag is given up if it comes from itself, and an alias is reported if it closes a
cycle. -/
theorem reports_answer (h : A.OnPath root c) :
    Fails (Problem.Guarded (∃ t, A.Reaches root t ∧ Relation.TransGen A.TagFrom t t)
      (∃ t, A.Reaches root t ∧ Relation.TransGen A.Refers t t)) (A.answer c) := by
  induction c using (wellFounded_below A).induction with
  | _ c ih =>
    rw [answer_eq_step]
    have hstep (P Q : Prop) (h : (reporting P Q).Holds Eq (A.step A.answer c) (A.step A.answer c)) :
        Fails (Problem.Guarded P Q) (A.step A.answer c) := h.1
    refine hstep _ _ (related_step _ (fun d hd => ?_) (fun {m} hm => ?_)
      fun i name t hnode hopen => ?_)
    · exact ⟨ih d hd (h.below hd), fun t _ => ⟨t, rfl⟩⟩
    · intro p hp
      have hloops := tagLoops_of_tag hp
      obtain rfl : p = .endless := Except.error.inj (hp.symm.trans (hloops.tagWithin_eq _))
      obtain ⟨u, t, hu, hreach, ht⟩ := hloops
      obtain ⟨_, hpath, htargets⟩ := h
      obtain ⟨v, hv, hu⟩ := hpath.reaches (htargets (hm (Node.mem_targets_of_tagTarget? hu)))
      have hrefers : Relation.ReflTransGen A.Refers u t :=
        Relation.ReflTransGen.mono (fun _ _ => TagFrom.refers) _ _ hreach
      exact ⟨fun _ => ⟨t, ⟨v, hv, hu.trans hrefers⟩, ht⟩, nofun⟩
    · obtain ⟨m, hpath, htargets⟩ := h
      have ht : some t ∈ m.targets := htargets (by rw [hnode]; exact .head _)
      exact ⟨.error ⟨nofun, fun _ _ _ => ⟨t, hpath.reaches ht, hpath.transGen hopen ht⟩⟩, nofun⟩

/-- Decoding ends unless it looks up the tag of an alias that has its tag from itself, and what
it reports are cycles.  No call asks for endlessly many calls inside each other, and the
outcome that is computed is the one of the recursion, whatever number of further steps is
allowed, also for a tag.  An alias that refers to itself is only reported if the node reaches
a target that refers to itself.  And if a node decodes, no alias was met inside the
expansion of its own target. -/
theorem decode_cycles (A : Anchors) (N : Names) (n : Node) :
    (WellFounded fun d c => ∃ answer, A.AsksFor answer c d) ∧
      (∀ c, A.answer c = A.step A.answer c) ∧
      (∀ fuel, A.decodeFuel n ≤ fuel → A.decodeWithin fuel [] N n = A.answer ⟨[], N, n⟩) ∧
      (∀ m fuel, A.length < fuel → A.tagWithin fuel m = A.tag m) ∧
      A.decode N n = A.answer ⟨[], N, n⟩ ∧
      (∀ p, A.decode N n = .error p →
        (p.cause = .endless → ∃ t, A.Reaches n t ∧ Relation.TransGen A.TagFrom t t) ∧
          ∀ line name, p.cause = .selfAlias line name →
            ∃ t, A.Reaches n t ∧ Relation.TransGen A.Refers t t) ∧
      ∀ t, A.decode N n = .ok t → ∀ c, Relation.ReflTransGen (A.AsksFor A.answer) ⟨[], N, n⟩ c →
        ∀ i name u, c.node = .alias i name (some u) → u ∉ c.expanding := by
  have hdecode : A.decode N n = A.answer ⟨[], N, n⟩ := decodeWithin_eq_answer N (Nat.le_refl _)
  refine ⟨?_, A.answer_eq_step, fun fuel => decodeWithin_eq_answer N,
    fun m fuel => tagWithin_eq_tag, hdecode, fun p hp => ?_, ?_⟩
  · exact Subrelation.wf (fun ⟨_, hasks⟩ => hasks.below) (wellFounded_below A)
  · rw [hdecode] at hp
    obtain ⟨hendless, hself⟩ := reports_answer ⟨n, .root, List.Subset.refl _⟩ p hp
    exact ⟨hendless, hself⟩
  · intro t ht c hc i name u hnode
    exact not_mem_expanding_of_asked hc (hdecode ▸ ht) hnode

/-- The tag of an alias of itself, taken for a literal, is not found in any number of steps,
and decoding does not end. -/
theorem decode_tagOfItself :
    let self : Node := .alias { line := 1, anchor := "a" } "a" (some 0)
    let n : Node := .mapping { line := 1 } [(.scalar {} "literal", self)]
    (∀ fuel, tagWithin [self] fuel self = .error .endless) ∧
      (∀ fuel, decodeWithin [self] fuel [] {} n = .error .endless) ∧
      decode [self] {} self = .error (.selfAlias 1 "a") := by
  intro self n
  have hloops : TagLoops [self] self := ⟨0, 0, rfl, .refl, .single ⟨self, rfl, rfl⟩⟩
  refine ⟨hloops.tagWithin_eq, fun fuel => ?_, rfl⟩
  cases fuel <;> rfl

-- An array of itself, and a pair that names one array twice.
example :
    let loop : Node :=
      .mapping { anchor := "a" } [(.scalar {} "array", .alias { line := 1 } "a" (some 0))]
    let shared : Node :=
      .mapping { anchor := "a" } [(.scalar {} "array", .scalar { tag? := some .null } "null")]
    let pair : Node := .sequence {} [shared, .alias {} "a" (some 0)]
    decode [loop] {} loop = .error (.selfAlias 1 "a") ∧
      decode [shared] {} pair = .ok (.tuple [.array .null, .array .null]) := ⟨rfl, rfl⟩

end StructuralTyping.Yaml.Anchors
