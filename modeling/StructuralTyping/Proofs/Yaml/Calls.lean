import StructuralTyping.Proofs.Yaml.Comparison

/-!
# What the decoder asks for

Decoding a node asks for the types of nodes inside it, or for the type of the target of an
alias.  `Anchors.step` is one call with the answers given, and `Anchors.Below` says which
calls it can ask for.

The outcome of a call only depends on the answers from below.  For any way to compare
outcomes, if the answers from below go together then so do the outcomes
(`Anchors.related_step`): a node is put side by side with itself (`Anchors.inside`), and
everything that is not asked for is read alike because it is read twice.  With equality the
lemma says that other answers do not matter.  Other comparisons look at successes, or speak
of the problems of the outcomes.
-/

namespace StructuralTyping.Yaml

open TypeSource (Names)

/-! ## Failures -/

/-- The outcome fails only for problems of a kind. -/
def Fails (E : Problem → Prop) (x : Outcome α) : Prop := ∀ p, x = .error p → E p

namespace Fails

variable {E E' : Problem → Prop} {x : Outcome α}

theorem ok (a : α) : Fails E (.ok a : Outcome α) := nofun

theorem error {p : Problem} (h : E p) : Fails E (.error p : Outcome α) := by
  rintro _ ⟨⟩
  exact h

theorem imp (h : Fails E x) (hE : ∀ {p}, E p → E' p) : Fails E' x := fun p hp => hE (h p hp)

theorem bind (h : Fails E x) {f : α → Outcome β} (hf : ∀ a, Fails E (f a)) : Fails E (x >>= f) := by
  cases x with
  | ok a => exact hf a
  | error p => exact error (h p rfl)

theorem map (h : Fails E x) (f : α → β) : Fails E (x.map f) := by
  cases x with
  | ok a => exact ok (f a)
  | error p => exact error (h p rfl)

end Fails

/-- The outcome fails only for local problems. -/
abbrev FailsLocally (x : Outcome α) : Prop := Fails Problem.IsLocal x

/-- A reading goes along with itself if all its problems are admitted. -/
theorem OutcomeComparison.self (O : OutcomeComparison) {x : Outcome α} (hx : Fails O.Admits x)
    {R : α → α → Prop} (hR : ∀ a, x = .ok a → R a a) : O.Holds R x x := by
  cases x with
  | ok a => exact O.ok (hR a rfl)
  | error p => exact O.error R (hx p rfl)

/-! ## The nodes inside -/

namespace Node

theorem targets_subset_targetsOf {m : Node} {ns : List Node} (h : m ∈ ns) :
    m.targets ⊆ targetsOf ns := by
  induction ns with
  | nil => cases h
  | cons n ns ih =>
    rw [targetsOf]
    rcases List.mem_cons.1 h with rfl | h
    · exact List.subset_append_left _ _
    · exact List.subset_append_of_subset_right _ (ih h)

theorem targets_subset_entryTargetsOf {m : Node} {es : List (Node × Node)} (h : m ∈ es.map (·.2)) :
    m.targets ⊆ entryTargetsOf es := by
  induction es with
  | nil => cases h
  | cons e es ih =>
    rw [entryTargetsOf, entryTargets]
    rcases List.mem_cons.1 h with rfl | h
    · exact List.subset_append_left _ _
    · exact List.subset_append_of_subset_right _ (ih h)

/-- What is inside has fewer levels and no other aliases. -/
theorem depth_targets_of_mem_values {m n : Node} (h : m ∈ n.values) :
    m.depth < n.depth ∧ m.targets ⊆ n.targets := by
  cases n with
  | document i cs => exact ⟨Nat.lt_succ_of_le (depth_le_depths h), targets_subset_targetsOf h⟩
  | sequence i ns => exact ⟨Nat.lt_succ_of_le (depth_le_depths h), targets_subset_targetsOf h⟩
  | mapping i es =>
    exact ⟨Nat.lt_succ_of_le (depth_le_entryDepths h), targets_subset_entryTargetsOf h⟩
  | _ => cases h

end Node

namespace Anchors

variable {A : Anchors} {n v : Node} {f : Fields} {key : String}

/-! ## Readings that ask for nothing -/

theorem failsLocally_collect (seen : List String) (es : List (Node × Node)) :
    FailsLocally (Fields.collect seen es) := by
  induction es generalizing seen with
  | nil => exact .ok _
  | cons e es ih =>
    simp only [Fields.collect]
    split
    · exact .error ⟨by simp [Problem.cause], by simp [Problem.cause]⟩
    · split
      · exact .ok _
      · next p hp => exact .error (ih _ p hp)

theorem failsLocally_itemsOf (key : String) (n : Node) : FailsLocally (itemsOf key n) := by
  unfold itemsOf
  split
  · exact .ok _
  · exact .error ⟨nofun, nofun⟩

theorem failsLocally_orFail (d : α) (w : Wanted α) : FailsLocally (w.orFail d) := by
  unfold Wanted.orFail
  split
  · exact .ok _
  · exact .error ⟨nofun, nofun⟩

theorem failsLocally_source (N : Names) (source : String) :
    FailsLocally (decodeSource N source) := by
  unfold decodeSource
  split
  · exact .ok _
  · exact .error ⟨nofun, nofun⟩

theorem failsLocally_sourceAt (N : Names) (line : Int) (source : ByteText) :
    FailsLocally (decodeSourceAt N line source) := by
  unfold decodeSourceAt
  split
  · exact .error ⟨nofun, nofun⟩
  · next s =>
    split
    · exact .ok _
    · next p hp =>
      have hlocal := failsLocally_source N s p hp
      exact .error ⟨hlocal.ne_endless, hlocal.ne_selfAlias⟩

theorem failsLocally_bool (n : Node) : FailsLocally (A.decodeBool n) :=
  (failsLocally_orFail _ _).map _

theorem failsLocally_number (n : Node) : FailsLocally (A.decodeNumber n) :=
  (failsLocally_orFail _ _).map _

theorem failsLocally_scalar (N : Names) (n : Node) : FailsLocally (A.decodeScalar N n) := by
  unfold decodeScalar
  split
  · exact .ok _
  · exact failsLocally_bool n
  · exact failsLocally_number n
  · exact failsLocally_number n
  · exact failsLocally_sourceAt _ _ _

/-! ## Readings that look up a tag -/

section Tag

variable {E : Problem → Prop} (hlocal : ∀ {p : Problem}, p.IsLocal → E p)
include hlocal

/-- What is refused with its tag is refused for a local problem, or its tag is not found. -/
theorem fails_refused (htag : Fails E (A.tag n)) {p : String → Problem}
    (hp : ∀ tag, (p tag).IsLocal) :
    Fails E (A.tagText n >>= fun tag => (.error (p tag) : Outcome α)) :=
  (htag.map _).bind fun tag => .error (hlocal (hp tag))

theorem fails_fields (htag : Fails E (A.tag n)) : Fails E (A.fields n) := by
  unfold fields
  split
  · split
    · exact .ok _
    · next p hp => exact .error (hlocal (failsLocally_collect _ _ p hp))
  · exact fails_refused hlocal htag fun _ => ⟨nofun, nofun⟩

theorem fails_items (htag : Fails E (A.tag n)) : Fails E (A.items n) := by
  unfold items
  split
  · exact .ok _
  · exact fails_refused hlocal htag fun _ => ⟨nofun, nofun⟩

theorem fails_literal (htag : Fails E (A.tag n)) : Fails E (A.decodeLiteral n) := by
  unfold decodeLiteral
  split
  · next p hp => exact .error (htag p hp)
  · exact (failsLocally_bool n).imp hlocal
  · exact (failsLocally_number n).imp hlocal
  · exact (failsLocally_number n).imp hlocal
  · exact .ok _
  · exact .error (hlocal ⟨nofun, nofun⟩)

end Tag

/-! ## Nodes below -/

section Inside

-- The nodes that are looked at are of a kind that is closed under taking parts.
variable (O : OutcomeComparison) {G : Node → Prop} {r : Role}

theorem inside_items (htag : Fails O.Admits (A.tag n)) (hn : ∀ m ∈ n.values, G m) :
    O.Holds (List.Forall₂ fun m m' => m = m' ∧ G m) (A.items n) (A.items n) :=
  O.self (fails_items O.admits htag) fun _ hns =>
    List.forall₂_same.2 fun m hm => ⟨rfl, hn m (mem_values_of_items hns hm)⟩

theorem inside_fields (htag : Fails O.Admits (A.tag n)) (hn : ∀ m ∈ n.values, G m) :
    O.Holds (fun f f' => f = f' ∧ ∀ e ∈ f.entries, G e.2) (A.fields n) (A.fields n) :=
  O.self (fails_fields O.admits htag) fun _ hf =>
    ⟨rfl, fun e he => hn e.2 (mem_values_of_fields hf he)⟩

/-- A node side by side with itself, under other answers for the nodes inside. -/
def inside (A : Anchors) (hG : ∀ {m n : Node}, G n → m ∈ n.values → G m)
    (htag : ∀ {n : Node}, G n → Fails O.Admits (A.tag n)) : A.Comparison A where
  toOutcomeComparison := O
  toTypeComparison := .equal
  Nodes _ n n' := n = n' ∧ G n
  Entries _ f f' := f = f' ∧ ∀ e ∈ f.entries, G e.2
  bare := by
    rintro _ n _ ⟨rfl, -⟩
    exact .inl rfl
  value h := h
  text := by
    rintro n _ ⟨rfl, -⟩
    rfl
  literal := by
    rintro n _ ⟨rfl, hn⟩
    exact O.self (fails_literal O.admits (htag hn)) fun _ _ => rfl
  flag := by
    rintro _ n _ ⟨rfl, -⟩
    exact O.self ((failsLocally_orFail _ _).imp O.admits) fun _ _ => rfl
  texts := by
    rintro _ n _ ⟨rfl, -⟩
    exact O.self ((failsLocally_orFail _ _).imp O.admits) fun _ _ => rfl
  items := by
    rintro _ n _ ⟨rfl, hn⟩
    exact inside_items O (htag hn) fun _ => hG hn
  itemsOf := by
    rintro _ n _ key ⟨rfl, hn⟩
    exact O.self ((failsLocally_itemsOf key n).imp O.admits) fun _ hns =>
      List.forall₂_same.2 fun m hm => ⟨rfl, hG hn (mem_values_of_itemsOf hns hm)⟩
  fields := by
    rintro _ n _ ⟨rfl, hn⟩
    exact inside_fields O (htag hn) fun _ => hG hn
  get? := by
    rintro _ f _ ⟨rfl, hf⟩ key
    cases hv : f.get? key with
    | none => exact .none
    | some v =>
      obtain ⟨before, after, hentries, -⟩ := List.lookup_eq_some_iff.1 hv
      exact .some ⟨rfl, hf (key, v) (hentries ▸ List.mem_append_right _ (.head _))⟩
  single := by
    rintro _ f _ ⟨rfl, hf⟩
    by_cases hone : ∃ e, f.entries = [e]
    · obtain ⟨⟨key, v⟩, hentries⟩ := hone
      exact .inl ⟨key, v, v, hentries, hentries, rfl, hf (key, v) (hentries ▸ .head _)⟩
    · exact .inr ⟨not_exists.1 hone, not_exists.1 hone⟩
  named := by
    rintro f _ one one' ⟨rfl, hf⟩ hone
    have hentries : List.Forall₂ (fun e e' => e = e' ∧ G e.2) f.entries f.entries :=
      List.forall₂_same.2 fun e he => ⟨rfl, hf e he⟩
    refine O.imp (O.each (R := Member.Alike true Eq) hentries ?_) fun _ _ =>
      eq_of_forall₂ fun _ _ => Member.Alike.eq
    rintro ⟨raw, v⟩ _ ⟨rfl, hv⟩
    exact hone raw v v ⟨rfl, hv⟩
  source := by
    intro N N' source hN
    obtain rfl := hN.eq
    exact O.self ((failsLocally_source N source).imp O.admits) fun _ _ => rfl

end Inside

end Anchors

/-! ## Calls -/

/-- A call of the decoder: the targets that are being expanded, the names, and the node. -/
structure Call where
  expanding : List Nat
  names : Names
  node : Node

namespace Anchors

variable {A : Anchors}

/-- One call, with the answers to the calls that it asks for. -/
def step (A : Anchors) (answer : Call → Outcome Ty) (c : Call) : Outcome Ty :=
  let ask : Ask := fun N n => answer ⟨c.expanding, N, n⟩
  match c.node with
  | .document _ [] => .error .emptyDocument
  | .document _ (n :: _) => ask c.names n
  | .alias i name target? =>
    match target? with
    | none => .error .missing
    | some t =>
      if c.expanding.contains t then .error (.selfAlias i.line name)
      else
        match A[t]? with
        | some n => answer ⟨t :: c.expanding, c.names, n⟩
        | none => .error .missing
  | .scalar i s => A.decodeScalar c.names (.scalar i s)
  | .sequence i ns => (A.decodeList ask c.names (.sequence i ns)).map .tuple
  | .mapping i es => A.decodeMapping ask c.names (.mapping i es)
  | .unknown i _ => .error (.unexpectedNode i.line)

/-- The outcome of a call with so many steps left. -/
def run (A : Anchors) (fuel : Nat) (c : Call) : Outcome Ty :=
  A.decodeWithin fuel c.expanding c.names c.node

theorem run_succ (A : Anchors) (fuel : Nat) (c : Call) :
    A.run (fuel + 1) c = A.step (A.run fuel) c := by
  obtain ⟨expanding, N, n⟩ := c
  cases n with
  | document i cs => cases cs <;> rfl
  | «alias» i name target? => cases target? <;> rfl
  | _ => rfl

/-- The first call may be asked for by the second one: it is about a node inside, or about
the target of an alias that is not being expanded. -/
inductive Below (A : Anchors) : Call → Call → Prop where
  | inside {expanding : List Nat} {N M : Names} {m n : Node} (hdepth : m.depth < n.depth)
      (htargets : m.targets ⊆ n.targets) : Below A ⟨expanding, M, m⟩ ⟨expanding, N, n⟩
  | target {expanding : List Nat} {N M : Names} {i : Info} {name : String} {t : Nat} {m : Node}
      (hfresh : t ∉ expanding) (htarget : A[t]? = some m) :
      Below A ⟨t :: expanding, M, m⟩ ⟨expanding, N, .alias i name (some t)⟩

/-- A call whose answers from below are related has a related outcome.  The problem of an
alias that refers to itself is left to the relation, and so is a tag that is not found. -/
theorem related_step (O : OutcomeComparison) {answer answer' : Call → Outcome Ty} {c : Call}
    (h : ∀ d, A.Below d c → O.Holds Eq (answer d) (answer' d))
    (htag : ∀ {m : Node}, m.targets ⊆ c.node.targets → Fails O.Admits (A.tag m))
    (hself : ∀ i name t, c.node = .alias i name (some t) → t ∈ c.expanding →
      O.Holds (α := Ty) Eq (.error (.selfAlias i.line name)) (.error (.selfAlias i.line name))) :
    O.Holds Eq (A.step answer c) (A.step answer' c) := by
  obtain ⟨expanding, N, n⟩ := c
  have hvalues (m : Node) (hm : m ∈ n.values) : m.depth < n.depth ∧ m.targets ⊆ n.targets :=
    Node.depth_targets_of_mem_values hm
  have htagHere : Fails O.Admits (A.tag n) := htag (List.Subset.refl _)
  let C := inside O A (G := fun m => m.depth < n.depth ∧ m.targets ⊆ n.targets)
    (fun hm hl => by
      obtain ⟨hdepth, htargets⟩ := Node.depth_targets_of_mem_values hl
      exact ⟨Nat.lt_trans hdepth hm.1, List.Subset.trans htargets hm.2⟩)
    fun hm => htag hm.2
  have hask : C.Answers (fun N n => answer ⟨expanding, N, n⟩)
      (fun N n => answer' ⟨expanding, N, n⟩) := by
    constructor
    · rintro N N' m _ hN ⟨rfl, hm⟩
      obtain rfl := Names.Related.eq hN
      exact h _ (.inside hm.1 hm.2)
    · rintro N N' i s t _ raw - ⟨rfl, -⟩ hbare
      exact absurd rfl hbare
  have hN : Names.Related Eq N N := .refl (fun _ => rfl) N
  cases n with
  | document i cs =>
    cases cs with
    | nil => exact O.error _ (O.admits ⟨nofun, nofun⟩)
    | cons m cs => exact hask.type hN ⟨rfl, hvalues m (.head _)⟩
  | scalar i s => exact O.self ((failsLocally_scalar N _).imp O.admits) fun _ _ => rfl
  | unknown i s => exact O.error _ (O.admits ⟨nofun, nofun⟩)
  | sequence i ns =>
    exact C.map (C.decodeList hask hN (inside_items O htagHere hvalues)) fun _ _ => C.tuple
  | mapping i es => exact C.decodeMapping hask hN rfl (inside_fields O htagHere hvalues)
  | «alias» i name target? =>
    cases target? with
    | none => exact O.error _ (O.admits ⟨nofun, nofun⟩)
    | some t =>
      simp only [step]
      split
      · next hopen => exact hself i name t rfl (List.contains_iff_mem.1 hopen)
      · next hfresh =>
        split
        · next m htarget =>
          exact h _ (.target (fun hmem => hfresh (List.contains_iff_mem.2 hmem)) htarget)
        · exact O.error _ (O.admits ⟨nofun, nofun⟩)

end Anchors

end StructuralTyping.Yaml
