import StructuralTyping.Proofs.Canonical

/-!
# What narrowing leaves

Narrowing goes down through unions and intersections in any order and puts the branches
together again, which may flatten them, absorb them or leave a single one.  All of this
keeps one normal form, `Decls.Narrowed`: a leaf that is not dropped, or a union or an
intersection of several different narrowed branches that needs neither flattening nor
absorbing.  Every narrowed type has this form (`Decls.narrowed_without`), and narrowing
leaves such a type as it is (`Decls.Narrowed.without_eq`).

On unions of leaves narrowing is a filter.  Each level puts its branches together, and the
level above takes them apart again, so what is joined in the end are the leaves that are not
dropped (`Decls.joined_map_without`).
-/

namespace StructuralTyping

namespace Decls

variable {D : Decls} {R : Ty → Ty} {drops : Ty → Bool} {t u x b : Ty}
  {ts us bs ls : List Ty} {n : Nat}

/-! ## The narrowings -/

/-- The narrowings, and the leaves that each of them drops. -/
inductive Narrows (D : Decls) : (Ty → Ty) → (Ty → Bool) → Prop where
  | falsy : D.Narrows D.removeFalsy isFalsy
  | truthy : D.Narrows D.removeTruthy isTrue
  | nullish : D.Narrows D.removeNullish isNullish

/-- A test that drops neither what is missing nor `any` nor `never`, which putting branches
together may leave. -/
structure Moderate (drops : Ty → Bool) : Prop where
  missing : drops .missing = false
  any : drops .any = false
  never : drops .never = false

theorem Narrows.moderate (h : D.Narrows R drops) : Moderate drops := by
  cases h <;> exact ⟨rfl, rfl, rfl⟩

theorem Narrows.eq_without (h : D.Narrows R drops) : R = D.without drops := by
  cases h <;> rfl

/-- Narrowing does not make a type higher. -/
theorem HasHeight.without (hdrops : Moderate drops) (h : D.HasHeight n t) :
    D.HasHeight n (D.without drops t) := by
  have hacyclic := h.acyclic
  induction h with
  | missing =>
    rw [without_leaf hacyclic nofun nofun, show drops (D.head .missing) = false from hdrops.missing,
      if_neg Bool.false_ne_true]
    exact .missing
  | @layer n t hdeclared hlayer hparts ih =>
    have hkept {bs : List Ty} (hbs : bs ⊆ (D.head t).parts) :
        ∀ b ∈ bs.map (D.without drops), D.HasHeight n b := by
      refine List.forall_mem_map.2 fun b hb => ?_
      exact ih b (hbs hb) (hacyclic.part (hbs hb))
    rw [without_eq_narrowStep hacyclic, narrowStep]
    split
    · next bs hbs =>
      exact .join fun b hb =>
        hkept (by rw [hbs]; exact List.Subset.refl _) b (List.mem_of_mem_filter hb)
    · next bs hbs =>
      split
      · exact hasHeight_keyword D n _
      · exact .meet (hkept (by rw [hbs]; exact List.Subset.refl _))
    · split
      · exact hasHeight_keyword D n _
      · exact .layer hdeclared hlayer hparts

theorem acyclic_without (hdrops : Moderate drops) (h : D.Acyclic t) :
    D.Acyclic (D.without drops t) :=
  (h.choose_spec.without hdrops).acyclic

/-! ## Narrowed types -/

/-- Different types, and more than one. -/
structure AreSeveral (D : Decls) (bs : List Ty) : Prop where
  ne_nil : bs ≠ []
  ne_singleton : ∀ b, bs ≠ [b]
  different : bs.Pairwise fun a b => D.equal a b = false

/-- The types that narrowing leaves. -/
inductive Narrowed (D : Decls) (drops : Ty → Bool) : Ty → Prop where
  | leaf {t : Ty} (hacyclic : D.Acyclic t) (hunion : ∀ bs, D.head t ≠ .union bs)
      (hinter : ∀ bs, D.head t ≠ .inter bs) (hkept : drops (D.head t) = false) : D.Narrowed drops t
  | union {bs : List Ty} (hbranches : ∀ b ∈ bs, D.Narrowed drops b) (hseveral : D.AreSeveral bs)
      (hleaves : D.AreLeaves Ty.unionBranches? D.isProper bs) : D.Narrowed drops (.union bs)
  | inter {bs : List Ty} (hbranches : ∀ b ∈ bs, D.Narrowed drops b) (hseveral : D.AreSeveral bs)
      (hleaves : D.AreLeaves Ty.interBranches? isThere bs) (hnone : D.absorbing? bs = none) :
      D.Narrowed drops (.inter bs)

theorem narrowed_keyword {k : Keyword} (hkept : drops (.keyword k) = false) :
    D.Narrowed drops (.keyword k) :=
  .leaf (hasHeight_keyword D 0 k).acyclic nofun nofun hkept

theorem areSeveral_distinct (hnil : D.distinct ts ≠ []) (hsingle : ∀ b, D.distinct ts ≠ [b]) :
    D.AreSeveral (D.distinct ts) :=
  ⟨hnil, hsingle, pairwise_distinct ts⟩

theorem AreSeveral.gathered_distinct {e : Ty} {build : List Ty → Ty} (h : D.AreSeveral bs) :
    gathered e build (D.distinct bs) = build bs := by
  rw [distinct_of_pairwise h.different, gathered_of_two h.ne_nil h.ne_singleton]

theorem without_of_union : D.without drops (.union bs) =
    D.join ((bs.map (D.without drops)).filter fun b => !D.isNever b) :=
  (isWalk_without D drops).term D.size rfl

theorem without_of_inter : D.without drops (.inter bs) =
    if (bs.map (D.without drops)).any D.isNever then .never
    else D.meet (bs.map (D.without drops)) :=
  (isWalk_without D drops).term D.size rfl

theorem map_without_of_forall (h : ∀ b ∈ bs, D.without drops b = b) :
    bs.map (D.without drops) = bs :=
  (List.map_congr_left h).trans (List.map_id' bs)

/-- Narrowing leaves a narrowed type as it is. -/
theorem Narrowed.without_eq (h : D.Narrowed drops t) : D.without drops t = t := by
  induction h with
  | leaf hacyclic hunion hinter hkept =>
    rw [without_leaf hacyclic hunion hinter, hkept, if_neg Bool.false_ne_true]
  | @union bs _ hseveral hleaves ih =>
    have hthere : bs.filter (fun b => !D.isNever b) = bs := by
      refine List.filter_eq_self.2 fun b hb => ?_
      rw [(isProper_iff.1 (hleaves.counted b hb)).2, Bool.not_false]
    rw [without_of_union, map_without_of_forall ih, hthere, join_eq_gathered, joined,
      D.collects_unionLeaves.self hleaves, hseveral.gathered_distinct]
  | @inter bs _ hseveral hleaves hnone ih =>
    have hthere : bs.any D.isNever = false :=
      List.any_eq_false.2 fun b hb => by simp [(absorbing?_eq_none_iff.1 hnone).2 b hb]
    have hself : D.interLeaves bs = bs := D.collects_interLeaves.self hleaves
    rw [without_of_inter, map_without_of_forall ih, hthere, if_neg Bool.false_ne_true,
      meet_of_not_absorbing (hself.symm ▸ hnone), met, hself, hseveral.gathered_distinct]

theorem Narrowed.of_mem_unionLeaves (h : D.Narrowed drops t) (ht : D.Acyclic t)
    (hx : x ∈ D.unionLeaves [t]) : D.Narrowed drops x := by
  have hself (hunion : ∀ bs, D.head t ≠ .union bs) : x = t := by
    rw [D.collects_unionLeaves.of_head ht (Ty.unionBranches?_eq_none_iff.2 hunion)] at hx
    exact List.mem_singleton.1 (List.mem_of_mem_filter hx)
  have hnarrowed := h
  cases h with
  | leaf _ hunion _ _ => exact hself hunion ▸ hnarrowed
  | union hbranches _ hleaves =>
    rw [unionLeaves_union, D.collects_unionLeaves.self hleaves] at hx
    exact hbranches x hx
  | inter => exact hself nofun ▸ hnarrowed

theorem Narrowed.of_mem_interLeaves (h : D.Narrowed drops t) (ht : D.Acyclic t)
    (hx : x ∈ D.interLeaves [t]) : D.Narrowed drops x := by
  have hself (hinter : ∀ bs, D.head t ≠ .inter bs) : x = t := by
    rw [D.collects_interLeaves.of_head ht (Ty.interBranches?_eq_none_iff.2 hinter)] at hx
    exact List.mem_singleton.1 (List.mem_of_mem_filter hx)
  have hnarrowed := h
  cases h with
  | leaf _ _ hinter _ => exact hself hinter ▸ hnarrowed
  | union => exact hself nofun ▸ hnarrowed
  | inter hbranches _ hleaves _ =>
    rw [interLeaves_inter, D.collects_interLeaves.self hleaves] at hx
    exact hbranches x hx

/-- Narrowed types are joined to a narrowed type. -/
theorem narrowed_join (hdrops : Moderate drops) (hacyclic : ∀ t ∈ ts, D.Acyclic t)
    (hts : ∀ t ∈ ts, D.Narrowed drops t) : D.Narrowed drops (D.join ts) := by
  have hjoined : ∀ b ∈ D.joined ts, D.Narrowed drops b := by
    intro b hb
    obtain ⟨t, ht, hbt⟩ := D.collects_unionLeaves.exists_mem (mem_of_mem_distinct hb)
    exact (hts t ht).of_mem_unionLeaves (hacyclic t ht) hbt
  rw [join_eq_gathered]
  rcases gathered_cases .never .union (D.joined ts) with ⟨-, hgathered⟩ | ⟨b, hsingle, hgathered⟩ |
    ⟨hnil, hsingle, hgathered⟩
  · rw [hgathered]
    exact narrowed_keyword hdrops.never
  · rw [hgathered]
    exact hjoined b (by rw [hsingle]; exact .head _)
  · rw [hgathered]
    exact .union hjoined (areSeveral_distinct hnil hsingle)
      (D.collects_unionLeaves.areLeaves_distinct hacyclic)

/-- Narrowed types meet in a narrowed type. -/
theorem narrowed_meet (hdrops : Moderate drops) (hacyclic : ∀ t ∈ ts, D.Acyclic t)
    (hts : ∀ t ∈ ts, D.Narrowed drops t) : D.Narrowed drops (D.meet ts) := by
  have hmet : ∀ b ∈ D.met ts, D.Narrowed drops b := by
    intro b hb
    obtain ⟨t, ht, hbt⟩ := D.collects_interLeaves.exists_mem (mem_of_mem_distinct hb)
    exact (hts t ht).of_mem_interLeaves (hacyclic t ht) hbt
  rw [meet_eq_gathered]
  rcases gathered_cases .any D.intersected (D.met ts) with ⟨-, hgathered⟩ |
    ⟨b, hsingle, hgathered⟩ | ⟨hnil, hsingle, hgathered⟩
  · rw [hgathered]
    exact narrowed_keyword hdrops.any
  · rw [hgathered]
    exact hmet b (by rw [hsingle]; exact .head _)
  · rw [hgathered, intersected]
    split
    · next k hk =>
      rcases any_or_never_of_absorbing? hk with rfl | rfl
      · exact narrowed_keyword hdrops.any
      · exact narrowed_keyword hdrops.never
    · next hnone =>
      have hleaves := D.collects_interLeaves.areLeaves_distinct hacyclic
      exact .inter hmet (areSeveral_distinct hnil hsingle) hleaves hnone

/-- What narrowing leaves is narrowed. -/
theorem narrowed_without (hdrops : Moderate drops) (ht : D.Acyclic t) :
    D.Narrowed drops (D.without drops t) := by
  obtain ⟨n, h⟩ := id ht
  induction h with
  | missing =>
    have hkept : drops (D.head .missing) = false := hdrops.missing
    rw [without_leaf ht nofun nofun, hkept, if_neg Bool.false_ne_true]
    exact .leaf ht nofun nofun hkept
  | @layer n t _ _ _ ih =>
    have hkept (bs : List Ty) (hbs : bs ⊆ (D.head t).parts) :
        ∀ b ∈ bs.map (D.without drops), D.Acyclic b ∧ D.Narrowed drops b := by
      refine List.forall_mem_map.2 fun b hb => ?_
      have hacyclic : D.Acyclic b := ht.part (hbs hb)
      exact ⟨acyclic_without hdrops hacyclic, ih b (hbs hb) hacyclic⟩
    rw [without_eq_narrowStep ht, narrowStep]
    split
    · next bs hbs =>
      have hkept := hkept bs (by rw [hbs]; exact List.Subset.refl _)
      exact narrowed_join hdrops (fun b hb => (hkept b (List.mem_of_mem_filter hb)).1)
        fun b hb => (hkept b (List.mem_of_mem_filter hb)).2
    · next bs hbs =>
      have hkept := hkept bs (by rw [hbs]; exact List.Subset.refl _)
      split
      · exact narrowed_keyword hdrops.never
      · exact narrowed_meet hdrops (fun b hb => (hkept b hb).1) fun b hb => (hkept b hb).2
    · next hunion hinter =>
      split
      · exact narrowed_keyword hdrops.never
      · next hkept => exact .leaf ht hunion hinter (Bool.eq_false_iff.2 hkept)

/-! ## Completeness -/

/-- The branches of a union or an intersection. -/
def branches (D : Decls) (t : Ty) : List Ty :=
  match D.head t with
  | .union bs => bs
  | .inter bs => bs
  | _ => []

/-- The second type is reached through nested unions and intersections. -/
def Within (D : Decls) : Ty → Ty → Prop := Relation.ReflTransGen fun s t => t ∈ D.branches s

theorem Narrowed.within (h : D.Narrowed drops t) (hx : D.Within t x) : D.Narrowed drops x := by
  induction hx with
  | refl => exact h
  | tail _ hz ih =>
    cases ih with
    | leaf _ hunion hinter _ =>
      rw [branches] at hz
      split at hz
      · next bs hbs => exact absurd hbs (hunion bs)
      · next bs hbs => exact absurd hbs (hinter bs)
      · cases hz
    | union hbranches => exact hbranches _ hz
    | inter hbranches => exact hbranches _ hz

theorem Narrowed.drops_head (h : D.Narrowed drops t) (hunion : ∀ bs, D.head t ≠ .union bs)
    (hinter : ∀ bs, D.head t ≠ .inter bs) : drops (D.head t) = false := by
  cases h with
  | leaf _ _ _ hkept => exact hkept
  | union => exact absurd rfl (hunion _)
  | inter => exact absurd rfl (hinter _)

theorem Narrowed.of_head_union (h : D.Narrowed drops t) (hbs : D.head t = .union bs) :
    D.AreSeveral bs ∧ D.AreLeaves Ty.unionBranches? D.isProper bs := by
  cases h with
  | leaf _ hunion _ _ => exact absurd hbs (hunion bs)
  | union _ hseveral hleaves =>
    obtain rfl := Ty.union.inj hbs
    exact ⟨hseveral, hleaves⟩
  | inter => cases hbs

/-- Narrowing is complete and idempotent.  No leaf is left that is dropped, no union that is
left has a branch that is `never`, a union or there already, and narrowing again changes
nothing. -/
theorem narrow_complete (hR : D.Narrows R drops) (ht : D.Acyclic t) :
    (∀ x, D.Within (R t) x → (∀ bs, D.head x ≠ .union bs) → (∀ bs, D.head x ≠ .inter bs) →
        drops (D.head x) = false) ∧
      (∀ u bs, D.Within (R t) u → D.head u = .union bs →
        (∀ b ∈ bs, D.isNever b = false ∧ ∀ cs, D.head b ≠ .union cs) ∧
          bs.Pairwise fun a b => D.equal a b = false) ∧
      R (R t) = R t ∧ (D.HasHeight maxEqualDepth t → D.equal (R (R t)) (R t) = true) := by
  have hdrops := hR.moderate
  obtain rfl := hR.eq_without
  have hnarrowed : D.Narrowed drops (D.without drops t) := narrowed_without hdrops ht
  refine ⟨?_, ?_, hnarrowed.without_eq, ?_⟩
  · intro x hx hunion hinter
    exact (hnarrowed.within hx).drops_head hunion hinter
  · intro u bs hu hbs
    obtain ⟨hseveral, hleaves⟩ := (hnarrowed.within hu).of_head_union hbs
    refine ⟨fun b hb => ⟨?_, ?_⟩, hseveral.different⟩
    · exact (isProper_iff.1 (hleaves.counted b hb)).2
    · exact Ty.unionBranches?_eq_none_iff.1 (hleaves.leaf b hb)
  · intro hheight
    rw [hnarrowed.without_eq]
    have hresult : D.HasHeight (maxEqualDepth + 1) (D.without drops t) :=
      (hheight.without hdrops).mono (Nat.le_succ _)
    exact equal_of_bisimilar hresult hresult.acyclic (bisimilar_equivalence.refl _)

/-- Below an intersection a union loses a branch that is dropped and one that is there already,
and the union around it loses `null`. -/
theorem narrow_complete_nested :
    let inner : Ty := .union [.string, .undefined, .union [.string, .number]]
    let t : Ty := .union [.null, .inter [inner, .array .null], .boolean]
    let narrowed : Ty := .union [.inter [.union [.string, .number], .array .null], .boolean]
    empty.removeFalsy t = narrowed ∧ empty.removeFalsy narrowed = narrowed ∧
      empty.equal (empty.removeFalsy narrowed) narrowed = true ∧
      empty.equal .string .number = false ∧ isFalsy .string = false := by
  intro inner t narrowed
  have ht : empty.HasHeight 5 t := by decide
  obtain ⟨hleaves, hunions, hagain, hequal⟩ := narrow_complete .falsy ht.acyclic
  have hresult : empty.removeFalsy t = narrowed := rfl
  rw [hresult] at hleaves hunions hagain hequal
  have hinter : empty.Within narrowed (.inter [.union [.string, .number], .array .null]) :=
    .single (.head _)
  have hunion : empty.Within narrowed (.union [.string, .number]) := hinter.tail (.head _)
  have hstring : empty.Within narrowed .string := hunion.tail (.head _)
  obtain ⟨-, hdifferent⟩ := hunions _ [.string, .number] hunion rfl
  refine ⟨hresult, hagain, hequal (ht.mono (by decide)), ?_, hleaves .string hstring nofun nofun⟩
  exact (List.pairwise_cons.1 hdifferent).1 .number (.head _)

/-! ## Unions of leaves -/

theorem unionLeaves_of_isNever (hnever : D.isNever x = true) (hx : D.Acyclic x) :
    D.unionLeaves [x] = [] := by
  have hhead : D.head x = .never := isNever_iff.1 hnever
  rw [D.collects_unionLeaves.of_head hx (by rw [hhead]; rfl)]
  simp [isProper, hnever]

theorem joined_append_congr (h : D.unionLeaves ts = D.unionLeaves us) (bs : List Ty) :
    D.joined (ts ++ bs) = D.joined (us ++ bs) := by
  rw [joined, joined, D.collects_unionLeaves.append, D.collects_unionLeaves.append, h]

theorem joined_cons_congr (ht : D.Acyclic t) (hts : ∀ t ∈ ts, D.Acyclic t)
    (hus : ∀ u ∈ us, D.Acyclic u)
    (h : D.joined ts = D.joined us) : D.joined (t :: ts) = D.joined (t :: us) := by
  have ht : ∀ x ∈ [t], D.Acyclic x := List.forall_mem_singleton.2 ht
  have hcollects := D.collects_unionLeaves
  rw [joined, joined, hcollects.cons t ts, hcollects.cons t us]
  exact distinct_append_right_congr (hcollects.areLeaves ht).acyclic
    (hcollects.areLeaves hts).acyclic (hcollects.areLeaves hus).acyclic h

/-- Branches that are `never` need not be joined. -/
theorem unionLeaves_filter (hts : ∀ t ∈ ts, D.Acyclic t) :
    D.unionLeaves (ts.filter fun t => !D.isNever t) = D.unionLeaves ts := by
  induction ts with
  | nil => rfl
  | cons t ts ih =>
    obtain ⟨htop, hrest⟩ := List.forall_mem_cons.1 hts
    rw [D.collects_unionLeaves.cons t ts]
    cases hnever : D.isNever t with
    | true =>
      rw [List.filter_cons_of_neg (by simp [hnever]), unionLeaves_of_isNever hnever htop, ih hrest,
        List.nil_append]
    | false =>
      rw [List.filter_cons_of_pos (by simp [hnever]), D.collects_unionLeaves.cons, ih hrest]

/-- Types are joined after narrowing from those of their leaves that are not dropped. -/
theorem joined_map_without (hdrops : Moderate drops) (h : D.LeafSequence Ty.unionBranches? ts ls)
    (hts : ∀ t ∈ ts, D.Acyclic t) (hinter : ∀ x ∈ ls, ∀ bs, D.head x ≠ .inter bs) :
    D.joined (ts.map (D.without drops)) = D.joined (ls.filter fun x => !drops (D.head x)) := by
  have hnarrowed {us : List Ty} (hus : ∀ u ∈ us, D.Acyclic u) : ∀ b ∈ us.map (D.without drops),
      D.Acyclic b :=
    List.forall_mem_map.2 fun u hu => acyclic_without hdrops (hus u hu)
  induction h with
  | nil => rfl
  | @nested t ts bs ls hbranches h ih =>
    obtain ⟨htop, hrest⟩ := List.forall_mem_cons.1 hts
    have hbs : ∀ b ∈ bs, D.Acyclic b := fun b hb => htop.part (areParts_unionBranches? hbranches hb)
    have hkept : ∀ b ∈ (bs.map (D.without drops)).filter (fun b => !D.isNever b), D.Acyclic b :=
      fun b hb => hnarrowed hbs b (List.mem_of_mem_filter hb)
    calc D.joined ((t :: ts).map (D.without drops))
        = D.joined ([] ++ D.join ((bs.map (D.without drops)).filter fun b => !D.isNever b) ::
            ts.map (D.without drops)) := by
          rw [List.map_cons, without_union htop (Ty.unionBranches?_eq_some_iff.1 hbranches),
            List.nil_append]
      _ = D.joined ((bs.map (D.without drops)).filter (fun b => !D.isNever b) ++
        ts.map (D.without drops)) :=
          joined_group (fun _ hx => nomatch hx) hkept
      _ = D.joined (bs.map (D.without drops) ++ ts.map (D.without drops)) :=
          joined_append_congr (unionLeaves_filter (hnarrowed hbs)) _
      _ = D.joined ((bs ++ ts).map (D.without drops)) := by rw [List.map_append]
      _ = D.joined (ls.filter fun x => !drops (D.head x)) :=
        ih (List.forall_mem_append.2 ⟨hbs, hrest⟩) hinter
  | @leaf t ts ls hnone h ih =>
    obtain ⟨htop, hrest⟩ := List.forall_mem_cons.1 hts
    obtain ⟨hinterTop, hinterRest⟩ := List.forall_mem_cons.1 hinter
    have ih := ih hrest hinterRest
    rw [List.map_cons, without_leaf htop (Ty.unionBranches?_eq_none_iff.1 hnone) hinterTop]
    cases hdropped : drops (D.head t) with
    | true =>
      rw [if_pos rfl, List.filter_cons_of_neg (by simp [hdropped]), ← ih]
      have hnever : D.unionLeaves [.never] = D.unionLeaves [] := rfl
      exact joined_append_congr hnever _
    | false =>
      have hls : ∀ x ∈ ls.filter (fun x => !drops (D.head x)), D.Acyclic x := fun x hx =>
        h.acyclic areParts_unionBranches? hrest x (List.mem_of_mem_filter hx)
      rw [if_neg Bool.false_ne_true, List.filter_cons_of_pos (by simp [hdropped])]
      exact joined_cons_congr htop (hnarrowed hrest) hls ih

theorem join_singleton (ht : D.Acyclic t) (hunion : ∀ bs, D.head t ≠ .union bs)
    (hproper : D.isProper t = true) : D.join [t] = t := by
  rw [join_eq_gathered, joined,
    D.collects_unionLeaves.of_head ht (Ty.unionBranches?_eq_none_iff.2 hunion),
    List.filter_cons_of_pos hproper]
  rfl

/-- Narrowing is to join the leaves that are not dropped, unless the type is `never`. -/
theorem without_eq_join (hdrops : Moderate drops) (ht : D.Acyclic t) (hnever : D.isNever t = false)
    (hls : D.LeafSequence Ty.unionBranches? [t] ls)
    (hplain : ∀ x ∈ ls, x.isMissing = false ∧ ∀ bs, D.head x ≠ .inter bs) :
    D.without drops t = D.join (ls.filter fun x => !drops (D.head x)) := by
  cases hls with
  | @nested _ _ bs _ hbranches h =>
    rw [List.append_nil] at h
    have hbs : ∀ b ∈ bs, D.Acyclic b := fun b hb => ht.part (areParts_unionBranches? hbranches hb)
    have hnarrowed : ∀ b ∈ bs.map (D.without drops), D.Acyclic b :=
      List.forall_mem_map.2 fun b hb => acyclic_without hdrops (hbs b hb)
    rw [without_union ht (Ty.unionBranches?_eq_some_iff.1 hbranches)]
    refine join_congr ?_
    rw [joined, unionLeaves_filter hnarrowed]
    exact joined_map_without hdrops h hbs fun x hx => (hplain x hx).2
  | leaf hnone h =>
    cases h
    have hunion : ∀ bs, D.head t ≠ .union bs := Ty.unionBranches?_eq_none_iff.1 hnone
    obtain ⟨hthere, hinter⟩ := hplain t (.head _)
    rw [without_leaf ht hunion hinter]
    cases hdropped : drops (D.head t) with
    | true =>
      rw [if_pos rfl, List.filter_cons_of_neg (by simp [hdropped])]
      rfl
    | false =>
      rw [if_neg Bool.false_ne_true, List.filter_cons_of_pos (by simp [hdropped])]
      exact (join_singleton ht hunion (isProper_iff.2 ⟨hthere, hnever⟩)).symm

theorem bisimilar_join_of_isNever (hdrops : Moderate drops) (ht : D.Acyclic t)
    (hnever : D.isNever t = true) (hls : D.LeafSequence Ty.unionBranches? [t] ls) :
    D.Bisimilar true (D.without drops t) (D.join (ls.filter fun x => !drops (D.head x))) := by
  have hhead : D.head t = .never := isNever_iff.1 hnever
  have hkept : drops (D.head t) = false := hhead ▸ hdrops.never
  have hself : ls = [t] := hls.unique (.self (List.forall_mem_singleton.2 (by rw [hhead]; rfl)))
  have hjoin : D.join [t] = .never := by
    rw [join_eq_gathered, joined, unionLeaves_of_isNever hnever ht]; rfl
  rw [hself, List.filter_cons_of_pos (by simp [hkept]), List.filter_nil, hjoin,
    without_leaf ht (by simp [hhead]) (by simp [hhead]), hkept, if_neg Bool.false_ne_true]
  exact bisimilar_of_isKeyword hnever rfl

/-- On unions of leaves narrowing loses nothing but the leaves that it drops: the others are
joined in their order.  The two sides are identical, unless the type is a declared `never`,
which is left as it is. -/
theorem narrow_eq_join (hR : D.Narrows R drops) (ht : D.HasHeight maxEqualDepth t)
    (hls : D.LeafSequence Ty.unionBranches? [t] ls)
    (hplain : ∀ x ∈ ls, x.isMissing = false ∧ ∀ bs, D.head x ≠ .inter bs) :
    (D.isNever t = false → R t = D.join (ls.filter fun x => !drops (D.head x))) ∧
      D.equal (R t) (D.join (ls.filter fun x => !drops (D.head x))) = true := by
  have hdrops := hR.moderate
  obtain rfl := hR.eq_without
  have hheight : ∀ x ∈ ls.filter (fun x => !drops (D.head x)), D.HasHeight maxEqualDepth x :=
    fun x hx => hls.hasHeight areParts_unionBranches? (List.forall_mem_singleton.2 ht) x
      (List.mem_of_mem_filter hx)
  have hidentical (hnever : D.isNever t = false) :=
    without_eq_join hdrops ht.acyclic hnever hls hplain
  have hresult : D.HasHeight (maxEqualDepth + 1) (D.without drops t) :=
    (ht.without hdrops).mono (Nat.le_succ _)
  refine ⟨hidentical, equal_of_bisimilar hresult (HasHeight.join hheight).acyclic ?_⟩
  cases hnever : D.isNever t with
  | false =>
    rw [← hidentical hnever]
    exact bisimilar_equivalence.refl _
  | true => exact bisimilar_join_of_isNever hdrops ht.acyclic hnever hls

/-- Leaves of a nested union are kept in their order, and the second `string` is dropped only
when they are joined. -/
theorem narrow_eq_join_nested :
    let t : Ty :=
      .union [.string, .union [.null, .string, .literal (.bool true)], .undefined, .boolean]
    empty.removeNullish t = empty.join [.string, .string, .literal (.bool true), .boolean] ∧
      empty.removeNullish t = .union [.string, .literal (.bool true), .boolean] := by
  intro t
  have ht : empty.HasHeight 3 t := by decide
  have hls : empty.LeafSequence Ty.unionBranches? [t]
      [.string, .null, .string, .literal (.bool true), .undefined, .boolean] :=
    .nested rfl (.leaf rfl
      (.nested rfl (.leaf rfl (.leaf rfl (.leaf rfl (.leaf rfl (.leaf rfl .nil)))))))
  obtain ⟨hidentical, -⟩ :=
    narrow_eq_join .nullish (ht.mono (by decide)) hls (by simp [Ty.isMissing, head])
  exact ⟨hidentical rfl, (hidentical rfl).trans rfl⟩

end Decls

end StructuralTyping
