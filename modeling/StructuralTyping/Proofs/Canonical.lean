import StructuralTyping.Proofs.Assign.Union
import StructuralTyping.Proofs.Distinct
import StructuralTyping.Proofs.Leaves

/-!
# Canonical unions and intersections

Joining and meeting depend on the leaves only.  What is kept of them is put together by
`Decls.gathered`: nothing and a single type are not wrapped.  An intersection of several
types is absorbed by `any`, and after it by `never`.

Both forget how the types were grouped.  The leaves of a joined type are what it keeps of
the leaves (`Decls.unionLeaves_join`), and to keep the first of each class beforehand makes no
difference.  A part that meets in `any` or `never` is a leaf itself, which absorbs the
whole as the leaf that it comes from does (`Decls.SameMeet`).

Both forget the order up to equality.  Types that are paired by a bijection of types that unfold
alike are put together to types that unfold alike (`Decls.bisimilar_gathered`).
-/

namespace StructuralTyping

namespace Decls

variable {D : Decls} {t x y e : Ty} {ts us xs ys zs bs cs ls : List Ty}
  {build : List Ty → Ty} {k : Keyword}

/-! ## Keywords at the head -/

theorem isKeyword_iff : D.isKeyword x k = true ↔ D.head x = .keyword k := by
  rw [isKeyword]
  cases D.head x <;> simp

theorem isKeyword_of_bisimilar {names : Bool} (h : D.Bisimilar names x y)
    (hx : D.isKeyword x k = true) : D.isKeyword y k = true := by
  have hlayer := isBisimulation_bisimilar x y h
  rw [isKeyword_iff.1 hx] at hlayer
  exact isKeyword_iff.2 hlayer.eq_keyword

theorem bisimilar_of_isKeyword {names : Bool} (hx : D.isKeyword x k = true)
    (hy : D.isKeyword y k = true) : D.Bisimilar names x y := by
  refine bisimilar_of_alike ?_
  rw [isKeyword_iff.1 hx, isKeyword_iff.1 hy]
  exact .keyword k

theorem isThere_of_isKeyword (hx : D.isKeyword x k = true) : isThere x = true := by
  cases x with
  | missing => cases hx
  | _ => rfl

theorem hasHeight_keyword (D : Decls) (n : Nat) (k : Keyword) : D.HasHeight (n + 1) (.keyword k) :=
  .layer rfl rfl fun _ hx => nomatch hx

/-! ## Putting types together -/

/-- What types are put together to: `empty` if there are none, a single type as it is, and
`build` of several. -/
def gathered (empty : Ty) (build : List Ty → Ty) : List Ty → Ty
  | [] => empty
  | [t] => t
  | ts => build ts

theorem gathered_of_two (hnil : ts ≠ []) (hsingle : ∀ b, ts ≠ [b]) :
    gathered e build ts = build ts := by
  rw [gathered]
  · exact hnil
  · exact hsingle

theorem gathered_cases (e : Ty) (build : List Ty → Ty) (ts : List Ty) :
    (ts = [] ∧ gathered e build ts = e) ∨ (∃ b, ts = [b] ∧ gathered e build ts = b) ∨
      ts ≠ [] ∧ (∀ b, ts ≠ [b]) ∧ gathered e build ts = build ts := by
  match ts with
  | [] => exact .inl ⟨rfl, rfl⟩
  | [b] => exact .inr (.inl ⟨b, rfl, rfl⟩)
  | _ :: _ :: _ => exact .inr (.inr ⟨nofun, nofun, rfl⟩)

theorem gathered_congr {build' : List Ty → Ty} (h : build ts = build' ts) :
    gathered e build ts = gathered e build' ts := by
  match ts with
  | [] | [_] => rfl
  | _ :: _ :: _ => exact h

theorem hasHeight_gathered {n : Nat} (he : D.HasHeight (n + 1) e) (hts : ∀ t ∈ ts, D.HasHeight n t)
    (hbuild : D.HasHeight (n + 1) (build ts)) : D.HasHeight (n + 1) (gathered e build ts) := by
  rw [gathered.eq_def]
  split
  · exact he
  · exact (hts _ (.head _)).mono (Nat.le_succ n)
  · exact hbuild

/-- Types that are paired are put together to types that unfold alike. -/
theorem bisimilar_gathered
    (h : Multiset.Rel (D.Bisimilar true) (bs : Multiset Ty) (cs : Multiset Ty))
    (hbuild : D.Bisimilar true (build bs) (build cs)) :
    D.Bisimilar true (gathered e build bs) (gathered e build cs) := by
  have hlength : bs.length = cs.length := by simpa using Multiset.card_eq_card_of_rel h
  match bs, cs, hlength with
  | [], [], _ => exact bisimilar_equivalence.refl e
  | [b], [c], _ =>
    obtain ⟨c', hc', hbc⟩ := exists_of_rel_left h (.head _)
    rwa [List.mem_singleton.1 hc'] at hbc
  | _ :: _ :: _, _ :: _ :: _, _ => exact hbuild

/-- Leaves are put together: the first one if all are equal, and else the first of each
class. -/
structure Assembles (D : Decls) (build : List Ty → Ty) (ls : List Ty) (t : Ty) : Prop where
  same : ∀ x rest, ls = x :: rest → (∀ y ∈ rest, D.equal x y = true) → t = x
  different : ∀ x ∈ ls, ∀ y ∈ ls, D.equal x y = false → t = build (D.firsts ls)

theorem assembles_gathered (hls : ∀ x ∈ ls, D.HasHeight (maxEqualDepth + 1) x) :
    D.Assembles build ls (gathered e build (D.distinct ls)) where
  same x rest hrest hequal := by
    rw [hrest, distinct_of_forall_equal hequal, gathered]
  different x hx y hy hne := by
    have hnil : D.distinct ls ≠ [] := fun h => List.ne_nil_of_mem hx (distinct_eq_nil_iff.1 h)
    rw [gathered_of_two hnil fun b => distinct_ne_singleton hls hx hy hne,
      distinct_eq_firsts fun x hx => (hls x hx).acyclic]

/-! ## Leaves that are kept -/

namespace Collects

variable {branches? : Ty → Option (List Ty)} {counts : Ty → Bool} {collect : List Ty → List Ty}

theorem areLeaves_distinct (h : D.Collects branches? counts collect) (hts : ∀ t ∈ ts, D.Acyclic t) :
    D.AreLeaves branches? counts (D.distinct (collect ts)) :=
  (h.areLeaves hts).of_subset fun _ => mem_of_mem_distinct

theorem hasHeight_distinct (h : D.Collects branches? counts collect) {n : Nat}
    (hts : ∀ t ∈ ts, D.HasHeight n t) : ∀ x ∈ D.distinct (collect ts), D.HasHeight n x :=
  fun x hx => h.hasHeight hts x (mem_of_mem_distinct hx)

/-- The leaves of what leaves are put together to are those that were kept. -/
theorem gathered (h : D.Collects branches? counts collect) (hts : ∀ t ∈ ts, D.Acyclic t)
    (hempty : collect ts = [] → collect [e] = [])
    (hbuild : ∀ bs, collect [build bs] = collect bs) :
    collect [Decls.gathered e build (D.distinct (collect ts))] = D.distinct (collect ts) := by
  have hself : collect (D.distinct (collect ts)) = D.distinct (collect ts) :=
    h.self (h.areLeaves_distinct hts)
  rcases gathered_cases e build (D.distinct (collect ts)) with ⟨hnil, hgathered⟩ |
    ⟨b, hsingle, hgathered⟩ | ⟨-, -, hgathered⟩
  · rw [hgathered, hnil]
    exact hempty (distinct_eq_nil_iff.1 hnil)
  · rw [hgathered, ← hsingle, hself]
  · rw [hgathered, hbuild, hself]

/-- A type whose leaves are what was kept of others may stand for them. -/
theorem distinct_group (h : D.Collects branches? counts collect) (hxs : ∀ x ∈ xs, D.Acyclic x)
    (hys : ∀ y ∈ ys, D.Acyclic y) (ht : collect [t] = D.distinct (collect ys)) :
    D.distinct (collect (xs ++ t :: zs)) = D.distinct (collect (xs ++ ys ++ zs)) := by
  rw [h.append xs, h.cons, ht, h.append (xs ++ ys), h.append xs, ← List.append_assoc]
  exact distinct_append_congr
    (distinct_append_distinct (h.areLeaves hxs).acyclic (h.areLeaves hys).acyclic) _

theorem rel_of_perm (h : D.Collects branches? counts collect)
    (hts : ∀ t ∈ ts, D.HasHeight (maxEqualDepth + 1) t) (hperm : us.Perm ts) :
    Multiset.Rel (D.Bisimilar true) (D.distinct (collect us) : Multiset Ty)
      (D.distinct (collect ts) : Multiset Ty) :=
  rel_distinct_of_perm (h.hasHeight hts) (h.perm hperm)

end Collects

/-! ## Unions -/

theorem join_eq_gathered (D : Decls) (ts : List Ty) :
    D.join ts = gathered .never .union (D.joined ts) := by
  rw [join, joined]
  rcases D.distinct (D.unionLeaves ts) with _ | ⟨x, _ | ⟨y, bs⟩⟩
  · rfl
  · rfl
  · rfl

theorem join_congr (h : D.joined ts = D.joined us) : D.join ts = D.join us := by
  rw [join_eq_gathered, join_eq_gathered, h]

/-- The leaves of a joined type are what was kept. -/
theorem unionLeaves_join (hts : ∀ t ∈ ts, D.Acyclic t) :
    D.unionLeaves [D.join ts] = D.joined ts := by
  rw [join_eq_gathered]
  exact D.collects_unionLeaves.gathered hts (fun _ => rfl) unionLeaves_union

/-- Joining some of the types beforehand makes no difference. -/
theorem joined_group (hxs : ∀ x ∈ xs, D.Acyclic x) (hys : ∀ y ∈ ys, D.Acyclic y) :
    D.joined (xs ++ D.join ys :: zs) = D.joined (xs ++ ys ++ zs) :=
  D.collects_unionLeaves.distinct_group hxs hys (unionLeaves_join hys)

theorem bisimilar_join_of_perm (hts : ∀ t ∈ ts, D.HasHeight (maxEqualDepth + 1) t)
    (h : us.Perm ts) : D.Bisimilar true (D.join us) (D.join ts) := by
  have hrel := D.collects_unionLeaves.rel_of_perm hts h
  rw [join_eq_gathered, join_eq_gathered]
  exact bisimilar_gathered hrel (bisimilar_of_alike (.union hrel))

theorem HasHeight.join {n : Nat} (hts : ∀ t ∈ ts, D.HasHeight n t) :
    D.HasHeight (n + 1) (D.join ts) := by
  have hjoined : ∀ b ∈ D.joined ts, D.HasHeight n b := D.collects_unionLeaves.hasHeight_distinct hts
  rw [join_eq_gathered]
  exact hasHeight_gathered (hasHeight_keyword D n _) hjoined (.layer rfl rfl hjoined)

/-- Where no leaf counts the union is `never`, and else the leaves that count are put together. -/
theorem join_of_leafSequence (hts : ∀ t ∈ ts, D.HasHeight (maxEqualDepth + 1) t)
    (hls : D.LeafSequence Ty.unionBranches? ts ls) :
    (ls.filter D.isProper = [] → D.join ts = .never) ∧
      D.Assembles .union (ls.filter D.isProper) (D.join ts) := by
  have hleaves := D.collects_unionLeaves.eq_filter (fun t ht => (hts t ht).acyclic) hls
  rw [join_eq_gathered, joined, hleaves]
  constructor
  · intro hnil
    rw [hnil]
    rfl
  · exact assembles_gathered fun x hx => D.collects_unionLeaves.hasHeight hts x (hleaves ▸ hx)

/-- The order of the types does not matter up to equality. -/
theorem equal_join_of_perm (hts : ∀ t ∈ ts, D.HasHeight maxEqualDepth t) (h : us.Perm ts) :
    D.equal (D.join us) (D.join ts) = true := by
  have hus : ∀ u ∈ us, D.HasHeight maxEqualDepth u := fun u hu => hts u (h.mem_iff.1 hu)
  refine equal_of_bisimilar (.join hus) (HasHeight.join hts).acyclic ?_
  exact bisimilar_join_of_perm (fun t ht => (hts t ht).mono (Nat.le_succ _)) h

/-- The canonical form of a union: `never` if no leaf counts, and else the leaves that count,
put together.  It depends neither on the grouping of the types nor, up to equality, on their
order. -/
theorem join_canonical (hts : ∀ t ∈ ts, D.HasHeight maxEqualDepth t) :
    (∃ ls, D.LeafSequence Ty.unionBranches? ts ls ∧
        (ls.filter D.isProper = [] → D.join ts = .never) ∧
        D.Assembles .union (ls.filter D.isProper) (D.join ts)) ∧
      (∀ xs ys zs, ts = xs ++ ys ++ zs → D.join (xs ++ D.join ys :: zs) = D.join ts) ∧
      ∀ us, us.Perm ts → D.equal (D.join us) (D.join ts) = true := by
  have hacyclic : ∀ t ∈ ts, D.Acyclic t := fun t ht => (hts t ht).acyclic
  refine ⟨?_, ?_, ?_⟩
  · obtain ⟨ls, hls⟩ := exists_leafSequence areParts_unionBranches? hacyclic
    exact ⟨ls, hls, join_of_leafSequence (fun t ht => (hts t ht).mono (Nat.le_succ _)) hls⟩
  · rintro xs ys zs rfl
    obtain ⟨hxsys, -⟩ := List.forall_mem_append.1 hacyclic
    obtain ⟨hxs, hys⟩ := List.forall_mem_append.1 hxsys
    exact join_congr (joined_group hxs hys)
  · intro us hperm
    exact equal_join_of_perm hts hperm

/-- A missing type, `never` and a branch that is there already are dropped, whatever is joined
first and in which order. -/
theorem join_canonical_nested :
    let nested : Ty := .union [.string, .union [.never, .array .number]]
    let ts : List Ty := [.missing, nested, .array .number, .boolean]
    empty.join ts = .union [.string, .array .number, .boolean] ∧
      empty.join [.missing, empty.join [nested, .array .number], .boolean] = empty.join ts ∧
      empty.equal (empty.join [.boolean, .array .number, nested, .missing]) (empty.join ts) =
        true := by
  intro nested ts
  have hheight : ∀ t ∈ ts, empty.HasHeight 4 t := by decide
  obtain ⟨⟨ls, hls, -, hassembles⟩, hgroup, hperm⟩ :=
    join_canonical fun t ht => (hheight t ht).mono (by decide)
  have hleaves : ls = [.missing, .string, .never, .array .number, .array .number, .boolean] :=
    hls.unique
      (.leaf rfl (.nested rfl
        (.leaf rfl (.nested rfl (.leaf rfl (.leaf rfl (.leaf rfl (.leaf rfl .nil))))))))
  refine ⟨?_, hgroup [.missing] [nested, .array .number] [.boolean] rfl, ?_⟩
  · subst hleaves
    exact hassembles.different .string (.head _) .boolean
      (.tail _ (.tail _ (.tail _ (.head _)))) (by decide)
  · exact hperm _ (List.reverse_perm ts)

/-! ## Keywords that absorb -/

/-- The keyword that an intersection of the types collapses to. -/
def absorbing? (D : Decls) (ts : List Ty) : Option Keyword :=
  if ts.any (D.isKeyword · .any) then some .any else if ts.any D.isNever then some .never else none

theorem absorbing?_eq_any (hx : x ∈ ts) (hany : D.isKeyword x .any = true) :
    D.absorbing? ts = some .any := by
  rw [absorbing?, if_pos (List.any_eq_true.2 ⟨x, hx, hany⟩)]

theorem absorbing?_eq_never (hany : ∀ x ∈ ts, D.isKeyword x .any = false) (hx : x ∈ ts)
    (hnever : D.isNever x = true) : D.absorbing? ts = some .never := by
  rw [absorbing?, List.any_eq_false.2 fun x hx => by simp [hany x hx], if_neg Bool.false_ne_true,
    if_pos (List.any_eq_true.2 ⟨x, hx, hnever⟩)]

theorem absorbing?_eq_none_iff :
    D.absorbing? ts = none ↔
      (∀ x ∈ ts, D.isKeyword x .any = false) ∧ ∀ x ∈ ts, D.isNever x = false := by
  rw [absorbing?]
  simp only [← Bool.not_eq_true, ← List.any_eq_false]
  split
  · next h => simp [h]
  · split
    · next h => simp [h]
    · next h h' => simp [h, h']

theorem absorbing?_eq_none_of_subset (h : D.absorbing? ts = none) (hus : us ⊆ ts) :
    D.absorbing? us = none := by
  obtain ⟨hany, hnever⟩ := absorbing?_eq_none_iff.1 h
  exact absorbing?_eq_none_iff.2 ⟨fun x hx => hany x (hus hx), fun x hx => hnever x (hus hx)⟩

theorem exists_of_absorbing? (h : D.absorbing? ts = some k) : ∃ x ∈ ts, D.isKeyword x k = true := by
  rw [absorbing?] at h
  split at h
  · next hany =>
    obtain rfl := Option.some.inj h
    exact List.any_eq_true.1 hany
  · split at h
    · next hnever =>
      obtain rfl := Option.some.inj h
      exact List.any_eq_true.1 hnever
    · cases h

theorem absorbing?_singleton (hk : k = .any ∨ k = .never) (hx : D.isKeyword x k = true) :
    D.absorbing? [x] = some k := by
  have hhead : D.head x = .keyword k := isKeyword_iff.1 hx
  rcases hk with rfl | rfl <;> simp [absorbing?, isNever, isKeyword, hhead]

theorem any_or_never_of_absorbing? (h : D.absorbing? ts = some k) : k = .any ∨ k = .never := by
  rw [absorbing?] at h
  split at h
  · exact .inl (Option.some.inj h).symm
  · split at h
    · exact .inr (Option.some.inj h).symm
    · cases h

theorem absorbing?_append_congr (h : D.absorbing? ys = D.absorbing? zs) (xs us : List Ty) :
    D.absorbing? (xs ++ ys ++ us) = D.absorbing? (xs ++ zs ++ us) := by
  simp only [absorbing?, List.any_append] at h ⊢
  grind

/-- Types that unfold like types of the one list and of the other absorb alike. -/
theorem absorbing?_congr (hxs : ∀ x ∈ xs, ∃ y ∈ ys, D.Bisimilar true x y)
    (hys : ∀ y ∈ ys, ∃ x ∈ xs, D.Bisimilar true x y) : D.absorbing? xs = D.absorbing? ys := by
  have hsame (k : Keyword) : xs.any (D.isKeyword · k) = ys.any (D.isKeyword · k) := by
    rw [Bool.eq_iff_iff, List.any_eq_true, List.any_eq_true]
    constructor
    · rintro ⟨x, hx, hk⟩
      obtain ⟨y, hy, hxy⟩ := hxs x hx
      exact ⟨y, hy, isKeyword_of_bisimilar hxy hk⟩
    · rintro ⟨y, hy, hk⟩
      obtain ⟨x, hx, hxy⟩ := hys y hy
      exact ⟨x, hx, isKeyword_of_bisimilar (bisimilar_equivalence.symm hxy) hk⟩
  have hnever : xs.any D.isNever = ys.any D.isNever := hsame .never
  rw [absorbing?, hsame, hnever, absorbing?]

theorem absorbing?_distinct : D.absorbing? (D.distinct ts) = D.absorbing? ts :=
  absorbing?_congr (fun x hx => ⟨x, mem_of_mem_distinct hx, bisimilar_equivalence.refl x⟩)
    fun _ hx => exists_bisimilar_mem_distinct hx

theorem absorbing?_of_rel
    (h : Multiset.Rel (D.Bisimilar true) (bs : Multiset Ty) (cs : Multiset Ty)) :
    D.absorbing? bs = D.absorbing? cs :=
  absorbing?_congr (fun _ hb => exists_of_rel_left h hb) fun _ hc => exists_of_rel_right h hc

/-! ## Intersections -/

/-- The branches that meeting keeps. -/
def met (D : Decls) (ts : List Ty) : List Ty := D.distinct (D.interLeaves ts)

/-- An intersection of several types. -/
def intersected (D : Decls) (bs : List Ty) : Ty :=
  match D.absorbing? bs with
  | some k => .keyword k
  | none => .inter bs

theorem meet_eq_gathered (D : Decls) (ts : List Ty) :
    D.meet ts = gathered .any D.intersected (D.met ts) := by
  rw [meet, met]
  rcases D.distinct (D.interLeaves ts) with _ | ⟨x, _ | ⟨y, bs⟩⟩
  · rfl
  · rfl
  · show (if _ then _ else if _ then _ else _) = D.intersected (x :: y :: bs)
    rw [intersected, absorbing?]
    split
    · rfl
    · split <;> rfl

theorem hasHeight_intersected {n : Nat} (hbs : ∀ b ∈ bs, D.HasHeight n b) :
    D.HasHeight (n + 1) (D.intersected bs) := by
  rw [intersected]
  split
  · exact hasHeight_keyword D n _
  · exact .layer rfl rfl hbs

theorem bisimilar_intersected
    (h : Multiset.Rel (D.Bisimilar true) (bs : Multiset Ty) (cs : Multiset Ty)) :
    D.Bisimilar true (D.intersected bs) (D.intersected cs) := by
  rw [intersected, intersected, absorbing?_of_rel h]
  split
  · exact bisimilar_equivalence.refl _
  · exact bisimilar_of_alike (.inter h)

/-- A leaf that absorbs is what the types meet in. -/
theorem isKeyword_meet (h : D.absorbing? (D.interLeaves ts) = some k) :
    D.isKeyword (D.meet ts) k = true := by
  have hmet : D.absorbing? (D.met ts) = some k := absorbing?_distinct.trans h
  rw [meet_eq_gathered, gathered.eq_def]
  split
  · next hnil =>
    rw [hnil] at hmet
    cases hmet
  · next b hsingle =>
    obtain ⟨x, hx, hk⟩ := exists_of_absorbing? hmet
    rw [hsingle, List.mem_singleton] at hx
    exact hx ▸ hk
  · rw [intersected, hmet]
    exact isKeyword_iff.2 rfl

/-- Leaves that do not absorb are put together. -/
theorem meet_of_not_absorbing (h : D.absorbing? (D.interLeaves ts) = none) :
    D.meet ts = gathered .any .inter (D.met ts) := by
  have hmet : D.absorbing? (D.met ts) = none := absorbing?_distinct.trans h
  have hinter : D.intersected (D.met ts) = .inter (D.met ts) := by rw [intersected, hmet]
  rw [meet_eq_gathered, gathered_congr hinter]

/-- Leaves that do not absorb are the leaves of what they are put together to. -/
theorem interLeaves_meet (hts : ∀ t ∈ ts, D.Acyclic t) (hleaf : D.interLeaves ts ≠ [])
    (h : D.absorbing? (D.interLeaves ts) = none) : D.interLeaves [D.meet ts] = D.met ts := by
  rw [meet_of_not_absorbing h]
  exact D.collects_interLeaves.gathered hts (fun hnil => absurd hnil hleaf) interLeaves_inter

/-- A keyword is its own leaf. -/
theorem interLeaves_of_isKeyword (hx : D.isKeyword x k = true) (hacyclic : D.Acyclic x) :
    D.interLeaves [x] = [x] := by
  have hhead : D.head x = .keyword k := isKeyword_iff.1 hx
  rw [D.collects_interLeaves.of_head hacyclic (by rw [hhead]; rfl),
    List.filter_cons_of_pos (isThere_of_isKeyword hx), List.filter_nil]

theorem HasHeight.meet {n : Nat} (hts : ∀ t ∈ ts, D.HasHeight n t) :
    D.HasHeight (n + 1) (D.meet ts) := by
  have hmet : ∀ b ∈ D.met ts, D.HasHeight n b := D.collects_interLeaves.hasHeight_distinct hts
  rw [meet_eq_gathered]
  exact hasHeight_gathered (hasHeight_keyword D n _) hmet (hasHeight_intersected hmet)

/-- What types meet in absorbs as they do. -/
theorem absorbing?_interLeaves_meet {n : Nat} (hts : ∀ t ∈ ts, D.HasHeight n t)
    (hleaf : D.interLeaves ts ≠ []) :
    D.absorbing? (D.interLeaves [D.meet ts]) = D.absorbing? (D.interLeaves ts) := by
  cases h : D.absorbing? (D.interLeaves ts) with
  | none =>
    rw [interLeaves_meet (fun t ht => (hts t ht).acyclic) hleaf h]
    exact absorbing?_distinct.trans h
  | some k =>
    rw [interLeaves_of_isKeyword (isKeyword_meet h) (HasHeight.meet hts).acyclic]
    exact absorbing?_singleton (any_or_never_of_absorbing? h) (isKeyword_meet h)

/-- The same intersection: identical, or both absorbed by the same keyword. -/
def SameMeet (D : Decls) (s t : Ty) : Prop :=
  s = t ∨ ∃ k ∈ [Keyword.any, Keyword.never], D.isKeyword s k = true ∧ D.isKeyword t k = true

/-- Meeting some of the types beforehand makes no difference, unless they have no leaves. -/
theorem sameMeet_group {n : Nat} (hts : ∀ t ∈ xs ++ ys ++ zs, D.HasHeight n t)
    (hleaf : D.interLeaves ys ≠ []) :
    D.SameMeet (D.meet (xs ++ D.meet ys :: zs)) (D.meet (xs ++ ys ++ zs)) := by
  have hcollects := D.collects_interLeaves
  obtain ⟨hxsys, -⟩ := List.forall_mem_append.1 hts
  obtain ⟨hxs, hys⟩ := List.forall_mem_append.1 hxsys
  have hflat : D.interLeaves (xs ++ ys ++ zs) =
      D.interLeaves xs ++ D.interLeaves ys ++ D.interLeaves zs := by
    rw [hcollects.append, hcollects.append]
  have habsorbing : D.absorbing? (D.interLeaves (xs ++ D.meet ys :: zs)) =
      D.absorbing? (D.interLeaves (xs ++ ys ++ zs)) := by
    rw [hflat, hcollects.append xs, hcollects.cons, ← List.append_assoc]
    exact absorbing?_append_congr (absorbing?_interLeaves_meet hys hleaf) _ _
  cases hflatAbsorbing : D.absorbing? (D.interLeaves (xs ++ ys ++ zs)) with
  | some k =>
    refine .inr ⟨k, ?_, isKeyword_meet (habsorbing.trans hflatAbsorbing),
      isKeyword_meet hflatAbsorbing⟩
    simpa using any_or_never_of_absorbing? hflatAbsorbing
  | none =>
    -- Nothing absorbs, so the leaves of the part are what is kept of them.
    have hnone : D.absorbing? (D.interLeaves ys) = none :=
      absorbing?_eq_none_of_subset hflatAbsorbing fun y hy =>
        hflat ▸ List.mem_append_left _ (List.mem_append_right _ hy)
    have hysAcyclic : ∀ y ∈ ys, D.Acyclic y := fun y hy => (hys y hy).acyclic
    have hmet : D.met (xs ++ D.meet ys :: zs) = D.met (xs ++ ys ++ zs) :=
      hcollects.distinct_group (fun x hx => (hxs x hx).acyclic) hysAcyclic
        (interLeaves_meet hysAcyclic hleaf hnone)
    left
    rw [D.meet_eq_gathered (xs ++ ys ++ zs), ← hmet, ← meet_eq_gathered]

theorem bisimilar_meet_of_perm (hts : ∀ t ∈ ts, D.HasHeight (maxEqualDepth + 1) t)
    (h : us.Perm ts) : D.Bisimilar true (D.meet us) (D.meet ts) := by
  have hrel := D.collects_interLeaves.rel_of_perm hts h
  rw [meet_eq_gathered, meet_eq_gathered]
  exact bisimilar_gathered hrel (bisimilar_intersected hrel)

/-- A leaf `any` absorbs, and without one `never` does.  Otherwise the leaves that count are put
together. -/
theorem meet_of_leafSequence (hts : ∀ t ∈ ts, D.HasHeight (maxEqualDepth + 1) t)
    (hls : D.LeafSequence Ty.interBranches? ts ls) :
    ((∃ x ∈ ls, D.isKeyword x .any = true) → D.isKeyword (D.meet ts) .any = true) ∧
      ((∀ x ∈ ls, D.isKeyword x .any = false) → (∃ x ∈ ls, D.isNever x = true) →
        D.isNever (D.meet ts) = true) ∧
      ((∀ x ∈ ls, D.isKeyword x .any = false) → (∀ x ∈ ls, D.isNever x = false) →
        D.Assembles .inter (ls.filter isThere) (D.meet ts)) := by
  have hleaves := D.collects_interLeaves.eq_filter (fun t ht => (hts t ht).acyclic) hls
  have hkept {x : Ty} {k : Keyword} (hx : x ∈ ls) (hk : D.isKeyword x k = true) :
      x ∈ D.interLeaves ts := by
    rw [hleaves, List.mem_filter]
    exact ⟨hx, isThere_of_isKeyword hk⟩
  have hleaf {x : Ty} (hx : x ∈ D.interLeaves ts) : x ∈ ls := by
    rw [hleaves] at hx
    exact List.mem_of_mem_filter hx
  refine ⟨?_, ?_, ?_⟩
  · rintro ⟨x, hx, hany⟩
    exact isKeyword_meet (absorbing?_eq_any (hkept hx hany) hany)
  · rintro hany ⟨x, hx, hnever⟩
    exact isKeyword_meet
      (absorbing?_eq_never (fun y hy => hany y (hleaf hy)) (hkept hx hnever) hnever)
  · intro hany hnever
    have hnone : D.absorbing? (D.interLeaves ts) = none :=
      absorbing?_eq_none_iff.2 ⟨fun y hy => hany y (hleaf hy), fun y hy => hnever y (hleaf hy)⟩
    rw [meet_of_not_absorbing hnone, met, hleaves]
    exact assembles_gathered fun x hx => D.collects_interLeaves.hasHeight hts x (hleaves ▸ hx)

/-- The order of the types does not matter up to equality. -/
theorem equal_meet_of_perm (hts : ∀ t ∈ ts, D.HasHeight maxEqualDepth t) (h : us.Perm ts) :
    D.equal (D.meet us) (D.meet ts) = true := by
  have hus : ∀ u ∈ us, D.HasHeight maxEqualDepth u := fun u hu => hts u (h.mem_iff.1 hu)
  refine equal_of_bisimilar (.meet hus) (HasHeight.meet hts).acyclic ?_
  exact bisimilar_meet_of_perm (fun t ht => (hts t ht).mono (Nat.le_succ _)) h

/-- The canonical form of an intersection, as long as a leaf is there: `any` if it is a leaf,
else `never` if it is a leaf, and else the leaves, put together.  It depends neither on the
grouping of the types, of which those that are grouped have a leaf, nor, up to equality, on
their order. -/
theorem meet_canonical (hts : ∀ t ∈ ts, D.HasHeight maxEqualDepth t) :
    (∃ ls, D.LeafSequence Ty.interBranches? ts ls ∧
        ((∃ x ∈ ls, D.isKeyword x .any = true) → D.isKeyword (D.meet ts) .any = true) ∧
        ((∀ x ∈ ls, D.isKeyword x .any = false) → (∃ x ∈ ls, D.isNever x = true) →
          D.isNever (D.meet ts) = true) ∧
        ((∀ x ∈ ls, D.isKeyword x .any = false) → (∀ x ∈ ls, D.isNever x = false) →
          D.Assembles .inter (ls.filter isThere) (D.meet ts))) ∧
      (∀ xs ys zs ls, ts = xs ++ ys ++ zs → D.LeafSequence Ty.interBranches? ys ls →
        ls.filter isThere ≠ [] → D.SameMeet (D.meet (xs ++ D.meet ys :: zs)) (D.meet ts)) ∧
      ∀ us, us.Perm ts → D.equal (D.meet us) (D.meet ts) = true := by
  have hacyclic : ∀ t ∈ ts, D.Acyclic t := fun t ht => (hts t ht).acyclic
  refine ⟨?_, ?_, ?_⟩
  · obtain ⟨ls, hls⟩ := exists_leafSequence areParts_interBranches? hacyclic
    exact ⟨ls, hls, meet_of_leafSequence (fun t ht => (hts t ht).mono (Nat.le_succ _)) hls⟩
  · rintro xs ys zs ls rfl hls hleaf
    have hys : ∀ y ∈ ys, D.Acyclic y := fun y hy =>
      hacyclic y (List.mem_append_left _ (List.mem_append_right _ hy))
    exact sameMeet_group hts (D.collects_interLeaves.eq_filter hys hls ▸ hleaf)
  · intro us hperm
    exact equal_meet_of_perm hts hperm

/-- A part that meets in `never` does not keep `any` from absorbing the whole.  Without
either, a branch that is there already is dropped. -/
theorem meet_canonical_absorbed :
    let pair : Ty := .inter [.string, .array .number]
    empty.SameMeet (empty.meet [empty.meet [pair, .never], .any])
      (empty.meet [pair, .never, .any]) ∧
      empty.isKeyword (empty.meet [pair, .never, .any]) .any = true ∧
      empty.meet [pair, .boolean, .string] = .inter [.string, .array .number, .boolean] ∧
      empty.equal (empty.meet [.string, .boolean, pair]) (empty.meet [pair, .boolean, .string]) =
        true := by
  intro pair
  have habsorbed : ∀ t ∈ [pair, .never, .any], empty.HasHeight 3 t := by decide
  have hkept : ∀ t ∈ [pair, .boolean, .string], empty.HasHeight 3 t := by decide
  have hpair : empty.LeafSequence Ty.interBranches? [pair, .never]
      [.string, .array .number, .never] :=
    .nested rfl (.leaf rfl (.leaf rfl (.leaf rfl .nil)))
  obtain ⟨⟨ls, hls, hany, -⟩, hgroup, -⟩ :=
    meet_canonical fun t ht => (habsorbed t ht).mono (by decide)
  obtain ⟨⟨ms, hms, -, -, hassembles⟩, -, hperm⟩ :=
    meet_canonical fun t ht => (hkept t ht).mono (by decide)
  have hleaves : ls = [.string, .array .number, .never, .any] :=
    hls.unique (.nested rfl (.leaf rfl (.leaf rfl (.leaf rfl (.leaf rfl .nil)))))
  have hleaves' : ms = [.string, .array .number, .boolean, .string] :=
    hms.unique (.nested rfl (.leaf rfl (.leaf rfl (.leaf rfl (.leaf rfl .nil)))))
  subst hleaves hleaves'
  refine ⟨hgroup [] [pair, .never] [.any] _ rfl hpair nofun, hany ⟨.any, by simp, rfl⟩, ?_, ?_⟩
  · exact (hassembles (by decide) (by decide)).different .string (.head _) .boolean
      (.tail _ (.tail _ (.head _))) (by decide)
  · exact hperm _ (List.reverse_perm [pair, .boolean, .string])

end Decls

end StructuralTyping
