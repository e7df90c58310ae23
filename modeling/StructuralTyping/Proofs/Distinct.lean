import Mathlib.Data.List.Induction
import StructuralTyping.Proofs.Equal.PartialEquivalence
import StructuralTyping.Proofs.Join

/-!
# The first of each class

Joining keeps a type unless an equal one was kept before.  What was dropped is never
compared with again.  Equality is symmetric and transitive on acyclic types, so nothing is
lost by that: what is kept are the types that equal none before them, kept or not
(`Decls.distinct_eq_firsts`), and keeping the first of each class of a part beforehand makes
no difference (`Decls.distinct_append_distinct`).

Another order of the types changes which type stands for its class, but not the classes.
What is kept of the one and of the other is paired by a bijection of types that unfold alike
(`Decls.rel_distinct_of_perm`).
-/

namespace StructuralTyping

namespace Decls

variable {D : Decls} {a b c x y : Ty} {ts us xs ys zs : List Ty}

/-! ## Equal types -/

theorem equal_trans (ha : D.Acyclic a) (hb : D.Acyclic b) (hc : D.Acyclic c)
    (h : D.equal a b = true) (h' : D.equal b c = true) : D.equal a c = true :=
  (equalTypes_iff_alikeWithin ha hc).2
    (((equalTypes_iff_alikeWithin ha hb).1 h).trans ((equalTypes_iff_alikeWithin hb hc).1 h'))

theorem bisimilar_of_equal (h : D.equal a b = true) : D.Bisimilar true a b :=
  bisimilar_of_equalWithin (by simp) h

/-- Types that unfold alike are equal, unless they are too high. -/
theorem equal_of_bisimilar (ha : D.HasHeight (maxEqualDepth + 1) a) (hb : D.Acyclic b)
    (h : D.Bisimilar true a b) : D.equal a b = true :=
  (equalTypes_iff_bisimilar ha.acyclic hb (.inl ha)).2 h

/-! ## What is kept -/

theorem distinct_append (xs ys : List Ty) :
    D.distinct (xs ++ ys) = ys.foldl D.addBranch (D.distinct xs) := by
  rw [distinct, List.foldl_append, distinct]

theorem distinct_concat (ts : List Ty) (x : Ty) :
    D.distinct (ts ++ [x]) = D.addBranch (D.distinct ts) x := distinct_append ts [x]

/-- A type equals one that is kept exactly if it equals one that was there. -/
theorem any_equal_distinct (hts : ∀ t ∈ ts, D.Acyclic t) (hx : D.Acyclic x) :
    (D.distinct ts).any (D.equal · x) = ts.any (D.equal · x) := by
  rw [Bool.eq_iff_iff, List.any_eq_true, List.any_eq_true]
  constructor
  · rintro ⟨b, hb, hbx⟩
    exact ⟨b, mem_of_mem_distinct hb, hbx⟩
  · rintro ⟨t, ht, htx⟩
    obtain ⟨b, hb, rfl | hbt⟩ := exists_mem_distinct (D := D) ht
    · exact ⟨b, hb, htx⟩
    · exact ⟨b, hb, equal_trans (hts b (mem_of_mem_distinct hb)) (hts t ht) hx hbt htx⟩

theorem distinct_concat_of_any (hts : ∀ t ∈ ts, D.Acyclic t) (hx : D.Acyclic x) :
    D.distinct (ts ++ [x]) =
      if ts.any (D.equal · x) then D.distinct ts else D.distinct ts ++ [x] := by
  rw [distinct_concat, addBranch, any_equal_distinct hts hx]

/-- No type that is kept equals one that is kept after it. -/
theorem pairwise_distinct (ts : List Ty) : (D.distinct ts).Pairwise fun a b =>
    D.equal a b = false := by
  induction ts using List.reverseRecOn with
  | nil => exact .nil
  | append_singleton ts x ih =>
    rw [distinct_concat, addBranch]
    split
    · exact ih
    · next hnone =>
      refine List.pairwise_append.2 ⟨ih, List.pairwise_singleton _ x, fun b hb y hy => ?_⟩
      obtain rfl := List.mem_singleton.1 hy
      exact Bool.eq_false_iff.2 fun hequal => hnone (List.any_eq_true.2 ⟨b, hb, hequal⟩)

/-- Where no type equals a later one, all are kept. -/
theorem distinct_of_pairwise (h : ts.Pairwise fun a b => D.equal a b = false) :
    D.distinct ts = ts := by
  induction ts using List.reverseRecOn with
  | nil => rfl
  | append_singleton ts x ih =>
    obtain ⟨hts, -, hx⟩ := List.pairwise_append.1 h
    have hnone : ts.any (D.equal · x) = false :=
      List.any_eq_false.2 fun t ht => by simp [hx t ht x (.head _)]
    rw [distinct_concat, ih hts, addBranch, hnone]
    rfl

theorem distinct_eq_nil_iff : D.distinct ts = [] ↔ ts = [] := by
  constructor
  · intro h
    refine List.eq_nil_iff_forall_not_mem.2 fun x hx => ?_
    obtain ⟨b, hb, -⟩ := exists_mem_distinct (D := D) hx
    rw [h] at hb
    cases hb
  · rintro rfl
    rfl

/-- A type unfolds like one that is kept. -/
theorem exists_bisimilar_mem_distinct (hx : x ∈ ts) :
    ∃ b ∈ D.distinct ts, D.Bisimilar true b x := by
  obtain ⟨b, hb, rfl | hequal⟩ := exists_mem_distinct (D := D) hx
  · exact ⟨b, hb, bisimilar_equivalence.refl b⟩
  · exact ⟨b, hb, bisimilar_of_equal hequal⟩

/-- Where all types equal the first one, nothing else is kept. -/
theorem distinct_of_forall_equal (h : ∀ y ∈ ts, D.equal x y = true) :
    D.distinct (x :: ts) = [x] := by
  change ts.foldl D.addBranch [x] = [x]
  induction ts with
  | nil => rfl
  | cons y ts ih =>
    obtain ⟨hy, hts⟩ := List.forall_mem_cons.1 h
    rw [List.foldl_cons, addBranch, List.any_cons, hy, Bool.true_or, if_pos rfl]
    exact ih hts

/-- Where two types differ, more than one is kept. -/
theorem distinct_ne_singleton (hts : ∀ t ∈ ts, D.HasHeight (maxEqualDepth + 1) t)
    (hx : x ∈ ts) (hy : y ∈ ts) (hne : D.equal x y = false) : D.distinct ts ≠ [b] := by
  intro hsingle
  have hsame {z : Ty} (hz : z ∈ ts) : D.Bisimilar true b z := by
    obtain ⟨c, hc, hcz⟩ := exists_bisimilar_mem_distinct (D := D) hz
    rw [hsingle, List.mem_singleton] at hc
    exact hc ▸ hcz
  have hequal : D.equal x y = true := equal_of_bisimilar (hts x hx) (hts y hy).acyclic
    (bisimilar_equivalence.trans (bisimilar_equivalence.symm (hsame hx)) (hsame hy))
  cases hne.symm.trans hequal

/-! ## First occurrences -/

/-- The type at a position, unless it equals one before it. -/
def firstAt? (D : Decls) (ts : List Ty) (i : Nat) : Option Ty :=
  ts[i]?.filter fun x => !(ts.take i).any (D.equal · x)

/-- The types that equal none before them, in order. -/
def firsts (D : Decls) (ts : List Ty) : List Ty := (List.range ts.length).filterMap (D.firstAt? ts)

theorem firstAt?_append {i : Nat} (hi : i < ts.length) (us : List Ty) :
    D.firstAt? (ts ++ us) i = D.firstAt? ts i := by
  rw [firstAt?, firstAt?, List.getElem?_append_left hi, List.take_append_of_le_length hi.le]

theorem firstAt?_concat (ts : List Ty) (x : Ty) :
    D.firstAt? (ts ++ [x]) ts.length = if ts.any (D.equal · x) then none else some x := by
  rw [firstAt?, List.getElem?_concat_length, List.take_left, Option.filter_some]
  cases ts.any (D.equal · x) <;> rfl

theorem firsts_concat (ts : List Ty) (x : Ty) :
    D.firsts (ts ++ [x]) = if ts.any (D.equal · x) then D.firsts ts else D.firsts ts ++ [x] := by
  have hbefore : (List.range ts.length).filterMap (D.firstAt? (ts ++ [x])) = D.firsts ts :=
    List.filterMap_congr fun i hi => firstAt?_append (List.mem_range.1 hi) [x]
  rw [firsts, List.length_append, List.length_singleton, List.range_succ,
    List.filterMap_append, hbefore, List.filterMap_cons, List.filterMap_nil, firstAt?_concat]
  cases ts.any (D.equal · x) with
  | true => exact List.append_nil _
  | false => rfl

/-- The types that are kept are the first ones of their classes. -/
theorem distinct_eq_firsts (hts : ∀ t ∈ ts, D.Acyclic t) : D.distinct ts = D.firsts ts := by
  induction ts using List.reverseRecOn with
  | nil => rfl
  | append_singleton ts x ih =>
    obtain ⟨hts, hx⟩ := List.forall_mem_append.1 hts
    rw [distinct_concat_of_any hts (hx x (.head _)), firsts_concat, ih hts]

/-! ## Parts that were kept beforehand -/

theorem distinct_append_congr (h : D.distinct xs = D.distinct ys) (zs : List Ty) :
    D.distinct (xs ++ zs) = D.distinct (ys ++ zs) := by
  rw [distinct_append, distinct_append, h]

/-- Keeping the first of each class of a part beforehand makes no difference. -/
theorem distinct_append_distinct (hxs : ∀ x ∈ xs, D.Acyclic x) (hys : ∀ y ∈ ys, D.Acyclic y) :
    D.distinct (xs ++ D.distinct ys) = D.distinct (xs ++ ys) := by
  induction ys using List.reverseRecOn with
  | nil => rfl
  | append_singleton ys y ih =>
    obtain ⟨hys, hy⟩ := List.forall_mem_append.1 hys
    have hy : D.Acyclic y := hy y (.head _)
    have hall : ∀ z ∈ xs ++ ys, D.Acyclic z := List.forall_mem_append.2 ⟨hxs, hys⟩
    rw [distinct_concat_of_any hys hy, ← List.append_assoc, distinct_concat_of_any hall hy,
      List.any_append]
    cases hany : ys.any (D.equal · y) with
    | true => rw [Bool.or_true, if_pos rfl, if_pos rfl, ih hys]
    | false =>
      rw [if_neg Bool.false_ne_true, ← List.append_assoc, distinct_concat, ih hys, addBranch,
        any_equal_distinct hall hy, List.any_append, hany]

theorem distinct_append_right_congr (hxs : ∀ x ∈ xs, D.Acyclic x) (hys : ∀ y ∈ ys, D.Acyclic y)
    (hzs : ∀ z ∈ zs, D.Acyclic z) (h : D.distinct ys = D.distinct zs) :
    D.distinct (xs ++ ys) = D.distinct (xs ++ zs) := by
  rw [← distinct_append_distinct hxs hys, h, distinct_append_distinct hxs hzs]

/-! ## Another order -/

theorem exists_bisimilar_distinct_iff (z : Ty) :
    (∃ x ∈ D.distinct ts, D.Bisimilar true x z) ↔ ∃ x ∈ ts, D.Bisimilar true x z := by
  constructor
  · rintro ⟨x, hx, hxz⟩
    exact ⟨x, mem_of_mem_distinct hx, hxz⟩
  · rintro ⟨x, hx, hxz⟩
    obtain ⟨b, hb, hbx⟩ := exists_bisimilar_mem_distinct (D := D) hx
    exact ⟨b, hb, bisimilar_equivalence.trans hbx hxz⟩

theorem pairwise_not_bisimilar_distinct (hts : ∀ t ∈ ts, D.HasHeight (maxEqualDepth + 1) t) :
    (D.distinct ts).Pairwise fun a b => ¬ D.Bisimilar true a b := by
  refine (pairwise_distinct ts).imp_of_mem fun {a b} ha hb hne h => ?_
  have hequal : D.equal a b = true :=
    equal_of_bisimilar (hts a (mem_of_mem_distinct ha)) (hts b (mem_of_mem_distinct hb)).acyclic h
  cases hne.symm.trans hequal

/-- The order of the types has no influence on the classes. -/
theorem rel_distinct_of_perm (hts : ∀ t ∈ ts, D.HasHeight (maxEqualDepth + 1) t) (h : us.Perm ts) :
    Multiset.Rel (D.Bisimilar true) (D.distinct us : Multiset Ty)
      (D.distinct ts : Multiset Ty) := by
  have hus : ∀ u ∈ us, D.HasHeight (maxEqualDepth + 1) u := fun u hu => hts u (h.mem_iff.1 hu)
  refine rel_of_classes bisimilar_equivalence (pairwise_not_bisimilar_distinct hus)
    (pairwise_not_bisimilar_distinct hts) fun z => ?_
  rw [exists_bisimilar_distinct_iff, exists_bisimilar_distinct_iff]
  exact exists_congr fun x => and_congr_left fun _ => h.mem_iff

end Decls

end StructuralTyping
