import Mathlib.Data.List.TakeWhile
import StructuralTyping.Ty.Identity

/-!
# Identity is equality of terms

`Ty.same` compares two types by walking them side by side.  Two types
that it lets pass are one term, so a question that counts as open is one of those
that were asked before, word for word.

A declared type is a term of its own, `Ty.named`.  So on declared types this is
the identity of nodes: two declarations that look alike are different terms.
-/

namespace StructuralTyping

/-! ## Patterns -/

mutual

/-- The same pattern is the same term. -/
theorem Pattern.eq_of_same : ∀ {p q : Pattern}, p.same q = true → p = q
  | .hole, q, h => by cases q <;> simp_all [Pattern.same]
  | .ident a o, q, h => by cases q <;> simp_all [Pattern.same]
  | .array as, q, h => by
      cases q with
      | array bs => exact congrArg _ (Pattern.eq_of_sameList (by simpa [Pattern.same] using h))
      | _ => simp [Pattern.same] at h
  | .object as r, q, h => by
      cases q with
      | object bs s =>
          simp only [Pattern.same, Bool.and_eq_true] at h
          rw [Pattern.eq_of_sameEntries h.1, Pattern.eq_of_same h.2]
      | _ => simp [Pattern.same] at h
  | .rest a, q, h => by
      cases q with
      | rest b => exact congrArg _ (Pattern.eq_of_same (by simpa [Pattern.same] using h))
      | _ => simp [Pattern.same] at h
termination_by structural p => p

theorem Pattern.eq_of_sameList : ∀ {ps qs : List Pattern}, Pattern.sameList ps qs = true → ps = qs
  | [], qs, h => by cases qs <;> simp_all [Pattern.sameList]
  | p :: ps, qs, h => by
      cases qs with
      | nil => simp [Pattern.sameList] at h
      | cons q qs =>
          simp only [Pattern.sameList, Bool.and_eq_true] at h
          rw [Pattern.eq_of_same h.1, Pattern.eq_of_sameList h.2]
termination_by structural ps => ps

theorem Pattern.eq_of_sameEntries :
    ∀ {es fs : List (PropKey × Pattern)}, Pattern.sameEntries es fs = true → es = fs
  | [], fs, h => by cases fs <;> simp_all [Pattern.sameEntries]
  | e :: es, fs, h => by
      cases fs with
      | nil => simp [Pattern.sameEntries] at h
      | cons f fs =>
          simp only [Pattern.sameEntries, Bool.and_eq_true] at h
          rw [Pattern.eq_of_sameEntry h.1, Pattern.eq_of_sameEntries h.2]
termination_by structural es => es

theorem Pattern.eq_of_sameEntry : ∀ {e f : PropKey × Pattern}, Pattern.sameEntry e f = true → e = f
  | (k, p), (l, q), h => by
      simp only [Pattern.sameEntry, Bool.and_eq_true, beq_iff_eq] at h
      rw [h.1, Pattern.eq_of_same h.2]
termination_by structural e => e

end

mutual

/-- A pattern is the same as itself. -/
theorem Pattern.same_self : ∀ p : Pattern, p.same p = true
  | .hole => rfl
  | .ident a o => by simp [Pattern.same]
  | .array ps => Pattern.sameList_self ps
  | .object es r => by simp [Pattern.same, Pattern.sameEntries_self es, Pattern.same_self r]
  | .rest p => Pattern.same_self p
termination_by structural p => p

theorem Pattern.sameList_self : ∀ ps : List Pattern, Pattern.sameList ps ps = true
  | [] => rfl
  | p :: ps => by simp [Pattern.sameList, Pattern.same_self p, Pattern.sameList_self ps]
termination_by structural ps => ps

theorem Pattern.sameEntries_self : ∀ es : List (PropKey × Pattern), Pattern.sameEntries es es = true
  | [] => rfl
  | e :: es => by simp [Pattern.sameEntries, Pattern.sameEntry_self e, Pattern.sameEntries_self es]
termination_by structural es => es

theorem Pattern.sameEntry_self : ∀ e : PropKey × Pattern, Pattern.sameEntry e e = true
  | (k, p) => by simp [Pattern.sameEntry, Pattern.same_self p]
termination_by structural e => e

end

/-! ## Types -/

mutual

/-- The same type is the same term. -/
theorem Ty.eq_of_same : ∀ {a b : Ty}, a.same b = true → a = b
  | .missing, b, h => by cases b <;> simp_all [Ty.same]
  | .keyword _, b, h => by cases b <;> simp_all [Ty.same]
  | .literal _, b, h => by cases b <;> simp_all [Ty.same]
  | .array _, b, h => by
      cases b with
      | array => exact congrArg _ (Ty.eq_of_same (by simpa [Ty.same] using h))
      | _ => simp [Ty.same] at h
  | .tuple _, b, h => by
      cases b with
      | tuple => exact congrArg _ (Ty.eq_of_sameList (by simpa [Ty.same] using h))
      | _ => simp [Ty.same] at h
  | .union _, b, h => by
      cases b with
      | union => exact congrArg _ (Ty.eq_of_sameList (by simpa [Ty.same] using h))
      | _ => simp [Ty.same] at h
  | .inter _, b, h => by
      cases b with
      | inter => exact congrArg _ (Ty.eq_of_sameList (by simpa [Ty.same] using h))
      | _ => simp [Ty.same] at h
  | .object _, b, h => by
      cases b with
      | object => exact congrArg _ (Member.eq_of_sameList (by simpa [Ty.same] using h))
      | _ => simp [Ty.same] at h
  | .interface _ _ _ _, b, h => by
      cases b with
      | interface =>
          simp only [Ty.same, Bool.and_eq_true, beq_iff_eq] at h
          obtain ⟨⟨⟨hname, hparams⟩, hmembers⟩, hbases⟩ := h
          rw [hname, TypeParam.eq_of_sameList hparams, Member.eq_of_sameList hmembers,
            Ty.eq_of_sameList hbases]
      | _ => simp [Ty.same] at h
  | .classType _ _ _ _, b, h => by
      cases b with
      | classType =>
          simp only [Ty.same, Bool.and_eq_true, beq_iff_eq] at h
          obtain ⟨⟨⟨hname, hparams⟩, hmembers⟩, hbase⟩ := h
          rw [hname, TypeParam.eq_of_sameList hparams, Member.eq_of_sameList hmembers,
            Ty.eq_of_same hbase]
      | _ => simp [Ty.same] at h
  | .function _, b, h => by
      cases b with
      | function => exact congrArg _ (Signature.eq_of_same (by simpa [Ty.same] using h))
      | _ => simp [Ty.same] at h
  | .ctor _, b, h => by
      cases b with
      | ctor => exact congrArg _ (Signature.eq_of_same (by simpa [Ty.same] using h))
      | _ => simp [Ty.same] at h
  | .enum _ _ _, b, h => by cases b <;> simp_all [Ty.same]
  | .variant _ _, b, h => by cases b <;> simp_all [Ty.same]
  | .param _ _, b, h => by
      cases b with
      | param =>
          simp only [Ty.same, Bool.and_eq_true, beq_iff_eq] at h
          rw [h.1, Ty.eq_of_same h.2]
      | _ => simp [Ty.same] at h
  | .this, b, h => by cases b <;> simp_all [Ty.same]
  | .indexed _ _, b, h => by
      cases b with
      | indexed =>
          simp only [Ty.same, Bool.and_eq_true] at h
          rw [Ty.eq_of_same h.1, Ty.eq_of_same h.2]
      | _ => simp [Ty.same] at h
  | .other _, b, h => by cases b <;> simp_all [Ty.same]
  | .regExp, b, h => by cases b <;> simp_all [Ty.same]
  | .named _, b, h => by cases b <;> simp_all [Ty.same]
termination_by structural a => a

theorem Ty.eq_of_sameList : ∀ {as bs : List Ty}, Ty.sameList as bs = true → as = bs
  | [], bs, h => by cases bs <;> simp_all [Ty.sameList]
  | a :: as, bs, h => by
      cases bs with
      | nil => simp [Ty.sameList] at h
      | cons b bs =>
          simp only [Ty.sameList, Bool.and_eq_true] at h
          rw [Ty.eq_of_same h.1, Ty.eq_of_sameList h.2]
termination_by structural as => as

theorem Member.eq_of_same : ∀ {m n : Member}, m.same n = true → m = n
  | .property _ _ _ _, n, h => by
      cases n with
      | property =>
          simp only [Member.same, Bool.and_eq_true, beq_iff_eq] at h
          obtain ⟨⟨⟨hkey, hoptional⟩, hreadonly⟩, htype⟩ := h
          rw [hkey, hoptional, hreadonly, Ty.eq_of_same htype]
      | _ => simp [Member.same] at h
  | .method _ _ _, n, h => by
      cases n with
      | method =>
          simp only [Member.same, Bool.and_eq_true, beq_iff_eq] at h
          obtain ⟨⟨hkey, hoptional⟩, hsignature⟩ := h
          rw [hkey, hoptional, Signature.eq_of_same hsignature]
      | _ => simp [Member.same] at h
  | .call _, n, h => by
      cases n with
      | call => exact congrArg _ (Signature.eq_of_same (by simpa [Member.same] using h))
      | _ => simp [Member.same] at h
  | .construct _, n, h => by
      cases n with
      | construct => exact congrArg _ (Signature.eq_of_same (by simpa [Member.same] using h))
      | _ => simp [Member.same] at h
  | .index _ _ _ _, n, h => by
      cases n with
      | index =>
          simp only [Member.same, Bool.and_eq_true, beq_iff_eq] at h
          obtain ⟨⟨⟨hparam, hreadonly⟩, hkey⟩, htype⟩ := h
          rw [hparam, hreadonly, Ty.eq_of_same hkey, Ty.eq_of_same htype]
      | _ => simp [Member.same] at h
termination_by structural m => m

theorem Member.eq_of_sameList : ∀ {ms ns : List Member}, Member.sameList ms ns = true → ms = ns
  | [], ns, h => by cases ns <;> simp_all [Member.sameList]
  | m :: ms, ns, h => by
      cases ns with
      | nil => simp [Member.sameList] at h
      | cons n ns =>
          simp only [Member.sameList, Bool.and_eq_true] at h
          rw [Member.eq_of_same h.1, Member.eq_of_sameList h.2]
termination_by structural ms => ms

theorem Signature.eq_of_same : ∀ {s t : Signature}, s.same t = true → s = t
  | .absent, t, h => by cases t <;> simp_all [Signature.same]
  | .mk _ _ _, t, h => by
      cases t with
      | mk =>
          simp only [Signature.same, Bool.and_eq_true] at h
          rw [TypeParam.eq_of_sameList h.1.1, Param.eq_of_sameList h.1.2, Ty.eq_of_same h.2]
      | absent => simp [Signature.same] at h
termination_by structural s => s

theorem Param.eq_of_same : ∀ {p q : Param}, p.same q = true → p = q
  | ⟨_, _⟩, ⟨_, _⟩, h => by
      simp only [Param.same, Bool.and_eq_true] at h
      rw [Pattern.eq_of_same h.1, Ty.eq_of_same h.2]
termination_by structural p => p

theorem Param.eq_of_sameList : ∀ {ps qs : List Param}, Param.sameList ps qs = true → ps = qs
  | [], qs, h => by cases qs <;> simp_all [Param.sameList]
  | p :: ps, qs, h => by
      cases qs with
      | nil => simp [Param.sameList] at h
      | cons q qs =>
          simp only [Param.sameList, Bool.and_eq_true] at h
          rw [Param.eq_of_same h.1, Param.eq_of_sameList h.2]
termination_by structural ps => ps

theorem TypeParam.eq_of_same : ∀ {s t : TypeParam}, s.same t = true → s = t
  | ⟨_, _⟩, ⟨_, _⟩, h => by
      simp only [TypeParam.same, Bool.and_eq_true, beq_iff_eq] at h
      rw [h.1, Ty.eq_of_same h.2]
termination_by structural s => s

theorem TypeParam.eq_of_sameList :
    ∀ {ss ts : List TypeParam}, TypeParam.sameList ss ts = true → ss = ts
  | [], ts, h => by cases ts <;> simp_all [TypeParam.sameList]
  | s :: ss, ts, h => by
      cases ts with
      | nil => simp [TypeParam.sameList] at h
      | cons t ts =>
          simp only [TypeParam.sameList, Bool.and_eq_true] at h
          rw [TypeParam.eq_of_same h.1, TypeParam.eq_of_sameList h.2]
termination_by structural ss => ss

end

mutual

/-- A type is the same as itself. -/
theorem Ty.same_self : ∀ t : Ty, t.same t = true
  | .missing | .this | .regExp => rfl
  | .keyword _ | .literal _ | .enum _ _ _ | .variant _ _ | .other _ | .named _ => by simp [Ty.same]
  | .array t => Ty.same_self t
  | .tuple ts | .union ts | .inter ts => Ty.sameList_self ts
  | .object ms => Member.sameList_self ms
  | .interface _ ts ms bs => by
      simp [Ty.same, TypeParam.sameList_self ts, Member.sameList_self ms, Ty.sameList_self bs]
  | .classType _ ts ms b => by
      simp [Ty.same, TypeParam.sameList_self ts, Member.sameList_self ms, Ty.same_self b]
  | .function s | .ctor s => Signature.same_self s
  | .param _ b => by simp [Ty.same, Ty.same_self b]
  | .indexed a i => by simp [Ty.same, Ty.same_self a, Ty.same_self i]
termination_by structural t => t

theorem Ty.sameList_self : ∀ ts : List Ty, Ty.sameList ts ts = true
  | [] => rfl
  | t :: ts => by simp [Ty.sameList, Ty.same_self t, Ty.sameList_self ts]
termination_by structural ts => ts

theorem Member.same_self : ∀ m : Member, m.same m = true
  | .property _ t _ _ => by simp [Member.same, Ty.same_self t]
  | .method _ _ s => by simp [Member.same, Signature.same_self s]
  | .call s | .construct s => Signature.same_self s
  | .index _ k v _ => by simp [Member.same, Ty.same_self k, Ty.same_self v]
termination_by structural m => m

theorem Member.sameList_self : ∀ ms : List Member, Member.sameList ms ms = true
  | [] => rfl
  | m :: ms => by simp [Member.sameList, Member.same_self m, Member.sameList_self ms]
termination_by structural ms => ms

theorem Signature.same_self : ∀ s : Signature, s.same s = true
  | .absent => rfl
  | .mk ts ps r => by
      simp [Signature.same, TypeParam.sameList_self ts, Param.sameList_self ps, Ty.same_self r]
termination_by structural s => s

theorem Param.same_self : ∀ p : Param, p.same p = true
  | ⟨p, t⟩ => by simp [Param.same, Pattern.same_self p, Ty.same_self t]
termination_by structural p => p

theorem Param.sameList_self : ∀ ps : List Param, Param.sameList ps ps = true
  | [] => rfl
  | p :: ps => by simp [Param.sameList, Param.same_self p, Param.sameList_self ps]
termination_by structural ps => ps

theorem TypeParam.same_self : ∀ t : TypeParam, t.same t = true
  | ⟨_, b⟩ => by simp [TypeParam.same, Ty.same_self b]
termination_by structural t => t

theorem TypeParam.sameList_self : ∀ ts : List TypeParam, TypeParam.sameList ts ts = true
  | [] => rfl
  | t :: ts => by simp [TypeParam.sameList, TypeParam.same_self t, TypeParam.sameList_self ts]
termination_by structural ts => ts

end

/-- Types are the same exactly when they are one term. -/
instance : LawfulBEq Ty where
  eq_of_beq := Ty.eq_of_same
  rfl := Ty.same_self _

/-! ## Open questions -/

/-- A question that counts as open was asked before. -/
theorem mem_of_isOpen {opened : List Pair} {a b : Ty} (h : isOpen opened a b = true) :
    (a, b) ∈ opened := by
  obtain ⟨⟨c, d⟩, hmem, hc, hd⟩ := exists_mem_of_isOpen h
  rw [← Ty.eq_of_same hc, ← Ty.eq_of_same hd]
  exact hmem

/-- A question about two declared types that was asked before counts as open. -/
theorem isOpen_named {opened : List Pair} {m n : TypeName}
    (h : (Ty.named m, Ty.named n) ∈ opened) : isOpen opened (.named m) (.named n) = true := by
  have hall : (opened.takeWhile fun p =>
      (Ty.named m).staysFrom p.1 && (Ty.named n).staysFrom p.2) = opened :=
    List.takeWhile_eq_self_iff.2 (by simp [Ty.staysFrom, Ty.isNamed])
  rw [isOpen, hall, List.any_eq_true]
  exact ⟨_, h, by simp [Ty.same]⟩

end StructuralTyping
