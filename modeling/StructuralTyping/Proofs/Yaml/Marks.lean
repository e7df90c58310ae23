import StructuralTyping.Proofs.Yaml.Writable
import StructuralTyping.Yaml.Decode

/-!
# Marks around names

A name is read back from the text that it was written with, whatever marks stand
around it.
-/

namespace StructuralTyping

/-! ## Beginnings and endings -/

theorem dropBeginning?_eq_none {α : Type*} [BEq α] [LawfulBEq α] {xs ys : List α}
    (h : ¬ xs <+: ys) :
    dropBeginning? xs ys = none := by
  cases hdrop : dropBeginning? xs ys with
  | none => rfl
  | some rest => exact absurd ⟨rest, (eq_append_of_dropBeginning? hdrop).symm⟩ h

theorem afterBeginning?_append (p s : String) : afterBeginning? p (p ++ s) = some s := by
  simp [afterBeginning?, dropBeginning?_append]

theorem afterBeginning?_eq_none {p s : String} (h : ¬ p.toList <+: s.toList) :
    afterBeginning? p s = none := by
  simp [afterBeginning?, dropBeginning?_eq_none h]

theorem beforeEnding?_append (s e : String) : beforeEnding? e (s ++ e) = some s := by
  simp [beforeEnding?, dropBeginning?_append]

theorem beforeEnding?_eq_none {e s : String} (h : ¬ e.toList <:+ s.toList) :
    beforeEnding? e s = none := by
  have hrev : ¬ e.toList.reverse <+: s.toList.reverse := by rwa [List.reverse_prefix]
  simp [beforeEnding?, dropBeginning?_eq_none hrev]

theorem eq_append_of_afterBeginning? {p s rest : String} (h : afterBeginning? p s = some rest) :
    s = p ++ rest := by
  obtain ⟨cs, hcs, rfl⟩ := Option.map_eq_some_iff.1 h
  rw [← String.toList_inj, String.toList_append, String.toList_ofList]
  exact eq_append_of_dropBeginning? hcs

theorem eq_append_of_beforeEnding? {e s rest : String} (h : beforeEnding? e s = some rest) :
    s = rest ++ e := by
  obtain ⟨cs, hcs, rfl⟩ := Option.map_eq_some_iff.1 h
  rw [← String.toList_inj, String.toList_append, String.toList_ofList]
  have hrev := congrArg List.reverse (eq_append_of_dropBeginning? hcs)
  simpa using hrev

/-! ## White space -/

theorem dropWhile_eq_self {α : Type*} {p : α → Bool} {xs : List α}
    (h : ∀ x ∈ xs.head?, p x = false) :
    xs.dropWhile p = xs := by
  cases xs with
  | nil => rfl
  | cons x xs => simp [h x rfl]

theorem trimSpace_of_trimmed {s : String} (h : Trimmed s) : trimSpace s = s := by
  rw [trimSpace, trimBoth, dropWhile_eq_self h.1, dropWhile_eq_self (by simpa using h.2),
    List.reverse_reverse, String.ofList_toList]

theorem head?_dropWhile {α : Type*} {p : α → Bool} (xs : List α) :
    ∀ x ∈ (xs.dropWhile p).head?, p x = false := by
  intro x hx
  have hnot := List.head?_dropWhile_not p xs
  rwa [Option.mem_def.1 hx] at hnot

/-- No white space is left at the ends. -/
theorem trimmed_trimSpace (s : String) : Trimmed (trimSpace s) := by
  rw [Trimmed, trimSpace, trimBoth, String.toList_ofList]
  refine ⟨fun c hc => ?_, fun c hc => ?_⟩
  · -- What is dropped from the end leaves the beginning, as long as something is left.
    obtain ⟨rest, hrest⟩ : ((s.toList.dropWhile isSpace).reverse.dropWhile isSpace).reverse <+:
        s.toList.dropWhile isSpace := by
      rw [← List.reverse_suffix, List.reverse_reverse]
      exact List.dropWhile_suffix isSpace
    refine head?_dropWhile s.toList c ?_
    rw [← hrest]
    exact List.mem_head?_append_of_mem_head? hc
  · exact head?_dropWhile _ c (by simpa using hc)

/-- Trimming twice is trimming once. -/
theorem trimSpace_trimSpace (s : String) : trimSpace (trimSpace s) = trimSpace s :=
  trimSpace_of_trimmed (trimmed_trimSpace s)

theorem toList_ne_nil {s : String} (h : s ≠ "") : s.toList ≠ [] := by
  simpa using h

/-- Trimming leaves something of a text that ends in no white space. -/
theorem trimSpace_ne_empty {s : String} (hs : s ≠ "")
    (hlast : ∀ c ∈ s.toList.getLast?, isSpace c = false) : trimSpace s ≠ "" := by
  intro hempty
  have hblank : ∀ c ∈ s.toList.dropWhile isSpace, isSpace c = true := by
    simpa [trimSpace, trimBoth, List.dropWhile_eq_nil_iff] using hempty
  have hall : s.toList.dropWhile isSpace = [] := by
    cases hdrop : s.toList.dropWhile isSpace with
    | nil => rfl
    | cons c cs =>
      have hspace : isSpace c = true := hblank c (hdrop ▸ .head _)
      have hnot : isSpace c = false := head?_dropWhile s.toList c (by rw [hdrop]; rfl)
      simp [hspace] at hnot
  obtain ⟨c, hc⟩ := Option.isSome_iff_exists.1 (List.getLast?_isSome.2 (toList_ne_nil hs))
  have hspace := List.dropWhile_eq_nil_iff.1 hall c (List.mem_of_getLast? hc)
  simp [hlast c hc] at hspace

/-- Text is trimmed if it starts and ends with text that is. -/
theorem trimmed_append {s t : String} (hs : s ≠ "") (ht : t ≠ "")
    (hhead : ∀ c ∈ s.toList.head?, isSpace c = false)
    (hlast : ∀ c ∈ t.toList.getLast?, isSpace c = false) : Trimmed (s ++ t) := by
  rw [Trimmed, String.toList_append, List.head?_append_of_ne_nil _ (toList_ne_nil hs),
    List.getLast?_append_of_ne_nil _ (toList_ne_nil ht)]
  exact ⟨hhead, hlast⟩

/-! ## Keys of members -/

open Yaml Yaml.Anchors

section Keys

variable {k : PropKey} {isOptional isReadonly : Bool}

theorem PropKey.Writable.text_ne_empty (h : k.Writable) : k.text ≠ "" := by
  rw [PropKey.text]
  split
  · simp
  · next hk => exact (h.resolve_left hk).nonempty

theorem PropKey.Writable.trimmed_text (h : k.Writable) : Trimmed k.text := by
  rw [PropKey.text]
  split
  · refine trimmed_append (by simp) (by simp) ?_ ?_
    · simp [isSpace]
    · simp [isSpace]
  · next hk => exact (h.resolve_left hk).trimmed

theorem PropKey.Writable.unmarked_text (h : k.Writable) : ¬ "?".toList <:+ k.text.toList := by
  rw [PropKey.text]
  split
  · rintro ⟨cs, hcs⟩
    have hlast := congrArg List.getLast? hcs
    simp [List.getLast?_cons, List.getLast?_append] at hlast
  · next hk => exact (h.resolve_left hk).unmarked

theorem PropKey.Writable.memberKey_ne_empty (h : k.Writable) : memberKey k isOptional ≠ "" := by
  cases isOptional <;> simp [memberKey, h.text_ne_empty]

theorem PropKey.Writable.trimmed_memberKey (h : k.Writable) : Trimmed (memberKey k isOptional) := by
  cases isOptional with
  | false => simpa [memberKey] using h.trimmed_text
  | true => exact trimmed_append h.text_ne_empty (by simp) h.trimmed_text.1 (by simp [isSpace])

theorem PropKey.Writable.unprefixed_memberKey (h : k.Writable) :
    ¬ "readonly ".toList <+: (memberKey k isOptional).toList := by
  rw [memberKey, String.toList_append]
  cases hk : k.computed with
  | true => simp [PropKey.text, hk]
  | false =>
    have hname := h.resolve_left (by simp [hk])
    cases isOptional with
    | false => simpa [PropKey.text, hk] using hname.unprefixed
    | true =>
      -- The question mark is no part of the word.
      have hmark : (if true = true then "?" else "").toList = ['?'] := rfl
      rw [hmark, List.prefix_concat_iff]
      rintro (heq | hprefix)
      · have hlast := congrArg List.getLast? heq
        simp at hlast
      · exact hname.unprefixed (by simpa [PropKey.text, hk] using hprefix)

/-- The brackets of a key tell whether it is computed. -/
theorem PropKey.Writable.brackets_text (h : k.Writable) :
    (afterBeginning? "[" k.text).bind (beforeEnding? "]") =
      if k.computed then some k.name else none := by
  rw [PropKey.text]
  split
  · rw [String.append_assoc, afterBeginning?_append, Option.bind_some, beforeEnding?_append]
  · next hk =>
    cases hinner : (afterBeginning? "[" k.name).bind (beforeEnding? "]") with
    | none => rfl
    | some inner =>
      obtain ⟨rest, hrest, hbefore⟩ := Option.bind_eq_some_iff.1 hinner
      refine absurd ?_ ((h.resolve_left hk).unbracketed inner)
      rw [eq_append_of_afterBeginning? hrest, eq_append_of_beforeEnding? hbefore,
        String.append_assoc]

/-- The question mark of a key tells whether the member is optional. -/
theorem PropKey.Writable.mark_memberKey (h : k.Writable) :
    beforeEnding? "?" (memberKey k isOptional) = if isOptional then some k.text else none := by
  cases isOptional with
  | true => simp [memberKey, beforeEnding?_append]
  | false => simp [memberKey, beforeEnding?_eq_none h.unmarked_text]

/-- The word in front of a key tells whether the member is read-only. -/
theorem PropKey.Writable.word_writtenKey (h : k.Writable) :
    afterBeginning? "readonly "
      ((if isReadonly then "readonly " else "") ++ memberKey k isOptional) =
      if isReadonly then some (memberKey k isOptional) else none := by
  cases isReadonly with
  | true => exact afterBeginning?_append _ _
  | false => simpa using afterBeginning?_eq_none h.unprefixed_memberKey

/-- The marks of a member are read back from its key. -/
theorem read_writtenKey (h : k.Writable) :
    MemberForm.read ((if isReadonly then "readonly " else "") ++ memberKey k isOptional) =
      ⟨k, isOptional, isReadonly⟩ := by
  have hcomputed : k.computed = true → (⟨k.name, true⟩ : PropKey) = k := fun hk => by rw [← hk]
  have hplain : k.computed = false → (⟨k.text, false⟩ : PropKey) = k := fun hk => by
    cases k
    cases hk
    rfl
  have htrim : trimSpace (memberKey k isOptional) = memberKey k isOptional :=
    trimSpace_of_trimmed h.trimmed_memberKey
  have hmark :
      beforeEnding? "?" (memberKey k isOptional) = if isOptional then some k.text else none :=
    h.mark_memberKey
  have hunmarked : isOptional = false → memberKey k isOptional = k.text :=
    fun ho => by simp [memberKey, ho]
  simp only [MemberForm.read, h.word_writtenKey]
  generalize memberKey k isOptional = key at htrim hmark hunmarked
  cases isReadonly <;> cases isOptional <;> cases hk : k.computed <;>
    simp_all [h.brackets_text]

theorem read_memberKey (h : k.Writable) :
    MemberForm.read (memberKey k isOptional) = ⟨k, isOptional, false⟩ := by
  have hread : MemberForm.read ((if false then "readonly " else "") ++ memberKey k isOptional) =
      ⟨k, isOptional, false⟩ := read_writtenKey h
  simpa using hread

/-- A key stands in a document as it was written. -/
theorem trimmed_writtenKey {m : Member} {key : String} (h : m.Writable)
    (hkey : m.writtenKey? = some key) :
    trimSpace key = key := by
  refine trimSpace_of_trimmed ?_
  cases m with
  | property k t o r =>
    obtain rfl := Option.some.inj hkey
    cases r with
    | false => simpa using h.trimmed_memberKey
    | true =>
      exact trimmed_append (by simp) h.memberKey_ne_empty (by simp [isSpace]) h.trimmed_memberKey.2
  | method k o s =>
    obtain rfl := Option.some.inj hkey
    exact h.1.trimmed_memberKey
  | _ => cases hkey

end Keys

/-! ## Parameters, variants and fixed names -/

/-- The name of a parameter has no marks to be read off. -/
theorem IsParamName.readMarks {form : ParamForm} (h : IsParamName form.name) :
    form.readMarks = form := by
  simp only [ParamForm.readMarks, afterBeginning?_eq_none h.undotted,
    beforeEnding?_eq_none h.unmarked]

theorem cutList?_append {α : Type*} [BEq α] [LawfulBEq α] {c : α} {xs ys : List α} (h : c ∉ xs) :
    cutList? [c] (xs ++ c :: ys) = some (xs, ys) := by
  induction xs with
  | nil => simp [cutList?, dropBeginning?]
  | cons x xs ih =>
    simp only [List.mem_cons, not_or] at h
    simp [cutList?, dropBeginning?, h.1, ih h.2]

/-- Nothing before the first place of a separator is the separator. -/
theorem not_mem_of_cutList? {α : Type*} [BEq α] [LawfulBEq α] {c : α} {xs before after : List α}
    (h : cutList? [c] xs = some (before, after)) : c ∉ before := by
  induction xs generalizing before with
  | nil => simp [cutList?] at h
  | cons x xs ih =>
    by_cases hx : c = x
    · obtain ⟨rfl, -⟩ : [] = before ∧ xs = after := by
        simpa [cutList?, dropBeginning?, hx] using h
      exact List.not_mem_nil
    · obtain ⟨before, hcut, rfl⟩ : ∃ ys, cutList? [c] xs = some (ys, after) ∧ x :: ys = before := by
        simpa [cutList?, dropBeginning?, hx] using h
      exact fun hmem => (List.mem_cons.1 hmem).elim hx (ih hcut)

/-- A variant is cut at its point. -/
theorem cutText?_variant {e m : String} (h : '.' ∉ e.toList) :
    cutText? "." (e ++ "." ++ m) = some (e, m) := by
  have hcut : cutList? ['.'] (e.toList ++ '.' :: m.toList) = some (e.toList, m.toList) :=
    cutList?_append h
  simp [cutText?, hcut]

namespace TypeSource

/-- No type parameter in scope hides a fixed name. -/
def Names.LeavesFixed (N : Names) : Prop := ∀ name ∈ fixedNames, N.typeParam? name = none

theorem Names.leavesFixed_empty : ({} : Names).LeavesFixed := fun _ _ => rfl

theorem parseTokens_name (N : Names) (name : String) :
    parseTokens N [.name name] = nameType N name := by
  have hdotted : readDotted name [] = .ok (name, []) := by simp [readDotted, atMark]
  have harrays (t : Ty) : readArrays t [] = .ok (t, []) := by simp [readArrays, atMark]
  cases hname : nameType N name with
  | ok t =>
    simp [parseTokens, readUnion, readUnionWith, readBranches, readPostfix, readPrimary, readMore,
      gather, atMark, thenRest, hdotted, harrays, hname, Token.complaint?]
  | error p =>
    simp [parseTokens, readUnion, readUnionWith, readBranches, readPostfix, readPrimary, atMark,
      thenRest, hdotted, hname]

theorem tokens_fixed : ∀ name ∈ fixedNames, tokens name = [.name name] := by
  decide +kernel

/-- A fixed name that is not hidden is read as the type that it stands for. -/
theorem parse_fixed {N : Names} {name : String} (hname : name ∈ fixedNames)
    (h : N.typeParam? name = none) {t : Ty} (ht : Names.builtin? name = some t) :
    parse N name = .ok t := by
  rw [parse, tokens_fixed name hname, parseTokens_name, nameType, Names.resolve, h, ht]
  rfl

theorem builtin?_keyword {k : Keyword} (hk : k ∈ Keyword.known) :
    Names.builtin? k.text = some (.keyword k) := by
  simp only [Keyword.known, List.mem_cons, List.not_mem_nil, or_false] at hk
  rcases hk with rfl | rfl | rfl | rfl | rfl | rfl | rfl | rfl | rfl | rfl | rfl | rfl <;> rfl

end TypeSource

end StructuralTyping
