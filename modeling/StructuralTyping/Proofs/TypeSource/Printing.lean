import StructuralTyping.Proofs.TypeSource.Cutting
import StructuralTyping.Proofs.TypeSource.Parsing
import StructuralTyping.Proofs.Yaml.Marks

/-!
# Printed types are read back

A type that type source can write in full is read back from its text (`parse_text`).

The grammar has three layers, and the text of a type belongs to one of them: a union is
written as a union, an intersection as an intersection and every other type as a postfix
type.  `Written` says of a text that it stands for a type in a layer.  A text moves to a
wider layer as it is and back to the narrowest one in round brackets, and `Layered` gathers
what holds of each type.  The cases of unions, intersections and arrays show that brackets
stand where the layer of a part is too wide.
-/

namespace StructuralTyping

/-- A type that is written in full: no part of it is declared, and nested unions and nested
intersections do not occur. -/
inductive Ty.IsScalar : Ty → Prop where
  | keyword {k : Keyword} (hk : k ∈ Keyword.known) : IsScalar (.keyword k)
  | this : IsScalar .this
  | regExp : IsScalar .regExp
  | bool (b : Bool) : IsScalar (.literal (.bool b))
  | string (s : ByteText) : IsScalar (.literal (.string s))
  | number {x : Binary64} (hx : x.IsFinite) : IsScalar (.literal (.number x))
  | array {e : Ty} (he : IsScalar e) : IsScalar (.array e)
  | tuple {es : List Ty} (hes : ∀ e ∈ es, IsScalar e) : IsScalar (.tuple es)
  | union {bs : List Ty} (hlength : 2 ≤ bs.length) (hbs : ∀ b ∈ bs, IsScalar b)
      (hflat : ∀ b ∈ bs, ∀ cs, b ≠ .union cs) : IsScalar (.union bs)
  | inter {bs : List Ty} (hlength : 2 ≤ bs.length) (hbs : ∀ b ∈ bs, IsScalar b)
      (hflat : ∀ b ∈ bs, ∀ cs, b ≠ .inter cs) : IsScalar (.inter bs)

namespace TypeSource

variable {N : Names} {s : String} {t : Ty}

/-! ## Layers -/

/-- A text stands for a type in a layer of the grammar. -/
def Written {X : Type} (tokens : X → List Token) (type? : X → Option Ty) (s : String)
    (t : Ty) : Prop :=
  ∃ x, type? x = some t ∧ CutsBefore EndsToken s.toList (tokens x)

/-- A text stands for a type as a union. -/
abbrev WrittenUnion (N : Names) : String → Ty → Prop := Written UnionTree.tokens (UnionTree.type? N)

/-- A text stands for a type as an intersection. -/
abbrev WrittenInter (N : Names) : String → Ty → Prop := Written InterTree.tokens (InterTree.type? N)

/-- A text stands for a type as a postfix type. -/
abbrev WrittenPostfix (N : Names) : String → Ty → Prop :=
  Written PostfixTree.tokens (PostfixTree.type? N)

theorem WrittenPostfix.inter (h : WrittenPostfix N s t) : WrittenInter N s t := by
  obtain ⟨p, htype, hcut⟩ := h
  refine ⟨⟨p, []⟩, ?_, ?_⟩
  · simp [InterTree.type?, PostfixTree.types?, htype, built]
  · simpa [InterTree.tokens, PostfixTree.tokensOfMore] using hcut

theorem WrittenInter.union (h : WrittenInter N s t) : WrittenUnion N s t := by
  obtain ⟨i, htype, hcut⟩ := h
  refine ⟨⟨false, i, []⟩, ?_, ?_⟩
  · simp [UnionTree.type?, InterTree.types?, htype, built]
  · simpa [UnionTree.tokens, InterTree.tokensOfMore] using hcut

theorem writtenPostfix_primary {p : PrimaryTree} (htype : p.type? N = some t)
    (hcut : CutsBefore EndsToken s.toList p.tokens) : WrittenPostfix N s t := by
  refine ⟨⟨p, 0⟩, ?_, ?_⟩
  · simp [PostfixTree.type?, htype, nestArrays]
  · simpa [PostfixTree.tokens, arrayTokens] using hcut

theorem endsToken_mark {c : Char} (hc : c ∈ [' ', ',', ')', '[', ']']) (rest : List Char) :
    EndsToken (c :: rest) := by
  intro d hd
  obtain rfl : c = d := by simpa using hd
  exact hc

/-- Round brackets put a text into the narrowest layer. -/
theorem WrittenUnion.parenthesized (h : WrittenUnion N s t) :
    WrittenPostfix N (parenthesized s) t := by
  obtain ⟨u, htype, hcut⟩ := h
  refine writtenPostfix_primary (p := .group u) htype ?_
  have hclose : CutsBefore EndsToken [')'] [.mark ')'] :=
    (cutsBefore_mark (by decide)).mono fun _ _ => trivial
  have hinner := hcut.append hclose fun rest _ => endsToken_mark (by decide) rest
  have houter := (cutsBefore_mark (c := '(') (by decide)).append hinner fun _ _ => trivial
  simpa [StructuralTyping.parenthesized, PrimaryTree.tokens] using houter

theorem nestArrays_array (n : Nat) (t : Ty) :
    nestArrays n (.array t) = .array (nestArrays n t) := by
  induction n generalizing t with
  | zero => rfl
  | succ n ih => exact ih (.array t)

theorem arrayTokens_succ (n : Nat) :
    arrayTokens (n + 1) = arrayTokens n ++ [.mark '[', .mark ']'] := by
  induction n with
  | zero => rfl
  | succ n ih => exact congrArg (fun ts => .mark '[' :: .mark ']' :: ts) ih

theorem WrittenPostfix.array (h : WrittenPostfix N s t) :
    WrittenPostfix N (s ++ "[]") (.array t) := by
  obtain ⟨⟨p, n⟩, htype, hcut⟩ := h
  obtain ⟨u, hu, rfl⟩ : ∃ u, p.type? N = some u ∧ nestArrays n u = t := by
    simpa [PostfixTree.type?] using htype
  refine ⟨⟨p, n + 1⟩, by simp [PostfixTree.type?, hu, nestArrays, nestArrays_array], ?_⟩
  have hclose : CutsBefore EndsToken [']'] [.mark ']'] :=
    (cutsBefore_mark (by decide)).mono fun _ _ => trivial
  have hpair := (cutsBefore_mark (c := '[') (by decide)).append hclose fun _ _ => trivial
  have hall := hcut.append hpair fun rest _ => endsToken_mark (by decide) (']' :: rest)
  simpa [PostfixTree.tokens, arrayTokens_succ] using hall

/-! ## Parts with marks between them -/

theorem cutsBefore_spaced {c : Char} (hc : c ∈ ['(', ')', '[', ']', ',', '|', '&', '-']) :
    CutsBefore Anything [' ', c, ' '] [.mark c] :=
  have hlast := (cutsBefore_mark hc).append cutsBefore_blank fun _ _ => trivial
  cutsBefore_blank.append hlast fun _ _ => trivial

/-- Texts that stand for types are put together with a separator between them. -/
theorem written_join {X : Type} {tokens : X → List Token} {type? : X → Option Ty} (sep : String)
    {mark : Char} (hsep : CutsBefore Anything sep.toList [.mark mark])
    (hends : ∀ rest, EndsToken (sep.toList ++ rest))
    {text : Ty → String} {t : Ty} {ts : List Ty}
    (h : ∀ u ∈ t :: ts, Written tokens type? (text u) u) :
    ∃ x xs, type? x = some t ∧ xs.mapM type? = some ts ∧
      CutsBefore EndsToken (joinText sep ((t :: ts).map text)).toList
        (tokens x ++ afterEach mark tokens xs) := by
  obtain ⟨x, htype, hcut⟩ := h t (.head _)
  induction ts generalizing t x with
  | nil => exact ⟨x, [], htype, rfl, by simpa [joinText, afterEach] using hcut⟩
  | cons u ts ih =>
    have hrest : ∀ v ∈ u :: ts, Written tokens type? (text v) v := fun v hv => h v (.tail _ hv)
    obtain ⟨y, htype', hcut'⟩ := hrest u (.head _)
    obtain ⟨z, zs, hz, hzs, hmore⟩ := ih hrest y htype' hcut'
    refine ⟨x, z :: zs, htype, by simp [hz, hzs], ?_⟩
    have hall := hcut.append (hsep.append hmore fun _ _ => trivial) fun rest _ => by
      rw [List.append_assoc]
      exact hends _
    simpa [joinText, String.intercalate_cons_cons, afterEach] using hall

/-! ## Names and literals -/

theorem cutsBefore_fixed : ∀ name ∈ "true" :: "false" :: fixedNames,
    CutsBefore EndsToken name.toList [.name name] := by
  have hletters : ∀ name ∈ "true" :: "false" :: fixedNames,
      (name.toList.head?.any startsName && name.toList.tail.all continuesName) = true := by
    decide +kernel
  intro name hname
  have hletters := hletters name hname
  obtain ⟨c, cs, rfl⟩ : ∃ c cs, name = String.ofList (c :: cs) := by
    cases hchars : name.toList with
    | nil => rw [hchars] at hletters; cases hletters
    | cons c cs => exact ⟨c, cs, by rw [← hchars, String.ofList_toList]⟩
  simp only [String.toList_ofList, List.head?_cons, Option.any_some, List.tail_cons,
    Bool.and_eq_true, List.all_eq_true] at hletters ⊢
  exact cutsBefore_name hletters.1 hletters.2

theorem writtenPostfix_name {declared : List (String × Ty)} (name : String)
    (hname : name ∈ "true" :: "false" :: fixedNames) (ht : Names.builtin? name = some t) :
    WrittenPostfix { declared } name t := by
  refine writtenPostfix_primary (p := .names name []) ?_ ?_
  · simp [PrimaryTree.type?, joinText, Names.resolve, Names.typeParam?, ht]
    rfl
  · simpa [PrimaryTree.tokens, dottedTokens] using cutsBefore_fixed name hname

theorem writtenPostfix_string (N : Names) (s : ByteText) :
    WrittenPostfix N (quote s) (.literal (.string s)) := by
  refine writtenPostfix_primary (p := .string (quote s) none) ?_ ?_
  · simp [PrimaryTree.type?, unquote?_quote]
  · exact (cutsBefore_quote s).mono fun _ _ => trivial

/-- A numeral stands for the number that it is read as. -/
theorem writtenPostfix_numeral (N : Names) (negative : Bool) {n : Numeral}
    (hn : IsPlain n) {m : Nat}
    {e : Int} (hread : Binary64.read? (String.ofList n.chars) = some (.finite false m e)) :
    WrittenPostfix N (String.ofList (signChars negative ++ n.chars))
      (.literal (.number (.finite negative m e))) := by
  refine writtenPostfix_primary (p := .number negative (String.ofList n.chars) none) ?_ ?_
  · cases negative <;> simp [PrimaryTree.type?, hread, Binary64.negate]
  · rw [String.toList_ofList]
    exact cutsBefore_numeral negative hn

theorem writtenPostfix_number (N : Names) {x : Binary64} (hx : x.IsFinite) :
    WrittenPostfix N (Literal.number x).text (.literal (.number x)) := by
  cases x with
  | nan => cases hx
  | infinite => cases hx
  | finite negative m e =>
    rcases Nat.eq_zero_or_pos m with rfl | hm
    · obtain rfl : e = Binary64.minExponent := hx.2.2.2.resolve_left (by decide)
      let zero : Numeral := ⟨['0'], [], none, by simp, by simp, by simp, by simp⟩
      have hread :
          Binary64.read? (String.ofList zero.chars) =
            some (.finite false 0 Binary64.minExponent) := by
        decide +kernel
      have hwritten := writtenPostfix_numeral N negative (n := zero) (fun _ => .inr rfl) hread
      cases negative <;> exact hwritten
    · obtain ⟨n, htext, hnear, hbare⟩ := Binary64.text_numeral hx hm
      have hfinite : Binary64.IsFinite (.finite false m e) := hx
      have hread : Binary64.read? (String.ofList n.chars) = some (.finite false m e) := by
        simpa [signChars] using n.read?_chars hfinite hm hnear
      have hwritten := writtenPostfix_numeral N negative (fun h => .inl (hbare h).1) hread
      rwa [← htext] at hwritten

/-! ## All types -/

/-- The text of a type stands for it in its layer and in every wider one. -/
structure Layered (N : Names) (s : String) (t : Ty) : Prop where
  union : WrittenUnion N s t
  inter : (∀ bs, t ≠ .union bs) → WrittenInter N s t
  postfixed : (∀ bs, t ≠ .union bs) → (∀ bs, t ≠ .inter bs) → WrittenPostfix N s t

theorem WrittenPostfix.layered (h : WrittenPostfix N s t) : Layered N s t :=
  ⟨h.inter.union, fun _ => h.inter, fun _ _ => h⟩

theorem WrittenInter.layered {bs : List Ty} (h : WrittenInter N s (.inter bs)) :
    Layered N s (.inter bs) :=
  ⟨h.union, fun _ => h, fun _ hne => absurd rfl (hne bs)⟩

theorem WrittenUnion.layered {bs : List Ty} (h : WrittenUnion N s (.union bs)) :
    Layered N s (.union bs) :=
  ⟨h, fun hne => absurd rfl (hne bs), fun hne => absurd rfl (hne bs)⟩

/-- Brackets may stand around a branch of a union. -/
theorem Layered.wrapInter (h : Layered N s t) (b : Bool) (ht : ∀ bs, t ≠ .union bs) :
    WrittenInter N (wrapIf b s) t := by
  cases b with
  | false => exact h.inter ht
  | true => exact h.union.parenthesized.inter

/-- Brackets may stand around a type, and they must around a union or an intersection. -/
theorem Layered.wrapPostfix (h : Layered N s t) {b : Bool} (hunion : ∀ bs, t = .union bs → b = true)
    (hinter : ∀ bs, t = .inter bs → b = true) : WrittenPostfix N (wrapIf b s) t := by
  cases b with
  | false =>
    exact h.postfixed (fun bs hbs => nomatch hunion bs hbs) (fun bs hbs => nomatch hinter bs hbs)
  | true => exact h.union.parenthesized

theorem textsWith_eq_map (D : Decls) (nameText : TypeName → String) (wraps : Ty → Bool)
    (ts : List Ty) : Ty.textsWith D nameText wraps ts = ts.map fun t =>
      wrapIf (wraps t) (t.textWith D nameText) := by
  induction ts with
  | nil => rfl
  | cons t ts ih => rw [Ty.textsWith, ih, List.map_cons]

theorem exists_two_of_length {bs : List Ty} (h : 2 ≤ bs.length) : ∃ b c cs, bs = b :: c :: cs := by
  match bs with
  | b :: c :: cs => exact ⟨b, c, cs, rfl⟩

section Built

variable {D : Decls} {nameText : TypeName → String}

theorem layered_array {e : Ty} (h : Layered N (e.textWith D nameText) e) :
    Layered N ((Ty.array e).textWith D nameText) (.array e) := by
  have hwrap : WrittenPostfix N (wrapIf (D.wrapsPostfix e) (e.textWith D nameText)) e :=
    h.wrapPostfix (by rintro bs rfl; rfl) (by rintro bs rfl; rfl)
  exact hwrap.array.layered

theorem layered_tuple {es : List Ty} (h : ∀ e ∈ es, Layered N (e.textWith D nameText) e) :
    Layered N ((Ty.tuple es).textWith D nameText) (.tuple es) := by
  have hopen : CutsBefore Anything ['['] [.mark '['] := cutsBefore_mark (by decide)
  have hclose : CutsBefore EndsToken [']'] [.mark ']'] :=
    (cutsBefore_mark (by decide)).mono fun _ _ => trivial
  refine WrittenPostfix.layered ?_
  cases es with
  | nil =>
    have hempty := hopen.append hclose fun _ _ => trivial
    exact writtenPostfix_primary (p := .emptyTuple) rfl
      (by simpa [Ty.textWith, Ty.textsWith, joinText, PrimaryTree.tokens] using hempty)
  | cons e es =>
    have hcomma : CutsBefore Anything [',', ' '] [.mark ','] :=
      (cutsBefore_mark (by decide)).append cutsBefore_blank fun _ _ => trivial
    have helement : ∀ t ∈ e :: es, WrittenUnion N (t.textWith D nameText) t :=
      fun t ht => (h t ht).union
    obtain ⟨x, xs, hx, hxs, hcut⟩ :=
      written_join ", " hcomma (fun rest => endsToken_mark (by decide) _) helement
    refine writtenPostfix_primary (p := .tuple x xs false) ?_ ?_
    · simp [PrimaryTree.type?, UnionTree.types?_eq, hx, hxs]
    · have hinner := hcut.append hclose fun rest _ => endsToken_mark (by decide) rest
      have houter := hopen.append hinner fun _ _ => trivial
      simpa [Ty.textWith, textsWith_eq_map, wrapIf, PrimaryTree.tokens, UnionTree.tokensOfMore_eq]
        using houter

theorem layered_union {bs : List Ty} (hlength : 2 ≤ bs.length)
    (hflat : ∀ b ∈ bs, ∀ cs, b ≠ .union cs) (h : ∀ b ∈ bs, Layered N (b.textWith D nameText) b) :
    Layered N ((Ty.union bs).textWith D nameText) (.union bs) := by
  obtain ⟨b, c, cs, rfl⟩ := exists_two_of_length hlength
  have hbranch : ∀ t ∈ b :: c :: cs,
      WrittenInter N (wrapIf (D.wrapsInUnion t) (t.textWith D nameText)) t :=
    fun t ht => (h t ht).wrapInter _ (hflat t ht)
  obtain ⟨x, xs, hx, hxs, hcut⟩ := written_join " | " (cutsBefore_spaced (c := '|') (by decide))
    (fun rest => endsToken_mark (by decide) _) hbranch
  rw [Ty.textWith, textsWith_eq_map]
  refine WrittenUnion.layered ⟨⟨false, x, xs⟩, ?_, ?_⟩
  · simp [UnionTree.type?, InterTree.types?_eq, hx, hxs, built]
  · simpa [UnionTree.tokens, InterTree.tokensOfMore_eq] using hcut

theorem layered_inter {bs : List Ty} (hlength : 2 ≤ bs.length)
    (hflat : ∀ b ∈ bs, ∀ cs, b ≠ .inter cs) (h : ∀ b ∈ bs, Layered N (b.textWith D nameText) b) :
    Layered N ((Ty.inter bs).textWith D nameText) (.inter bs) := by
  obtain ⟨b, c, cs, rfl⟩ := exists_two_of_length hlength
  have hbranch : ∀ t ∈ b :: c :: cs,
      WrittenPostfix N (wrapIf (D.wrapsInInter t) (t.textWith D nameText)) t :=
    fun t ht => (h t ht).wrapPostfix (by rintro bs rfl; rfl) (fun bs hbs =>
      absurd hbs (hflat t ht bs))
  obtain ⟨x, xs, hx, hxs, hcut⟩ := written_join " & " (cutsBefore_spaced (c := '&') (by decide))
    (fun rest => endsToken_mark (by decide) _) hbranch
  rw [Ty.textWith, textsWith_eq_map]
  refine WrittenInter.layered ⟨⟨x, xs⟩, ?_, ?_⟩
  · simp [InterTree.type?, PostfixTree.types?_eq, hx, hxs, built]
  · simpa [InterTree.tokens, PostfixTree.tokensOfMore_eq] using hcut

end Built

theorem layered_text (D : Decls) (nameText : TypeName → String) (declared : List (String × Ty))
    (h : t.IsScalar) :
    Layered { declared } (t.textWith D nameText) t := by
  induction h with
  | keyword hk =>
    have hname := List.mem_map_of_mem (f := Keyword.text) hk
    exact (writtenPostfix_name _ (by simp [fixedNames, hname]) (builtin?_keyword hk)).layered
  | this => exact (writtenPostfix_name "this" (by decide) rfl).layered
  | regExp => exact (writtenPostfix_name "RegExp" (by decide) rfl).layered
  | bool b =>
    cases b with
    | false => exact (writtenPostfix_name "false" (by decide) rfl).layered
    | true => exact (writtenPostfix_name "true" (by decide) rfl).layered
  | string s => exact (writtenPostfix_string _ s).layered
  | number hx => exact (writtenPostfix_number _ hx).layered
  | array _ ih => exact layered_array ih
  | tuple _ ih => exact layered_tuple ih
  | union hlength _ hflat ih => exact layered_union hlength hflat ih
  | inter hlength _ hflat ih => exact layered_inter hlength hflat ih

/-- A type of the scalar syntax is read back from its text, whatever is declared. -/
theorem parse_text (D : Decls) (declared : List (String × Ty)) {t : Ty} (h : t.IsScalar) :
    parse { declared } (D.text t) = .ok t := by
  obtain ⟨u, htype, hcut⟩ := (layered_text D D.names declared h).union
  have hstart : atMark '\uFEFF' u.tokens = false := by
    simpa using u.atMark_tokens (by decide) []
  rw [parse, Decls.text, tokens_of_cutsBefore hcut hstart]
  exact parseTokens_of_derivation htype hcut.clean

/-- Brackets stand where the grammar needs them: the type is shown as
`[("a\\n" | -1.5 & RegExp)[], [], (void | true) & this]`. -/
theorem parse_text_nested :
    let number : Ty := .literal (.number (.finite true 6755399441055744 (-52)))
    let text : Ty := .literal (.string "a\n")
    let t : Ty := .tuple [.array (.union [text, .inter [number, .regExp]]), .tuple [],
      .inter [.union [.keyword .void, .literal (.bool true)], .this]]
    t.IsScalar ∧ parse { declared := [("RegExp", .this)] } (Decls.empty.text t) = .ok t := by
  intro number text t
  have hnumber : number.IsScalar := .number ⟨by decide, by decide, by decide, .inl (by decide)⟩
  have htext : text.IsScalar := .string "a\n"
  have hvoid : (Ty.keyword .void).IsScalar := .keyword (by decide)
  have hfirst : (Ty.inter [number, .regExp]).IsScalar :=
    .inter (by decide) (by simp [hnumber, Ty.IsScalar.regExp]) (by simp [number])
  have hsecond : (Ty.union [.keyword .void, .literal (.bool true)]).IsScalar :=
    .union (by decide) (by simp [hvoid, Ty.IsScalar.bool]) (by simp)
  have harray : (Ty.union [text, .inter [number, .regExp]]).IsScalar :=
    .union (by decide) (by simp [htext, hfirst]) (by simp [text])
  have hlast : (Ty.inter [.union [.keyword .void, .literal (.bool true)], .this]).IsScalar :=
    .inter (by decide) (by simp [hsecond, Ty.IsScalar.this]) (by simp)
  have ht : t.IsScalar := .tuple (by simp [harray.array, hlast, Ty.IsScalar.tuple])
  exact ⟨ht, parse_text Decls.empty [("RegExp", .this)] ht⟩

end TypeSource

end StructuralTyping
