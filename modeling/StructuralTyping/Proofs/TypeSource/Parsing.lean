import StructuralTyping.Proofs.TypeSource.Grammar

/-!
# Reading follows the grammar

A reader takes a derivation off the front of the tokens and nothing else (`Sound`), and it
takes every derivation off that is not followed by a mark which would extend it
(`TakesOff`).  Both are shown for one layer of brackets, given a reader for the unions
inside them.  The number of tokens inside brackets is smaller, so the layers that a list of
tokens is read with are enough.

`parse_eq_ok_iff` puts both together: what is accepted is what is derived.
-/

namespace StructuralTyping.TypeSource

/-! ## Reading only what is derived -/

section Sound

variable {X : Type} {tokens : X → List Token} {type? : X → Option Ty} {mark : Char}
  {item : Reader Ty}

/-- What a reader takes off the front is derived, and the type is the derived one. -/
def Sound (item : Reader Ty) (tokens : X → List Token) (type? : X → Option Ty) : Prop :=
  ∀ ⦃ts t rest⦄, item ts = .ok (t, rest) → ∃ x, ts = tokens x ++ rest ∧ type? x = some t

theorem readMore_sound (h : Sound item tokens type?) {fuel : Nat} {ts rest : List Token}
    {us : List Ty} (hread : readMore mark item fuel ts = .ok (us, rest)) :
    ∃ xs : List X, ts = afterEach mark tokens xs ++ rest ∧ xs.mapM type? = some us := by
  induction fuel generalizing ts us rest with
  | zero =>
    obtain ⟨rfl, rfl⟩ : [] = us ∧ ts = rest := by simpa [readMore] using hread
    exact ⟨[], rfl, rfl⟩
  | succ fuel ih =>
    rw [readMore] at hread
    split at hread
    · next hmark =>
      split at hread
      · cases hread
      · next t ts₁ hitem =>
        split at hread
        · cases hread
        · next more ts₂ hmore =>
          obtain ⟨rfl, rfl⟩ : t :: more = us ∧ ts₂ = rest := by simpa using hread
          obtain ⟨x, hx, htype⟩ := h hitem
          obtain ⟨xs, rfl, htypes⟩ := ih hmore
          refine ⟨x :: xs, ?_, by simp [htype, htypes]⟩
          rw [eq_cons_of_atMark hmark, hx]
          simp [afterEach]
    · obtain ⟨rfl, rfl⟩ : [] = us ∧ ts = rest := by simpa using hread
      exact ⟨[], rfl, rfl⟩

theorem gather_eq_built (build : List Ty → Ty) (t : Ty) (ts : List Ty) :
    gather build t ts = built build (t :: ts) := by
  cases ts <;> rfl

theorem readBranches_sound (h : Sound item tokens type?) {build : List Ty → Ty}
    {ts rest : List Token} {t : Ty} (hread : readBranches mark build item ts = .ok (t, rest)) :
    ∃ x xs u us, ts = tokens x ++ afterEach mark tokens xs ++ rest ∧ type? x = some u ∧
      xs.mapM type? = some us ∧ t = built build (u :: us) := by
  rw [readBranches] at hread
  split at hread
  · cases hread
  · next first ts₁ hfirst =>
    split at hread
    · cases hread
    · next more ts₂ hmore =>
      obtain ⟨rfl, rfl⟩ : gather build first more = t ∧ ts₂ = rest := by simpa using hread
      obtain ⟨x, rfl, htype⟩ := h hfirst
      obtain ⟨xs, rfl, htypes⟩ := readMore_sound h hmore
      exact ⟨x, xs, first, more, by simp, htype, htypes, gather_eq_built _ _ _⟩

/-- The elements of a tuple are none, or unions with commas between them and perhaps one
behind. -/
theorem readElements_sound (h : Sound item tokens type?) {fuel : Nat} {ts rest : List Token}
    {es : List Ty} (hread : readElements item fuel ts = .ok (es, rest)) :
    (es = [] ∧ ts = rest) ∨ ∃ x xs trailing u us, ts = tokens x ++ afterEach ',' tokens xs
      ++ optionalMark ',' trailing ++ rest ∧ type? x = some u ∧ xs.mapM type? = some us ∧
        es = u :: us := by
  induction fuel generalizing ts es rest with
  | zero =>
    obtain ⟨rfl, rfl⟩ : [] = es ∧ ts = rest := by simpa [readElements] using hread
    exact .inl ⟨rfl, rfl⟩
  | succ fuel ih =>
    rw [readElements] at hread
    split at hread
    · obtain ⟨rfl, rfl⟩ : [] = es ∧ ts = rest := by simpa using hread
      exact .inl ⟨rfl, rfl⟩
    · split at hread
      · cases hread
      · next t ts₁ hitem =>
        obtain ⟨x, rfl, htype⟩ := h hitem
        right
        split at hread
        · next hcomma =>
          split at hread
          · cases hread
          · next more ts₂ hmore =>
            obtain ⟨rfl, rfl⟩ : t :: more = es ∧ ts₂ = rest := by simpa using hread
            rw [eq_cons_of_atMark hcomma]
            rcases ih hmore with ⟨rfl, hrest⟩ | ⟨y, ys, trailing, u, us, hy, hu, hus, rfl⟩
            · exact ⟨x, [], true, t, [], by simp [afterEach, optionalMark, hrest], htype, rfl, rfl⟩
            · exact ⟨x, y :: ys, trailing, t, u :: us, by simp [afterEach, hy], htype,
                by simp [hu, hus], rfl⟩
        · obtain ⟨rfl, rfl⟩ : [t] = es ∧ ts₁ = rest := by simpa using hread
          exact ⟨x, [], false, t, [], by simp [afterEach, optionalMark], htype, rfl, rfl⟩

end Sound

theorem joinText_dot (name n : String) (names : List String) :
    joinText "." (name :: n :: names) = joinText "." ((name ++ "." ++ n) :: names) := by
  cases names <;> simp [joinText, String.intercalate_cons_cons, String.append_assoc]

theorem readDotted_sound {name full : String} {ts rest : List Token}
    (h : readDotted name ts = .ok (full, rest)) :
    ∃ more, ts = dottedTokens more ++ rest ∧ full = joinText "." (name :: more) := by
  fun_induction readDotted name ts with
  | case1 name n ts ih =>
    obtain ⟨more, rfl, rfl⟩ := ih h
    exact ⟨n :: more, by simp [dottedTokens], (joinText_dot _ _ _).symm⟩
  | case2 => cases h
  | case3 name ts =>
    obtain ⟨rfl, rfl⟩ : name = full ∧ ts = rest := by simpa using h
    exact ⟨[], rfl, by simp [joinText]⟩

theorem readArrays_sound {t u : Ty} {ts rest : List Token} (h : readArrays t ts = .ok (u, rest)) :
    ∃ n, ts = arrayTokens n ++ rest ∧ u = nestArrays n t := by
  fun_induction readArrays t ts with
  | case1 t ts ih =>
    obtain ⟨n, rfl, rfl⟩ := ih h
    exact ⟨n + 1, rfl, rfl⟩
  | case2 => cases h
  | case3 t ts =>
    obtain ⟨rfl, rfl⟩ : t = u ∧ ts = rest := by simpa using h
    exact ⟨0, rfl, rfl⟩

theorem eq_of_thenMark {α : Type} {c : Char} {a b : α} {ts rest : List Token}
    (h : thenMark c a ts = .ok (b, rest)) :
    ts = .mark c :: rest ∧ a = b := by
  rw [thenMark] at h
  split at h
  · next hmark =>
    obtain ⟨rfl, rfl⟩ : a = b ∧ ts.tail = rest := by simpa using h
    exact ⟨eq_cons_of_atMark hmark, rfl⟩
  · cases h

theorem eq_of_thenRest {α : Type} {r : Except Problem α} {a : α} {ts rest : List Token}
    (h : thenRest ts r = .ok (a, rest)) :
    r = .ok a ∧ ts = rest := by
  cases r with
  | error p => cases h
  | ok b => simpa [thenRest] using h

/-! ### Leaves -/

theorem stringType_eq_ok_iff {text : String} {t : Ty} :
    stringType text = .ok t ↔ (unquote? text).map (fun s => .literal (.string s)) = some t := by
  rw [stringType]
  cases unquote? text <;> simp

theorem numberType_eq_ok_iff {negative : Bool} {text : String} {t : Ty} :
    numberType negative text = .ok t ↔
      (Binary64.read? text).map (fun x => .literal (.number (if negative then x.negate else x))) =
        some t := by
  rw [numberType]
  cases Binary64.read? text <;> simp

theorem nameType_eq_ok_iff {N : Names} {name : String} {t : Ty} :
    nameType N name = .ok t ↔ (N.resolve name).toOption = some t := by
  rw [nameType]
  cases N.resolve name <;> simp [Except.toOption]

/-! ### Layers -/

section Layer

variable {N : Names} {union : Reader Ty} (h : Sound union UnionTree.tokens (UnionTree.type? N))
include h

theorem readPrimary_sound :
    Sound (readPrimary N union) PrimaryTree.tokens (PrimaryTree.type? N) := by
  intro ts t rest hread
  unfold readPrimary at hread
  split at hread
  · next ts =>
    split at hread
    · cases hread
    · next t ts₁ hunion =>
      obtain ⟨rfl, rfl⟩ := eq_of_thenMark hread
      obtain ⟨u, rfl, htype⟩ := h hunion
      exact ⟨.group u, by simp [PrimaryTree.tokens], by simpa [PrimaryTree.type?] using htype⟩
  · next ts =>
    split at hread
    · cases hread
    · next es ts₁ helements =>
      obtain ⟨rfl, rfl⟩ := eq_of_thenMark hread
      rcases readElements_sound h helements with ⟨rfl, rfl⟩ |
        ⟨x, xs, trailing, u, us, rfl, hu, hus, rfl⟩
      · exact ⟨.emptyTuple, rfl, rfl⟩
      · refine ⟨.tuple x xs trailing, ?_, ?_⟩
        · simp [PrimaryTree.tokens, UnionTree.tokensOfMore_eq]
        · simp [PrimaryTree.type?, UnionTree.types?_eq, hu, hus]
  · next s complaint? ts =>
    obtain ⟨hs, rfl⟩ := eq_of_thenRest hread
    exact ⟨.string s complaint?, rfl, stringType_eq_ok_iff.1 hs⟩
  · next ts =>
    split at hread
    · next s complaint? ts =>
      obtain ⟨hs, rfl⟩ := eq_of_thenRest hread
      exact ⟨.number true s complaint?, rfl, numberType_eq_ok_iff.1 hs⟩
    · cases hread
  · next s complaint? ts =>
    obtain ⟨hs, rfl⟩ := eq_of_thenRest hread
    exact ⟨.number false s complaint?, rfl, numberType_eq_ok_iff.1 hs⟩
  · next n ts =>
    split at hread
    · cases hread
    · next full ts₁ hdotted =>
      obtain ⟨hname, rfl⟩ := eq_of_thenRest hread
      obtain ⟨more, rfl, rfl⟩ := readDotted_sound hdotted
      exact ⟨.names n more, rfl, nameType_eq_ok_iff.1 hname⟩
  · cases hread
  · cases hread

theorem readPostfix_sound :
    Sound (readPostfix N union) PostfixTree.tokens (PostfixTree.type? N) := by
  intro ts t rest hread
  rw [readPostfix] at hread
  split at hread
  · cases hread
  · next u ts₁ hprimary =>
    obtain ⟨p, rfl, htype⟩ := readPrimary_sound h hprimary
    obtain ⟨n, rfl, rfl⟩ := readArrays_sound hread
    exact ⟨⟨p, n⟩, by simp [PostfixTree.tokens], by simp [PostfixTree.type?, htype]⟩

theorem readInter_sound :
    Sound (readBranches '&' .inter (readPostfix N union)) InterTree.tokens (InterTree.type? N) := by
  intro ts t rest hread
  obtain ⟨p, ps, u, us, rfl, hu, hus, rfl⟩ := readBranches_sound (readPostfix_sound h) hread
  refine ⟨⟨p, ps⟩, ?_, ?_⟩
  · simp [InterTree.tokens, PostfixTree.tokensOfMore_eq]
  · simp [InterTree.type?, PostfixTree.types?_eq, hu, hus]

theorem readUnionWith_sound :
    Sound (readUnionWith N union) UnionTree.tokens (UnionTree.type? N) := by
  intro ts t rest hread
  obtain ⟨i, is, u, us, hts, hu, hus, rfl⟩ := readBranches_sound (readInter_sound h) hread
  refine ⟨⟨atMark '|' ts, i, is⟩, ?_, by simp [UnionTree.type?, InterTree.types?_eq, hu, hus]⟩
  rw [UnionTree.tokens, InterTree.tokensOfMore_eq, List.append_assoc, ← hts]
  split
  · next hmark => rw [optionalMark, hmark, if_pos rfl]; exact eq_cons_of_atMark hmark
  · next hmark => rw [optionalMark, if_neg hmark]; rfl

end Layer

theorem readUnion_sound (N : Names) (depth : Nat) :
    Sound (readUnion N depth) UnionTree.tokens (UnionTree.type? N) := by
  induction depth with
  | zero => intro ts t rest hread; cases hread
  | succ depth ih => exact readUnionWith_sound ih

/-! ## Reading all that is derived -/

section Complete

variable {X : Type} {tokens : X → List Token} {type? : X → Option Ty} {mark : Char}
  {marks : List Char} {item : Reader Ty}

/-- A reader takes some tokens off the front as a type, unless a mark that would extend
them follows. -/
def TakesOff (item : Reader Ty) (marks : List Char) (ts : List Token) (t : Ty) : Prop :=
  ∀ rest, Stops marks rest → item (ts ++ rest) = .ok (t, rest)

theorem readMore_complete (hmark : mark ∉ marks) {xs : List X} {us : List Ty}
    (h : ∀ x ∈ xs, ∀ u, type? x = some u → TakesOff item marks (tokens x) u)
    (hus : xs.mapM type? = some us) {fuel : Nat} (hfuel : xs.length ≤ fuel) {rest : List Token}
    (hrest : Stops (mark :: marks) rest) :
    readMore mark item fuel (afterEach mark tokens xs ++ rest) = .ok (us, rest) := by
  have hstop : atMark mark rest = false := hrest mark List.mem_cons_self
  induction xs generalizing us fuel with
  | nil =>
    obtain rfl : [] = us := by simpa using hus
    cases fuel <;> simp [readMore, afterEach, hstop]
  | cons x xs ih =>
    obtain ⟨u, hu, vs, hvs, rfl⟩ :
        ∃ u, type? x = some u ∧ ∃ vs, xs.mapM type? = some vs ∧ u :: vs = us := by
      simpa [Option.bind_eq_some_iff] using hus
    obtain ⟨fuel, rfl⟩ : ∃ k, fuel = k + 1 := ⟨fuel - 1, by simp at hfuel; omega⟩
    have hitem := h x List.mem_cons_self u hu (afterEach mark tokens xs ++ rest)
      (stops_afterEach hmark xs fun c hc => hrest c (List.mem_cons_of_mem _ hc))
    have hmore :=
      ih (fun y hy => h y (List.mem_cons_of_mem _ hy)) hvs (Nat.le_of_succ_le_succ hfuel)
    simp [readMore, afterEach, atMark] at hitem hmore ⊢
    simp [hitem, hmore]

theorem readBranches_complete (hmark : mark ∉ marks) {x : X} {xs : List X} {u : Ty} {us : List Ty}
    {build : List Ty → Ty}
    (h : ∀ y ∈ x :: xs, ∀ v, type? y = some v → TakesOff item marks (tokens y) v)
    (hu : type? x = some u) (hus : xs.mapM type? = some us) :
    TakesOff (readBranches mark build item) (mark :: marks) (tokens x ++ afterEach mark tokens xs)
      (built build (u :: us)) := by
  intro rest hrest
  have hfirst := h x List.mem_cons_self u hu (afterEach mark tokens xs ++ rest)
    (stops_afterEach hmark xs fun c hc => hrest c (List.mem_cons_of_mem _ hc))
  have hfuel : xs.length ≤ (afterEach mark tokens xs ++ rest).length := by
    rw [List.length_append]
    exact Nat.le_add_right_of_le (length_le_afterEach mark tokens xs)
  have hmore :=
    readMore_complete hmark (fun y hy => h y (List.mem_cons_of_mem _ hy)) hus hfuel hrest
  simp only [readBranches, List.append_assoc, hfirst, hmore, gather_eq_built]

/-- The elements of a tuple are read up to the bracket that ends it. -/
theorem readElements_complete (hcomma : ',' ∉ marks) (hend : ']' ∉ marks) {x : X}
    {xs : List X} {u : Ty}
    {us : List Ty} (h : ∀ y ∈ x :: xs, ∀ v, type? y = some v → TakesOff item marks (tokens y) v)
    (hstart : ∀ y ∈ x :: xs, ∀ rest, atMark ']' (tokens y ++ rest) = false) (hu : type? x = some u)
    (hus : xs.mapM type? = some us) (trailing : Bool) {fuel : Nat} (hfuel : xs.length + 1 < fuel)
    (rest : List Token) :
    readElements item fuel
        (tokens x ++ afterEach ',' tokens xs ++ optionalMark ',' trailing ++ .mark ']' :: rest)
      = .ok (u :: us, .mark ']' :: rest) := by
  induction xs generalizing x u us fuel with
  | nil =>
    obtain rfl : [] = us := by simpa using hus
    obtain ⟨fuel, rfl⟩ : ∃ k, fuel = k + 2 := ⟨fuel - 2, by simp at hfuel; omega⟩
    have hitem := fun rest => h x List.mem_cons_self u hu rest
    have hx := hstart x List.mem_cons_self
    cases trailing with
    | false =>
      simp [readElements, afterEach, optionalMark, hx, hitem _ (stops_mark hend rest)]
    | true =>
      simp [readElements, afterEach, optionalMark, hx,
        hitem _ (stops_mark hcomma (.mark ']' :: rest))]
  | cons y ys ih =>
    obtain ⟨v, hv, vs, hvs, rfl⟩ :
        ∃ v, type? y = some v ∧ ∃ vs, ys.mapM type? = some vs ∧ v :: vs = us := by
      simpa [Option.bind_eq_some_iff] using hus
    obtain ⟨fuel, rfl⟩ : ∃ k, fuel = k + 1 := ⟨fuel - 1, by simp at hfuel; omega⟩
    have hmore :=
      ih (fun z hz => h z (List.mem_cons_of_mem _ hz))
        (fun z hz => hstart z (List.mem_cons_of_mem _ hz))
      hv hvs (Nat.lt_of_succ_lt_succ hfuel)
    have hitem := h x List.mem_cons_self u hu _ (stops_mark hcomma
      (tokens y ++ afterEach ',' tokens ys ++ optionalMark ',' trailing ++ .mark ']' :: rest))
    have hx := hstart x List.mem_cons_self
    simp only [afterEach, List.append_assoc] at hmore hitem
    simp [readElements, afterEach, hx, hitem, hmore]

end Complete

theorem readDotted_complete (name : String) (more : List String) {rest : List Token}
    (hrest : atMark '.' rest = false) :
    readDotted name (dottedTokens more ++ rest) = .ok (joinText "." (name :: more), rest) := by
  induction more generalizing name with
  | nil =>
    rw [dottedTokens, List.flatMap_nil, List.nil_append]
    unfold readDotted
    split
    · simp at hrest
    · simp [hrest, joinText]
  | cons n more ih =>
    rw [joinText_dot]
    exact ih (name ++ "." ++ n)

theorem readArrays_complete (t : Ty) (n : Nat) {rest : List Token}
    (hrest : atMark '[' rest = false) :
    readArrays t (arrayTokens n ++ rest) = .ok (nestArrays n t, rest) := by
  induction n generalizing t with
  | zero =>
    rw [arrayTokens, List.nil_append]
    unfold readArrays
    split
    · simp at hrest
    · simp [hrest, nestArrays]
  | succ n ih => exact ih (.array t)

/-! ### Layers -/

section Layer

variable {N : Names} {union : Reader Ty} {k : Nat}
  (h : ∀ u : UnionTree, u.tokens.length < k → ∀ t, u.type? N = some t →
    TakesOff union unionMarks u.tokens t)
include h

theorem readPrimary_complete {p : PrimaryTree} (hk : p.tokens.length ≤ k) {t : Ty}
    (ht : p.type? N = some t) :
    TakesOff (readPrimary N union) ['.'] p.tokens t := by
  intro rest hrest
  cases p with
  | group inner =>
    have hinner := h inner (by simp [PrimaryTree.tokens] at hk; omega) t ht (.mark ')' :: rest)
      (stops_mark (by decide) rest)
    simp [PrimaryTree.tokens, readPrimary, hinner, thenMark, atMark]
  | emptyTuple =>
    obtain rfl : .tuple [] = t := by simpa [PrimaryTree.type?] using ht
    simp [PrimaryTree.tokens, readPrimary, readElements, thenMark, atMark]
  | tuple first more trailing =>
    obtain ⟨u, hu, us, hus, rfl⟩ :
        ∃ u, first.type? N = some u ∧ ∃ us, more.mapM (UnionTree.type? N) = some us ∧
          .tuple (u :: us) = t := by
      simpa [PrimaryTree.type?, UnionTree.types?_eq, Option.bind_eq_some_iff] using ht
    have hparts : ∀ u ∈ first :: more, u.tokens.length < k := fun u hu =>
      Nat.lt_of_lt_of_le (PrimaryTree.length_lt_of_mem_tuple hu trailing) hk
    have hlength := length_le_afterEach ',' UnionTree.tokens more
    have hread : ∀ fuel, more.length + 1 < fuel → _ := fun fuel hfuel =>
      readElements_complete (by decide) (by decide) (fun y hy => h y (hparts y hy))
        (fun y _ => y.atMark_tokens (by decide)) hu hus trailing hfuel rest
    simp only [PrimaryTree.tokens, UnionTree.tokensOfMore_eq, List.append_assoc, List.cons_append,
      readPrimary, List.nil_append] at hread ⊢
    rw [hread _ (by simp only [List.length_append, List.length_cons]; omega)]
    simp [thenMark]
  | string text complaint? =>
    have hs := stringType_eq_ok_iff.2 ht
    simp [PrimaryTree.tokens, readPrimary, hs, thenRest]
  | number negative text complaint? =>
    have hs := numberType_eq_ok_iff.2 ht
    cases negative <;> simp [PrimaryTree.tokens, optionalMark, readPrimary, hs, thenRest]
  | names first more =>
    have hname := nameType_eq_ok_iff.2 ht
    simp [PrimaryTree.tokens, readPrimary,
      readDotted_complete first more (hrest '.' (.head _)), hname, thenRest]

theorem readPostfix_complete {p : PostfixTree} (hk : p.tokens.length ≤ k) {t : Ty}
    (ht : p.type? N = some t) :
    TakesOff (readPostfix N union) ['[', '.'] p.tokens t := by
  intro rest hrest
  obtain ⟨primary, arrays⟩ := p
  obtain ⟨u, hu, rfl⟩ : ∃ u, primary.type? N = some u ∧ nestArrays arrays u = t := by
    simpa [PostfixTree.type?] using ht
  have hprimary := readPrimary_complete h (by simp [PostfixTree.tokens] at hk; omega) hu
    (arrayTokens arrays ++ rest) (stops_arrayTokens arrays fun c hc => hrest c (.tail _ hc))
  have harrays := readArrays_complete u arrays (hrest '[' (.head _))
  simp only [readPostfix, PostfixTree.tokens, List.append_assoc, hprimary, harrays]

theorem readInter_complete {i : InterTree} (hk : i.tokens.length ≤ k) {t : Ty}
    (ht : i.type? N = some t) :
    TakesOff (readBranches '&' .inter (readPostfix N union)) ['&', '[', '.'] i.tokens t := by
  obtain ⟨first, more⟩ := i
  obtain ⟨u, hu, us, hus, rfl⟩ : ∃ u, first.type? N = some u ∧
      ∃ us, more.mapM (PostfixTree.type? N) = some us ∧ built .inter (u :: us) = t := by
    simpa [InterTree.type?, PostfixTree.types?_eq, Option.bind_eq_some_iff] using ht
  rw [InterTree.tokens, PostfixTree.tokensOfMore_eq] at hk ⊢
  refine readBranches_complete (by decide) (fun y hy v hv => readPostfix_complete h ?_ hv) hu hus
  exact Nat.le_trans (length_le_of_mem_branches hy) hk

theorem readUnionWith_complete {u : UnionTree} (hk : u.tokens.length ≤ k) {t : Ty}
    (ht : u.type? N = some t) :
    TakesOff (readUnionWith N union) unionMarks u.tokens t := by
  obtain ⟨leading, first, more⟩ := u
  obtain ⟨v, hv, vs, hvs, rfl⟩ : ∃ v, first.type? N = some v ∧
      ∃ vs, more.mapM (InterTree.type? N) = some vs ∧ built .union (v :: vs) = t := by
    simpa [UnionTree.type?, InterTree.types?_eq, Option.bind_eq_some_iff] using ht
  rw [UnionTree.tokens, InterTree.tokensOfMore_eq] at hk ⊢
  rw [List.length_append] at hk
  have hlength : (first.tokens ++ afterEach '|' InterTree.tokens more).length ≤ k := by omega
  have hbranches :
      TakesOff (readBranches '|' .union (readBranches '&' .inter (readPostfix N union))) unionMarks
      (first.tokens ++ afterEach '|' InterTree.tokens more) (built .union (v :: vs)) :=
    readBranches_complete (by decide)
      (fun i hi w hw =>
        readInter_complete h (Nat.le_trans (length_le_of_mem_branches hi) hlength) hw) hv hvs
  intro rest hrest
  rw [List.append_assoc, readUnionWith]
  cases leading with
  | false =>
    have hstart : atMark '|' (first.tokens ++ afterEach '|' InterTree.tokens more ++ rest) =
        false := by
      rw [List.append_assoc]
      exact first.atMark_tokens (by decide) _
    simp only [optionalMark_false, List.nil_append, hstart]
    exact hbranches rest hrest
  | true => exact hbranches rest hrest

end Layer

theorem readUnion_complete (N : Names) {depth : Nat} {u : UnionTree}
    (hdepth : u.tokens.length < depth)
    {t : Ty} (ht : u.type? N = some t) : TakesOff (readUnion N depth) unionMarks u.tokens t := by
  induction depth generalizing u t with
  | zero => omega
  | succ depth ih =>
    exact readUnionWith_complete (fun u hu t => ih hu) (Nat.le_of_lt_succ hdepth) ht

/-! ## Whole texts -/

/-- Well-formed tokens that derive a type are read as it. -/
theorem parseTokens_of_derivation {N : Names} {u : UnionTree} {t : Ty} (htype : u.type? N = some t)
    (hclean : ∀ k ∈ u.tokens, k.complaint? = none) : parseTokens N u.tokens = .ok t := by
  have hread := readUnion_complete N (Nat.lt_succ_self _) htype [] (fun c _ => rfl)
  rw [List.append_nil] at hread
  rw [parseTokens, hread]
  simp only [List.findSome?_eq_none_iff.2 hclean]

/-- An accepted text has well-formed tokens, and they derive the type. -/
theorem derivation_of_parse {N : Names} {source : String} {t : Ty} (h : parse N source = .ok t) :
    (∀ k ∈ tokens source, k.complaint? = none) ∧
      ∃ u : UnionTree, u.tokens = tokens source ∧ u.type? N = some t := by
  rw [parse, parseTokens] at h
  split at h
  · cases h
  · cases h
  · next t' hread =>
    split at h
    · cases h
    · next hnone =>
      cases h
      obtain ⟨u, hu, htype⟩ := readUnion_sound N _ hread
      exact ⟨List.findSome?_eq_none_iff.1 hnone, u, by simpa using hu.symm, htype⟩

/-- Type source is accepted as a type if and only if none of its tokens is malformed and
its tokens derive the type.  No two derivations have the same tokens. -/
theorem parse_eq_ok_iff (N : Names) (source : String) (t : Ty) :
    (parse N source = .ok t ↔ (∀ k ∈ tokens source, k.complaint? = none) ∧
      ∃ u : UnionTree, u.tokens = tokens source ∧ u.type? N = some t) ∧
    Function.Injective UnionTree.tokens := by
  refine ⟨⟨derivation_of_parse, fun ⟨hclean, u, htokens, htype⟩ => ?_⟩, UnionTree.tokens_injective⟩
  rw [parse, ← htokens]
  exact parseTokens_of_derivation htype (htokens ▸ hclean)

end StructuralTyping.TypeSource
