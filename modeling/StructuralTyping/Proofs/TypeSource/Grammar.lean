import StructuralTyping.TypeSource.Parse

/-!
# The grammar of type source

A derivation is a tree with one kind of node for each rule of the grammar.  It spans
tokens, and it derives a type if its strings and numbers have values and its names stand
for types.

The grammar is unambiguous: tokens are spanned by at most one derivation
(`UnionTree.tokens_injective`).  A union, an intersection, the square brackets after a type
and the names after a point go on as long as their mark follows.  So the argument is about
a derivation with something behind it that cannot extend it (`Splits`).  The first token
tells the forms of a primary type apart, and a tuple without elements is known by its
second token, since no union starts with a closing bracket.
-/

namespace StructuralTyping.TypeSource

/-! ## Derivations -/

mutual

/-- `union := '|'? inter ('|' inter)*` -/
structure UnionTree where
  leading : Bool
  first : InterTree
  more : List InterTree

/-- `inter := postfix ('&' postfix)*` -/
structure InterTree where
  first : PostfixTree
  more : List PostfixTree

/-- `postfix := primary ('[' ']')*` -/
structure PostfixTree where
  primary : PrimaryTree
  arrays : Nat

/-- `primary := '(' union ')' | '[' (union (',' union)* ','?)? ']' | string | '-'? number
| name ('.' name)*` -/
inductive PrimaryTree where
  | group (inner : UnionTree)
  | emptyTuple
  | tuple (first : UnionTree) (more : List UnionTree) (trailing : Bool)
  | string (text : String) (complaint? : Option Complaint)
  | number (negative : Bool) (text : String) (complaint? : Option Complaint)
  | names (first : String) (more : List String)

end

/-- A mark that may be left out. -/
def optionalMark (c : Char) (isThere : Bool) : List Token := if isThere then [.mark c] else []

@[simp]
theorem optionalMark_false (c : Char) : optionalMark c false = [] := rfl

@[simp]
theorem optionalMark_true (c : Char) : optionalMark c true = [.mark c] := rfl

/-- The tokens of the pairs of square brackets after a type. -/
def arrayTokens : Nat → List Token
  | 0 => []
  | n + 1 => .mark '[' :: .mark ']' :: arrayTokens n

/-- The tokens of the names after the first one. -/
def dottedTokens (names : List String) : List Token := names.flatMap fun n => [.mark '.', .name n]

mutual

/-- The tokens that a derivation of a union spans. -/
def UnionTree.tokens : UnionTree → List Token
  | ⟨leading, first, more⟩ =>
    optionalMark '|' leading ++ (first.tokens ++ InterTree.tokensOfMore more)
termination_by structural u => u

/-- The tokens that a derivation of an intersection spans. -/
def InterTree.tokens : InterTree → List Token
  | ⟨first, more⟩ => first.tokens ++ PostfixTree.tokensOfMore more
termination_by structural i => i

/-- The tokens that a derivation of a postfix type spans. -/
def PostfixTree.tokens : PostfixTree → List Token
  | ⟨primary, arrays⟩ => primary.tokens ++ arrayTokens arrays
termination_by structural p => p

/-- The tokens that a derivation of a primary type spans. -/
def PrimaryTree.tokens : PrimaryTree → List Token
  | .group inner => .mark '(' :: (inner.tokens ++ [.mark ')'])
  | .emptyTuple => [.mark '[', .mark ']']
  | .tuple first more trailing =>
    .mark '[' :: (first.tokens ++ UnionTree.tokensOfMore more ++
      optionalMark ',' trailing ++ [.mark ']'])
  | .string text complaint? => [.quoted text complaint?]
  | .number negative text complaint? => optionalMark '-' negative ++ [.number text complaint?]
  | .names first more => .name first :: dottedTokens more
termination_by structural p => p

/-- Intersections, each after a `|`. -/
def InterTree.tokensOfMore : List InterTree → List Token
  | [] => []
  | i :: is => .mark '|' :: (i.tokens ++ InterTree.tokensOfMore is)
termination_by structural is => is

/-- Postfix types, each after a `&`. -/
def PostfixTree.tokensOfMore : List PostfixTree → List Token
  | [] => []
  | p :: ps => .mark '&' :: (p.tokens ++ PostfixTree.tokensOfMore ps)
termination_by structural ps => ps

/-- Unions, each after a comma. -/
def UnionTree.tokensOfMore : List UnionTree → List Token
  | [] => []
  | u :: us => .mark ',' :: (u.tokens ++ UnionTree.tokensOfMore us)
termination_by structural us => us

end

/-- The type with so many array types around it. -/
def nestArrays : Nat → Ty → Ty
  | 0, t => t
  | n + 1, t => nestArrays n (.array t)

/-- One branch builds the branch itself, and more build one type in their order. -/
def built (build : List Ty → Ty) : List Ty → Ty
  | [t] => t
  | ts => build ts

mutual

/-- The type that a union derives. -/
def UnionTree.type? (N : Names) : UnionTree → Option Ty
  | ⟨_, first, more⟩ => do
    let t ← first.type? N
    let ts ← InterTree.types? N more
    return built .union (t :: ts)
termination_by structural u => u

/-- The type that an intersection derives. -/
def InterTree.type? (N : Names) : InterTree → Option Ty
  | ⟨first, more⟩ => do
    let t ← first.type? N
    let ts ← PostfixTree.types? N more
    return built .inter (t :: ts)
termination_by structural i => i

/-- The type that a postfix type derives. -/
def PostfixTree.type? (N : Names) : PostfixTree → Option Ty
  | ⟨primary, arrays⟩ => (primary.type? N).map (nestArrays arrays)
termination_by structural p => p

/-- The type that a primary type derives. -/
def PrimaryTree.type? (N : Names) : PrimaryTree → Option Ty
  | .group inner => inner.type? N
  | .emptyTuple => some (.tuple [])
  | .tuple first more _ => do
    let t ← first.type? N
    let ts ← UnionTree.types? N more
    return .tuple (t :: ts)
  | .string text _ => (unquote? text).map fun s => .literal (.string s)
  | .number negative text _ =>
    (Binary64.read? text).map fun x => .literal (.number (if negative then x.negate else x))
  | .names first more => (N.resolve (joinText "." (first :: more))).toOption
termination_by structural p => p

/-- The types that intersections derive. -/
def InterTree.types? (N : Names) : List InterTree → Option (List Ty)
  | [] => some []
  | i :: is => do return (← i.type? N) :: (← InterTree.types? N is)
termination_by structural is => is

/-- The types that postfix types derive. -/
def PostfixTree.types? (N : Names) : List PostfixTree → Option (List Ty)
  | [] => some []
  | p :: ps => do return (← p.type? N) :: (← PostfixTree.types? N ps)
termination_by structural ps => ps

/-- The types that unions derive. -/
def UnionTree.types? (N : Names) : List UnionTree → Option (List Ty)
  | [] => some []
  | u :: us => do return (← u.type? N) :: (← UnionTree.types? N us)
termination_by structural us => us

end

/-! ## Tokens and types of lists -/

/-- The tokens of items, each after a mark. -/
def afterEach {X : Type} (mark : Char) (tokens : X → List Token) (xs : List X) : List Token :=
  xs.flatMap fun x => .mark mark :: tokens x

theorem InterTree.tokensOfMore_eq :
    ∀ is, InterTree.tokensOfMore is = afterEach '|' InterTree.tokens is
  | [] => rfl
  | i :: is => by simp [InterTree.tokensOfMore, afterEach, InterTree.tokensOfMore_eq is]

theorem PostfixTree.tokensOfMore_eq :
    ∀ ps, PostfixTree.tokensOfMore ps = afterEach '&' PostfixTree.tokens ps
  | [] => rfl
  | p :: ps => by simp [PostfixTree.tokensOfMore, afterEach, PostfixTree.tokensOfMore_eq ps]

theorem UnionTree.tokensOfMore_eq :
    ∀ us, UnionTree.tokensOfMore us = afterEach ',' UnionTree.tokens us
  | [] => rfl
  | u :: us => by simp [UnionTree.tokensOfMore, afterEach, UnionTree.tokensOfMore_eq us]

theorem InterTree.types?_eq {N : Names} : ∀ is, InterTree.types? N is = is.mapM (InterTree.type? N)
  | [] => rfl
  | i :: is => by simp [InterTree.types?, InterTree.types?_eq is]

theorem PostfixTree.types?_eq {N : Names} :
    ∀ ps, PostfixTree.types? N ps = ps.mapM (PostfixTree.type? N)
  | [] => rfl
  | p :: ps => by simp [PostfixTree.types?, PostfixTree.types?_eq ps]

theorem UnionTree.types?_eq {N : Names} : ∀ us, UnionTree.types? N us = us.mapM (UnionTree.type? N)
  | [] => rfl
  | u :: us => by simp [UnionTree.types?, UnionTree.types?_eq us]

/-! ## What comes next -/

/-- None of the marks comes next. -/
def Stops (marks : List Char) (ts : List Token) : Prop := ∀ c ∈ marks, atMark c ts = false

@[simp]
theorem atMark_mark (c d : Char) (ts : List Token) : atMark c (.mark d :: ts) = (d == c) := rfl

/-- The marks that extend a union. -/
def unionMarks : List Char := ['|', '&', '[', '.']

theorem stops_mark {c : Char} {marks : List Char} (h : c ∉ marks) (ts : List Token) :
    Stops marks (.mark c :: ts) := by
  intro d hd
  have hne : c ≠ d := fun heq => h (heq ▸ hd)
  simpa using hne

theorem stops_afterEach {X : Type} {tokens : X → List Token} {mark : Char} {marks : List Char}
    (hmark : mark ∉ marks) (xs : List X) {rest : List Token} (h : Stops marks rest) :
    Stops marks (afterEach mark tokens xs ++ rest) := by
  cases xs with
  | nil => exact h
  | cons x xs => exact stops_mark hmark _

theorem stops_arrayTokens (n : Nat) {rest : List Token} (h : Stops ['.'] rest) :
    Stops ['.'] (arrayTokens n ++ rest) := by
  cases n with
  | zero => exact h
  | succ n => exact stops_mark (by decide) _

theorem eq_cons_of_atMark {c : Char} {ts : List Token} (h : atMark c ts = true) :
    ts = .mark c :: ts.tail := by
  match ts, h with
  | .mark d :: ts, h =>
    obtain rfl : d = c := by simpa [atMark] using h
    rfl

/-- A primary type starts with an opening bracket, a minus, or no mark at all. -/
theorem PrimaryTree.atMark_tokens {c : Char} (hc : c ∉ ['(', '[', '-']) (p : PrimaryTree)
    (rest : List Token) :
    atMark c (p.tokens ++ rest) = false := by
  simp only [List.mem_cons, List.not_mem_nil, or_false, not_or] at hc
  cases p with
  | group => simp [tokens, atMark, Ne.symm hc.1]
  | emptyTuple => simp [tokens, atMark, Ne.symm hc.2.1]
  | tuple => simp [tokens, atMark, Ne.symm hc.2.1]
  | string => rfl
  | number negative => cases negative <;> simp [tokens, optionalMark, atMark, Ne.symm hc.2.2]
  | names => rfl

theorem InterTree.atMark_tokens {c : Char} (hc : c ∉ ['(', '[', '-']) (i : InterTree)
    (rest : List Token) :
    atMark c (i.tokens ++ rest) = false := by
  obtain ⟨⟨p, n⟩, more⟩ := i
  simp only [tokens, PostfixTree.tokens, List.append_assoc]
  exact p.atMark_tokens hc _

theorem UnionTree.atMark_tokens {c : Char} (hc : c ∉ ['(', '[', '-', '|']) (u : UnionTree)
    (rest : List Token) :
    atMark c (u.tokens ++ rest) = false := by
  obtain ⟨leading, first, more⟩ := u
  have hfirst : c ∉ ['(', '[', '-'] := fun h => hc (List.mem_append_left ['|'] h)
  cases leading with
  | false =>
    simp only [tokens, optionalMark, List.append_assoc]
    exact first.atMark_tokens hfirst _
  | true =>
    have hne : '|' ≠ c := fun h => hc (h ▸ by decide)
    simpa [tokens, optionalMark, atMark] using hne

/-- A union starts with a bar if it has one in front. -/
theorem UnionTree.atMark_bar (u : UnionTree) (rest : List Token) :
    atMark '|' (u.tokens ++ rest) = u.leading := by
  obtain ⟨leading, first, more⟩ := u
  cases leading with
  | false =>
    simp only [tokens, optionalMark_false, List.nil_append, List.append_assoc]
    exact first.atMark_tokens (by decide) _
  | true => rfl

/-- A union does not start with the bracket that ends a tuple. -/
theorem UnionTree.tokens_append_ne (u : UnionTree) (ts rest : List Token) :
    u.tokens ++ ts ≠ .mark ']' :: rest := by
  intro heq
  have hstart : atMark ']' (u.tokens ++ ts) = false := u.atMark_tokens (by decide) ts
  simp [heq] at hstart

theorem length_le_afterEach {X : Type} (mark : Char) (tokens : X → List Token) (xs : List X) :
    xs.length ≤ (afterEach mark tokens xs).length := by
  induction xs with
  | nil => exact Nat.le_refl 0
  | cons x xs ih =>
    simp only [afterEach, List.flatMap_cons, List.length_append, List.length_cons] at ih ⊢
    omega

/-- A branch has no more tokens than all branches have. -/
theorem length_le_of_mem_branches {X : Type} {mark : Char} {tokens : X → List Token}
    {x y : X} {xs : List X}
    (hy : y ∈ x :: xs) : (tokens y).length ≤ (tokens x ++ afterEach mark tokens xs).length := by
  rw [List.length_append]
  rcases List.mem_cons.1 hy with rfl | hy
  · omega
  · obtain ⟨before, after, rfl⟩ := List.append_of_mem hy
    simp only [afterEach, List.flatMap_append, List.flatMap_cons, List.length_append,
      List.length_cons]
    omega

/-- An element of a tuple has fewer tokens than the tuple. -/
theorem PrimaryTree.length_lt_of_mem_tuple {u first : UnionTree} {more : List UnionTree}
    (hu : u ∈ first :: more)
    (trailing : Bool) : u.tokens.length < (tuple first more trailing).tokens.length := by
  have hle : u.tokens.length ≤ (first.tokens ++ afterEach ',' UnionTree.tokens more).length :=
    length_le_of_mem_branches hu
  simp only [tokens, UnionTree.tokensOfMore_eq, List.length_append, List.length_cons] at hle ⊢
  omega

/-! ## One derivation -/

section Splits

variable {X : Type} {tokens : X → List Token} {mark : Char} {marks : List Char}

/-- Tokens that start with a derivation start with no other one, if neither is followed by
a mark that would extend it. -/
def Splits (marks : List Char) (tokens : X → List Token) (x : X) : Prop :=
  ∀ ⦃y rest rest'⦄, Stops marks rest → Stops marks rest' → tokens x ++ rest = tokens y ++ rest' →
    x = y ∧ rest = rest'

theorem splits_branches (hmark : mark ∉ marks) {x y : X} {xs ys : List X}
    (h : ∀ z ∈ x :: xs, Splits marks tokens z) {rest rest' : List Token}
    (hrest : Stops (mark :: marks) rest)
    (hrest' : Stops (mark :: marks) rest')
    (heq : tokens x ++ afterEach mark tokens xs ++ rest =
      tokens y ++ afterEach mark tokens ys ++ rest') :
    x = y ∧ xs = ys ∧ rest = rest' := by
  induction xs generalizing x y ys with
  | nil =>
    rw [List.append_assoc, List.append_assoc] at heq
    obtain ⟨rfl, htail⟩ :=
      h x List.mem_cons_self (stops_afterEach hmark [] fun c hc => hrest c (.tail _ hc))
      (stops_afterEach hmark ys fun c hc => hrest' c (.tail _ hc)) heq
    cases ys with
    | nil => exact ⟨rfl, rfl, htail⟩
    | cons z zs =>
      have hstop := hrest mark List.mem_cons_self
      simp [afterEach] at htail
      simp [htail] at hstop
  | cons w ws ih =>
    rw [List.append_assoc, List.append_assoc] at heq
    obtain ⟨rfl, htail⟩ :=
      h x List.mem_cons_self (stops_afterEach hmark (w :: ws) fun c hc => hrest c (.tail _ hc))
      (stops_afterEach hmark ys fun c hc => hrest' c (.tail _ hc)) heq
    cases ys with
    | nil =>
      have hstop := hrest' mark List.mem_cons_self
      simp [afterEach] at htail
      simp [← htail] at hstop
    | cons z zs =>
      obtain ⟨rfl, rfl, rfl⟩ :=
        ih (fun z hz => h z (List.mem_cons_of_mem _ hz)) (by simpa [afterEach] using htail)
      exact ⟨rfl, rfl, rfl⟩

/-- The elements of a tuple are split in one way, a comma behind them included. -/
theorem splits_elements (hcomma : ',' ∉ marks) (hend : ']' ∉ marks)
    (hstart : ∀ (z : X) (ts rest : List Token), tokens z ++ ts ≠ .mark ']' :: rest) {x y : X}
    {xs ys : List X}
    {trailing trailing' : Bool} (h : ∀ z ∈ x :: xs, Splits marks tokens z) {rest rest' : List Token}
    (heq : tokens x ++ afterEach ',' tokens xs ++ optionalMark ',' trailing ++ .mark ']' :: rest
      = tokens y ++ afterEach ',' tokens ys ++ optionalMark ',' trailing' ++ .mark ']' :: rest') :
    x = y ∧ xs = ys ∧ trailing = trailing' ∧ rest = rest' := by
  have hstops : ∀ (trailing : Bool) rest,
      Stops marks (optionalMark ',' trailing ++ .mark ']' :: rest) := by
    intro trailing rest
    cases trailing with
    | false => exact stops_mark hend _
    | true => exact stops_mark hcomma _
  -- A comma that is the last one is told from one before an element by the bracket.
  have hlast : ∀ (trailing : Bool) rest (z : X) ts,
      optionalMark ',' trailing ++ .mark ']' :: rest ≠ .mark ',' :: (tokens z ++ ts) := by
    intro trailing rest z ts heq
    cases trailing with
    | false => simp at heq
    | true =>
      simp only [optionalMark_true, List.cons_append, List.nil_append, List.cons.injEq,
        true_and] at heq
      exact hstart z ts rest heq.symm
  induction xs generalizing x y ys with
  | nil =>
    rw [List.append_assoc, List.append_assoc, List.append_assoc, List.append_assoc] at heq
    obtain ⟨rfl, htail⟩ := h x List.mem_cons_self (stops_afterEach hcomma [] (hstops trailing rest))
      (stops_afterEach hcomma ys (hstops trailing' rest')) heq
    cases ys with
    | nil =>
      revert htail
      cases trailing <;> cases trailing' <;> simp [afterEach]
    | cons z zs => exact absurd (by simpa [afterEach] using htail) (hlast trailing rest z _)
  | cons w ws ih =>
    rw [List.append_assoc, List.append_assoc, List.append_assoc, List.append_assoc] at heq
    obtain ⟨rfl, htail⟩ :=
      h x List.mem_cons_self (stops_afterEach hcomma (w :: ws) (hstops trailing rest))
      (stops_afterEach hcomma ys (hstops trailing' rest')) heq
    cases ys with
    | nil => exact absurd (by simpa [afterEach] using htail.symm) (hlast trailing' rest' w _)
    | cons z zs =>
      obtain ⟨rfl, rfl, rfl, rfl⟩ :=
        ih (fun z hz => h z (List.mem_cons_of_mem _ hz)) (by simpa [afterEach] using htail)
      exact ⟨rfl, rfl, rfl, rfl⟩

end Splits

theorem splits_arrayTokens {m n : Nat} {rest rest' : List Token} (hrest : atMark '[' rest = false)
    (hrest' : atMark '[' rest' = false) (heq : arrayTokens m ++ rest = arrayTokens n ++ rest') :
    m = n ∧ rest = rest' := by
  induction m generalizing n with
  | zero =>
    cases n with
    | zero => exact ⟨rfl, heq⟩
    | succ n =>
      simp only [arrayTokens, List.nil_append, List.cons_append] at heq
      simp [heq] at hrest
  | succ m ih =>
    cases n with
    | zero =>
      simp only [arrayTokens, List.nil_append, List.cons_append] at heq
      simp [← heq] at hrest'
    | succ n =>
      obtain ⟨rfl, rfl⟩ := ih (by simpa [arrayTokens] using heq)
      exact ⟨rfl, rfl⟩

theorem splits_dottedTokens {ms ns : List String} {rest rest' : List Token}
    (hrest : atMark '.' rest = false)
    (hrest' : atMark '.' rest' = false) (heq : dottedTokens ms ++ rest = dottedTokens ns ++ rest') :
    ms = ns ∧ rest = rest' := by
  induction ms generalizing ns with
  | nil =>
    cases ns with
    | nil => exact ⟨rfl, heq⟩
    | cons n ns =>
      simp only [dottedTokens, List.flatMap_cons, List.flatMap_nil, List.nil_append,
        List.cons_append] at heq
      simp [heq] at hrest
  | cons m ms ih =>
    cases ns with
    | nil =>
      simp only [dottedTokens, List.flatMap_cons, List.flatMap_nil, List.nil_append,
        List.cons_append] at heq
      simp [← heq] at hrest'
    | cons n ns =>
      obtain ⟨rfl, htail⟩ : m = n ∧ dottedTokens ms ++ rest = dottedTokens ns ++ rest' := by
        simpa [dottedTokens] using heq
      obtain ⟨rfl, rfl⟩ := ih htail
      exact ⟨rfl, rfl⟩

/-! ### Layers -/

section Layer

variable {k : Nat} (h : ∀ u : UnionTree, u.tokens.length < k → Splits unionMarks UnionTree.tokens u)
include h

theorem PrimaryTree.splits {p : PrimaryTree} (hk : p.tokens.length ≤ k) :
    Splits ['.'] PrimaryTree.tokens p := by
  intro q rest rest' hrest hrest' heq
  -- The first token tells the forms apart, except for the two forms of tuples.
  cases p with
  | group inner =>
    cases q with
    | group inner' =>
      have hinner : inner.tokens ++ .mark ')' :: rest = inner'.tokens ++ .mark ')' :: rest' := by
        simpa [PrimaryTree.tokens] using heq
      obtain ⟨rfl, htail⟩ := h inner (by simp [PrimaryTree.tokens] at hk; omega)
        (stops_mark (by decide) rest) (stops_mark (by decide) rest') hinner
      exact ⟨rfl, by simpa using htail⟩
    | number negative => cases negative <;> simp [PrimaryTree.tokens] at heq
    | _ => simp [PrimaryTree.tokens] at heq
  | emptyTuple =>
    cases q with
    | emptyTuple => exact ⟨rfl, by simpa [PrimaryTree.tokens] using heq⟩
    | tuple first more trailing =>
      simp only [PrimaryTree.tokens, List.cons_append, List.append_assoc, List.cons.injEq,
        true_and] at heq
      exact absurd heq.symm (first.tokens_append_ne _ _)
    | number negative => cases negative <;> simp [PrimaryTree.tokens] at heq
    | _ => simp [PrimaryTree.tokens] at heq
  | tuple first more trailing =>
    cases q with
    | emptyTuple =>
      simp only [PrimaryTree.tokens, List.cons_append, List.append_assoc, List.cons.injEq,
        true_and] at heq
      exact absurd heq (first.tokens_append_ne _ _)
    | tuple first' more' trailing' =>
      have hparts : ∀ u ∈ first :: more, Splits unionMarks UnionTree.tokens u := fun u hu =>
        h u (Nat.lt_of_lt_of_le (PrimaryTree.length_lt_of_mem_tuple hu trailing) hk)
      obtain ⟨rfl, rfl, rfl, rfl⟩ :=
        splits_elements (by decide) (by decide) UnionTree.tokens_append_ne hparts
        (by simpa [PrimaryTree.tokens, UnionTree.tokensOfMore_eq] using heq)
      exact ⟨rfl, rfl⟩
    | number negative => cases negative <;> simp [PrimaryTree.tokens] at heq
    | _ => simp [PrimaryTree.tokens] at heq
  | string text complaint? =>
    cases q with
    | string text' complaint?' =>
      obtain ⟨⟨rfl, rfl⟩, rfl⟩ : (text = text' ∧ complaint? = complaint?') ∧ rest = rest' := by
        simpa [PrimaryTree.tokens] using heq
      exact ⟨rfl, rfl⟩
    | number negative => cases negative <;> simp [PrimaryTree.tokens] at heq
    | _ => simp [PrimaryTree.tokens] at heq
  | number negative text complaint? =>
    cases q with
    | number negative' text' complaint?' =>
      revert heq
      cases negative <;> cases negative' <;> simp [PrimaryTree.tokens]
    | _ => cases negative <;> simp [PrimaryTree.tokens] at heq
  | names first more =>
    cases q with
    | names first' more' =>
      obtain ⟨rfl, htail⟩ : first = first' ∧
        dottedTokens more ++ rest = dottedTokens more' ++ rest' := by
        simpa [PrimaryTree.tokens] using heq
      have hstops : atMark '.' rest' = false := hrest' '.' (.head _)
      obtain ⟨rfl, rfl⟩ := splits_dottedTokens (hrest '.' (.head _)) hstops htail
      exact ⟨rfl, rfl⟩
    | number negative => cases negative <;> simp [PrimaryTree.tokens] at heq
    | _ => simp [PrimaryTree.tokens] at heq

theorem PostfixTree.splits {p : PostfixTree} (hk : p.tokens.length ≤ k) :
    Splits ['[', '.'] PostfixTree.tokens p := by
  intro q rest rest' hrest hrest' heq
  obtain ⟨primary, arrays⟩ := p
  obtain ⟨primary', arrays'⟩ := q
  simp only [PostfixTree.tokens, List.append_assoc] at heq hk
  rw [List.length_append] at hk
  obtain ⟨rfl, htail⟩ := PrimaryTree.splits h (by omega)
    (stops_arrayTokens arrays fun c hc => hrest c (.tail _ hc))
    (stops_arrayTokens arrays' fun c hc => hrest' c (.tail _ hc)) heq
  have hstops : atMark '[' rest' = false := hrest' '[' (.head _)
  obtain ⟨rfl, rfl⟩ := splits_arrayTokens (hrest '[' (.head _)) hstops htail
  exact ⟨rfl, rfl⟩

theorem InterTree.splits {i : InterTree} (hk : i.tokens.length ≤ k) :
    Splits ['&', '[', '.'] InterTree.tokens i := by
  intro j rest rest' hrest hrest' heq
  obtain ⟨first, more⟩ := i
  obtain ⟨first', more'⟩ := j
  simp only [InterTree.tokens, PostfixTree.tokensOfMore_eq] at heq hk
  obtain ⟨rfl, rfl, rfl⟩ := splits_branches (by decide)
    (fun p hp => PostfixTree.splits h (Nat.le_trans (length_le_of_mem_branches hp) hk))
      hrest hrest' heq
  exact ⟨rfl, rfl⟩

theorem UnionTree.splits {u : UnionTree} (hk : u.tokens.length ≤ k) :
    Splits unionMarks UnionTree.tokens u := by
  intro v rest rest' hrest hrest' heq
  obtain ⟨leading, first, more⟩ := u
  obtain ⟨leading', first', more'⟩ := v
  obtain rfl : leading = leading' := by
    simpa only [UnionTree.atMark_bar] using congrArg (atMark '|') heq
  simp only [UnionTree.tokens, InterTree.tokensOfMore_eq, List.length_append] at hk
  have hlength : (first.tokens ++ afterEach '|' InterTree.tokens more).length ≤ k := by
    rw [List.length_append]
    omega
  obtain ⟨rfl, rfl, rfl⟩ := splits_branches (by decide)
    (fun i hi => InterTree.splits h (Nat.le_trans (length_le_of_mem_branches hi) hlength)) hrest
      hrest'
    (by simpa [UnionTree.tokens, InterTree.tokensOfMore_eq] using heq)
  exact ⟨rfl, rfl⟩

end Layer

theorem UnionTree.splits_all (k : Nat) {u : UnionTree} (hk : u.tokens.length < k) :
    Splits unionMarks UnionTree.tokens u := by
  induction k generalizing u with
  | zero => omega
  | succ k ih => exact UnionTree.splits (fun u hu => ih hu) (Nat.le_of_lt_succ hk)

/-- Tokens have at most one derivation. -/
theorem UnionTree.tokens_injective : Function.Injective UnionTree.tokens := by
  intro u v heq
  have hstops : Stops unionMarks [] := fun c _ => rfl
  exact (UnionTree.splits_all _ (Nat.lt_succ_self _) hstops hstops (by simp [heq])).1

end StructuralTyping.TypeSource
