import StructuralTyping.Proofs.Number.Numeral
import StructuralTyping.Proofs.TypeSource.Quoted
import StructuralTyping.TypeSource.Parse

/-!
# Cutting text piece by piece

The tokens of a text are found piece by piece.  A blank, a mark or quoted text is cut off
whatever follows it.  A name or a number goes on as long as it can, so it is cut off before
a character that ends it (`EndsToken`).  `CutsBefore` says of a piece of text which tokens it
is cut into and what must follow it, and `CutsBefore.append` puts pieces together.
-/

namespace StructuralTyping.TypeSource

/-! ## Pieces -/

/-- What follows ends a name or a number. -/
def EndsToken (rest : List Char) : Prop := ∀ c ∈ rest.head?, c ∈ [' ', ',', ')', '[', ']']

/-- Anything may follow. -/
def Anything (_ : List Char) : Prop := True

/-- A piece of text is cut into well-formed tokens, if what follows it is as required.  It
takes no more steps than it has characters. -/
structure CutsBefore (P : List Char → Prop) (cs : List Char) (ts : List Token) : Prop where
  clean : ∀ t ∈ ts, t.complaint? = none
  cut : ∃ steps ≤ cs.length, ∀ rest, P rest → ∀ fuel,
    tokensWithin (steps + fuel) (cs ++ rest) = ts ++ tokensWithin fuel rest

namespace CutsBefore

variable {P Q : List Char → Prop} {cs ds : List Char} {ts us : List Token}

theorem mono (h : CutsBefore P cs ts) (hPQ : ∀ rest, Q rest → P rest) : CutsBefore Q cs ts := by
  obtain ⟨hclean, steps, hsteps, hcut⟩ := h
  exact ⟨hclean, steps, hsteps, fun rest hrest => hcut rest (hPQ rest hrest)⟩

theorem append (h : CutsBefore P cs ts) (h' : CutsBefore Q ds us)
    (hP : ∀ rest, Q rest → P (ds ++ rest)) : CutsBefore Q (cs ++ ds) (ts ++ us) := by
  obtain ⟨hclean, steps, hsteps, hcut⟩ := h
  obtain ⟨hclean', steps', hsteps', hcut'⟩ := h'
  refine ⟨List.forall_mem_append.2 ⟨hclean, hclean'⟩, steps + steps', ?_, fun rest hrest fuel => ?_⟩
  · rw [List.length_append]
    omega
  · rw [List.append_assoc, Nat.add_assoc, hcut _ (hP rest hrest), hcut' rest hrest,
      List.append_assoc]

end CutsBefore

theorem cutsBefore_blank : CutsBefore Anything [' '] [] :=
  ⟨by simp, 1, Nat.le_refl 1, fun rest _ fuel => by simp [Nat.add_comm 1, tokensWithin, isBlank]⟩

/-- One token is cut off. -/
theorem cutsBefore_token {P : List Char → Prop} {c : Char} {cs : List Char} {t : Token}
    (hblank : isBlank c = false) (hclean : t.complaint? = none)
    (h : ∀ rest, P rest → takeToken c (cs ++ rest) = (t, rest)) :
    CutsBefore P (c :: cs) [t] := by
  refine ⟨by simpa using hclean, 1, by simp, fun rest hrest fuel => ?_⟩
  simp [Nat.add_comm 1, tokensWithin, hblank, h rest hrest]

theorem cutsBefore_mark {c : Char} (hc : c ∈ ['(', ')', '[', ']', ',', '|', '&', '-']) :
    CutsBefore Anything [c] [.mark c] := by
  simp only [List.mem_cons, List.not_mem_nil, or_false] at hc
  refine cutsBefore_token ?_ ?_ fun rest _ => ?_
  · rcases hc with rfl | rfl | rfl | rfl | rfl | rfl | rfl | rfl <;> rfl
  · rcases hc with rfl | rfl | rfl | rfl | rfl | rfl | rfl | rfl <;> rfl
  · rcases hc with rfl | rfl | rfl | rfl | rfl | rfl | rfl | rfl <;> simp [takeToken, startsName]

theorem cutsBefore_quote (s : ByteText) :
    CutsBefore Anything (quote s).toList [.quoted (quote s) none] := by
  obtain ⟨cs, htext, -⟩ := takeToken_quote s []
  rw [htext]
  refine cutsBefore_token rfl rfl fun rest _ => ?_
  obtain ⟨cs', htext', htake⟩ := takeToken_quote s rest
  obtain rfl : cs = cs' := List.tail_eq_of_cons_eq (htext.symm.trans htext')
  exact htake

/-! ## Whole texts -/

theorem tokensWithin_nil (fuel : Nat) : tokensWithin fuel [] = [] := by
  cases fuel <;> rfl

/-- A whole text is cut into its tokens, unless it starts with the mark that is dropped. -/
theorem tokens_of_cutsBefore {source : String} {ts : List Token}
    (h : CutsBefore EndsToken source.toList ts)
    (hmark : atMark '\uFEFF' ts = false) : tokens source = ts := by
  obtain ⟨-, steps, hsteps, hcut⟩ := h
  have hcut := hcut [] (by simp [EndsToken]) (source.toList.length - steps)
  rw [List.append_nil, tokensWithin_nil, List.append_nil, Nat.add_sub_of_le hsteps] at hcut
  have hstart : dropByteOrderMark source.toList = source.toList := by
    cases hsource : source.toList with
    | nil => rfl
    | cons c cs =>
      refine if_neg fun hc => ?_
      obtain rfl : c = '\uFEFF' := by simpa using hc
      rw [← hcut, hsource] at hmark
      cases hmark
  rw [tokens, hstart]
  exact hcut

/-! ## Names -/

theorem span_append {α : Type} {p : α → Bool} {xs rest : List α} (hxs : ∀ x ∈ xs, p x = true)
    (hrest : ∀ x ∈ rest.head?, p x = false) : (xs ++ rest).span p = (xs, rest) := by
  rw [List.span_eq_takeWhile_dropWhile, List.takeWhile_append_of_pos hxs,
    List.dropWhile_append_of_pos hxs]
  cases rest with
  | nil => simp
  | cons x rest => simp [hrest x rfl]

/-- A test that no character after a token passes. -/
theorem EndsToken.fails {rest : List Char} (h : EndsToken rest) {p : Char → Bool}
    (hp : [' ', ',', ')', '[', ']'].any p = false) : ∀ c ∈ rest.head?, p c = false :=
  fun c hc => Bool.eq_false_iff.2 (List.any_eq_false.1 hp c (h c hc))

/-- A character that passes a test which no blank passes is no blank. -/
theorem isBlank_eq_false {p : Char → Bool} (hp : [' ', '\t', '\r', '\n'].any p = false) {c : Char}
    (hc : p c = true) : isBlank c = false := by
  rw [← Bool.not_eq_true]
  intro hblank
  have hmem : c ∈ [' ', '\t', '\r', '\n'] := by simpa [isBlank, or_assoc] using hblank
  exact List.any_eq_false.1 hp c hmem hc

theorem cutsBefore_name {c : Char} {cs : List Char} (hc : startsName c = true)
    (hcs : ∀ d ∈ cs, continuesName d = true) :
    CutsBefore EndsToken (c :: cs) [.name (String.ofList (c :: cs))] := by
  refine cutsBefore_token (isBlank_eq_false (by decide) hc) rfl fun rest hrest => ?_
  have hspan : (cs ++ rest).span continuesName = (cs, rest) :=
    span_append hcs (hrest.fails (by decide))
  simp only [takeToken, hc, if_true, hspan]

/-! ## Numbers -/

theorem takeExponent?_eq_none {rest : List Char} (h : EndsToken rest) :
    takeExponent? rest = none := by
  cases rest with
  | nil => rfl
  | cons c cs =>
    have hmark :=
      h.fails (p := fun c => lowerAscii c == 'e' || lowerAscii c == 'p') (by decide) c rfl
    simp only [takeExponent?, hmark, Bool.false_eq_true, if_false]

theorem takeExponent?_text (e : Int) {rest : List Char} (h : EndsToken rest) :
    ∃ sign digits, sign ++ digits = (exponentText e).toList ∧ digits.any Char.isDigit = true ∧
      takeExponent? ('e' :: (exponentText e).toList ++ rest) =
        some (⟨'e', sign, digits⟩, rest) := by
  obtain ⟨ds, hne, hds, -, htext⟩ := exponentText_toList e
  have hspan : (ds ++ rest).span (fun d => d.isDigit || d == '_') = (ds, rest) :=
    span_append (fun c hc => by simp [hds c hc]) (h.fails (by decide))
  have hany : ds.any Char.isDigit = true := by
    obtain ⟨d, ds, rfl⟩ := List.exists_cons_of_ne_nil hne
    simp [hds d (.head _)]
  have hmark : (lowerAscii 'e' == 'e' || lowerAscii 'e' == 'p') = true := by decide
  rw [htext]
  refine ⟨[if e < 0 then '-' else '+'], ds, rfl, hany, ?_⟩
  by_cases he : e < 0 <;>
    simp only [takeExponent?, List.cons_append, hmark, he, hspan, if_true, if_false]

theorem Radix.scans_of_ne_hexadecimal {r : Radix} (h : r ≠ .hexadecimal) (c : Char) :
    r.scans c = c.isDigit := by
  simp [Radix.scans, h]

theorem Radix.ofMark?_of_isNumeralChar {c : Char} (h : IsNumeralChar c) :
    Radix.ofMark? c = none := by
  rcases h with h | h
  · rw [Radix.ofMark?, lowerAscii_of_isDigit h]
    split
    · cases h
    · cases h
    · cases h
    · rfl
  · simp only [List.mem_cons, List.not_mem_nil, or_false] at h
    rcases h with rfl | rfl | rfl | rfl <;> rfl

theorem takeRadix_zero {cs : List Char} (h : ∀ c ∈ cs.head?, Radix.ofMark? c = none) :
    takeRadix ('0' :: cs) = (.leadingZero, ['0'], cs) := by
  cases cs with
  | nil => rfl
  | cons c cs => rw [takeRadix, h c rfl]

theorem takeRadix_of_ne_zero {c : Char} (hc : c ≠ '0') (cs : List Char) :
    takeRadix (c :: cs) = (.decimal, [], c :: cs) := by
  unfold takeRadix
  split <;> simp_all

/-- A numeral that is a single zero, or has no zero in front unless a point or an exponent
follows. -/
def IsPlain (n : Numeral) : Prop := n.IsBare → n.whole.head? ≠ some '0' ∨ n.whole = ['0']

theorem takeRadix_chars {n : Numeral} (hn : IsPlain n) {rest : List Char} (hrest : EndsToken rest) :
    ∃ r lead whole, r ≠ .hexadecimal ∧ r.isSmall = false ∧ lead ++ whole = n.whole ∧
      (r = .leadingZero ∨ whole ≠ []) ∧ (n.IsBare → whole.find? r.exceeds = none) ∧
      takeRadix (n.chars ++ rest) =
        (r, lead, whole ++ (n.fractionChars ++ (n.exponentChars ++ rest))) := by
  obtain ⟨c, cs, hwhole⟩ := List.exists_cons_of_ne_nil n.whole_ne_nil
  have hchars : n.chars ++ rest = c :: (cs ++ (n.fractionChars ++ (n.exponentChars ++ rest))) := by
    simp [Numeral.chars, hwhole]
  rw [hchars]
  by_cases hc : c = '0'
  · subst hc
    refine ⟨.leadingZero, ['0'], cs, by decide, rfl, hwhole.symm, .inl rfl, fun hbare => ?_,
      takeRadix_zero ?_⟩
    · obtain rfl : cs = [] := by simpa [hwhole] using hn hbare
      rfl
    · -- the next character belongs to the numeral or ends it
      intro d hd
      have hparts : cs ++ (n.fractionChars ++ (n.exponentChars ++ rest)) =
          n.chars.tail ++ rest := by
        simp [Numeral.chars, hwhole]
      rw [hparts, List.head?_append, Option.mem_def, Option.or_eq_some_iff] at hd
      rcases hd with hd | ⟨-, hd⟩
      · have hmem : d ∈ n.chars := List.mem_of_mem_tail (List.mem_of_mem_head? hd)
        exact Radix.ofMark?_of_isNumeralChar (n.isNumeralChar_of_mem d hmem)
      · have hends := hrest.fails (p := fun c => (Radix.ofMark? c).isSome) (by decide) d hd
        exact Option.isNone_iff_eq_none.1 (Option.isSome_eq_false_iff.1 hends)
  · refine ⟨.decimal, [], c :: cs, by decide, rfl, hwhole.symm,
      .inr (List.cons_ne_nil _ _), fun _ => ?_, takeRadix_of_ne_zero hc _⟩
    refine List.find?_eq_none.2 fun d hd => ?_
    have hlt : d.toNat - '0'.toNat < Radix.decimal.base := digit_lt (n.whole_digits d (hwhole ▸ hd))
    rw [Radix.exceeds, decide_eq_false (Nat.not_le.2 hlt), Bool.and_false]
    exact Bool.false_ne_true

theorem takeFraction_chars {r : Radix} (hr : r ≠ .hexadecimal) (n : Numeral) {rest : List Char}
    (hrest : ∀ c ∈ rest.head?, (c.isDigit || c == '_') = false ∧ c ≠ '.') :
    ∃ point, point ++ n.fraction = n.fractionChars ∧ (point.isEmpty = n.fraction.isEmpty) ∧
      takeFraction r (n.fractionChars ++ rest) = (point, n.fraction, rest) := by
  cases hfraction : n.fraction with
  | nil =>
    refine ⟨[], by simp [Numeral.fractionChars, hfraction], rfl, ?_⟩
    rw [Numeral.fractionChars, hfraction]
    unfold takeFraction
    split
    · next cs heq => exact absurd rfl (hrest '.' (by simpa using congrArg List.head? heq)).2
    · rfl
  | cons d ds =>
    have hspan : (d :: ds ++ rest).span (fun c => r.scans c || c == '_') = (d :: ds, rest) := by
      refine span_append (fun c hc => ?_) (fun c hc => ?_)
      · simp [Radix.scans_of_ne_hexadecimal hr, n.fraction_digits c (hfraction ▸ hc)]
      · rw [Radix.scans_of_ne_hexadecimal hr]
        exact (hrest c hc).1
    refine ⟨['.'], by simp [Numeral.fractionChars, hfraction], rfl, ?_⟩
    simp only [Numeral.fractionChars, hfraction, List.isEmpty_cons, Bool.false_eq_true, if_false,
      takeFraction, List.cons_append] at hspan ⊢
    rw [hspan]

theorem head?_exponentChars (n : Numeral) {rest : List Char} (hrest : EndsToken rest) :
    ∀ c ∈ (n.exponentChars ++ rest).head?, (c.isDigit || c == '_') = false ∧ c ≠ '.' := by
  intro c hc
  rw [Numeral.exponentChars] at hc
  split at hc
  · have hpoint := hrest.fails (p := fun c => c == '.') (by decide) c hc
    have hdigit := hrest.fails (p := fun c => c.isDigit || c == '_') (by decide) c hc
    exact ⟨hdigit, beq_eq_false_iff_ne.1 hpoint⟩
  · obtain rfl : 'e' = c := by simpa using hc
    decide

theorem takeExponent?_chars {r : Radix} (hhex : r ≠ .hexadecimal)
    (hsmall : r.isSmall = false) (n : Numeral) {rest : List Char} (hrest : EndsToken rest) :
    (n.exponent? = none ∧ n.exponentChars = [] ∧ takeExponent? (n.exponentChars ++ rest) = none) ∨
      ∃ e : Exponent, e.mark :: e.sign ++ e.digits = n.exponentChars ∧ e.complaints r = [] ∧
        takeExponent? (n.exponentChars ++ rest) = some (e, rest) := by
  rw [Numeral.exponentChars]
  cases n.exponent? with
  | none => exact .inl ⟨rfl, rfl, takeExponent?_eq_none hrest⟩
  | some e =>
    obtain ⟨sign, digits, htext, hany, htake⟩ := takeExponent?_text e hrest
    refine .inr ⟨⟨'e', sign, digits⟩, by simp [htext], ?_, htake⟩
    have hmark : (lowerAscii 'e' == 'e') = true := rfl
    have hpower : (lowerAscii 'e' == 'p') = false := rfl
    have hradix : (r == Radix.hexadecimal) = false := beq_eq_false_iff_ne.2 hhex
    simp only [Exponent.complaints, hmark, hpower, hsmall, hradix, hany]
    rfl

/-- A numeral is cut off as one number. -/
theorem takeNumber_chars {n : Numeral} (hn : IsPlain n) {rest : List Char}
    (hrest : EndsToken rest) :
    takeNumber (n.chars ++ rest) = (.number (String.ofList n.chars) none, rest) := by
  obtain ⟨r, lead, whole, hhex, hsmall, hwhole, hany, hexceeds, hradix⟩ := takeRadix_chars hn hrest
  have hdigits : ∀ c ∈ whole, c.isDigit = true := fun c hc =>
    n.whole_digits c (hwhole ▸ List.mem_append_right _ hc)
  have hafter := head?_exponentChars n hrest
  obtain ⟨point, hpoint, hempty, hfraction⟩ := takeFraction_chars hhex n hafter
  have hspan :
      (whole ++ (n.fractionChars ++ (n.exponentChars ++ rest))).span
        (fun c => r.scans c || c == '_') =
      (whole, n.fractionChars ++ (n.exponentChars ++ rest)) := by
    refine span_append (fun c hc => ?_) (fun c hc => ?_)
    · simp [hdigits c hc, Radix.scans]
    · rw [Radix.scans_of_ne_hexadecimal hhex]
      rw [Numeral.fractionChars] at hc
      split at hc
      · exact (hafter c hc).1
      · obtain rfl : '.' = c := by simpa using hc
        rfl
  have hdigit : (r == .leadingZero || (whole ++ n.fraction).any (· != '_')) = true := by
    rcases hany with rfl | hne
    · rfl
    · obtain ⟨d, ds, rfl⟩ := List.exists_cons_of_ne_nil hne
      simp [ne_of_isDigit (hdigits d (.head _)) (d := '_') rfl]
  have hunder : n.chars.contains '_' = false := by
    rw [← Bool.not_eq_true, List.contains_iff_mem]
    exact fun hmem => (n.isNumeralChar_of_mem _ hmem).ne_underscore rfl
  have htext : lead ++ whole ++ point ++ n.fraction ++ n.exponentChars = n.chars := by
    simp only [Numeral.chars, ← hwhole, ← hpoint, List.append_assoc]
  rcases takeExponent?_chars hhex hsmall n hrest with
    ⟨hnone, hchars, htake⟩ | ⟨e, hchars, hcomplaints, htake⟩
  · have hexceeds : n.fraction.isEmpty = true → whole.find? r.exceeds = none := fun hf =>
      hexceeds ⟨List.isEmpty_iff.1 hf, hnone⟩
    rw [hchars] at htext htake hspan hfraction hradix
    simp only [takeNumber, hradix, hspan, hfraction, htake, hdigit, htext, hunder]
    cases hf : n.fraction.isEmpty <;>
      simp [complainIf, hsmall, hhex, hempty, hf, hexceeds]
  · simp only [takeNumber, hradix, hspan, hfraction, htake, hdigit]
    rw [hchars, htext, hunder]
    simp [complainIf, hsmall, hcomplaints]

theorem startsName_of_isDigit {c : Char} (h : c.isDigit = true) : startsName c = false := by
  have hhigh : c.toNat ≤ 57 := (Char.isDigit_iff_toNat.1 h).2
  have hupper : c.isUpper = false := by
    refine decide_eq_false ?_
    rintro ⟨hlow, -⟩
    have hlow : 65 ≤ c.toNat := hlow
    omega
  have hlower : c.isLower = false := by
    refine Bool.and_eq_false_iff.2 (.inl (decide_eq_false ?_))
    intro hlow
    have hlow : 97 ≤ c.toNat := hlow
    omega
  have halpha : c.isAlpha = false := Bool.or_eq_false_iff.2 ⟨hupper, hlower⟩
  have hmarks : c ≠ '_' ∧ c ≠ '$' ∧ c ≠ '#' :=
    ⟨ne_of_isDigit h rfl, ne_of_isDigit h rfl, ne_of_isDigit h rfl⟩
  simp [startsName, halpha, hmarks]

theorem cutsBefore_numeral (negative : Bool) {n : Numeral} (hn : IsPlain n) :
    CutsBefore EndsToken (signChars negative ++ n.chars)
      ((if negative then [.mark '-'] else []) ++ [.number (String.ofList n.chars) none]) := by
  obtain ⟨c, cs, hc, hchars⟩ := n.exists_chars_eq
  have hnumber : CutsBefore EndsToken n.chars [.number (String.ofList n.chars) none] := by
    rw [hchars]
    refine cutsBefore_token (isBlank_eq_false (by decide) hc) rfl fun rest hrest => ?_
    rw [takeToken, startsName_of_isDigit hc, if_neg Bool.false_ne_true, hc,
      Bool.true_or, if_pos rfl, ← List.cons_append, ← hchars]
    exact takeNumber_chars hn hrest
  cases negative with
  | false => exact hnumber
  | true => exact (cutsBefore_mark (by decide)).append hnumber fun _ _ => trivial

end StructuralTyping.TypeSource
