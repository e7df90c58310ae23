import StructuralTyping.Proofs.Number.Numeral
import StructuralTyping.Proofs.Yaml.Reread
import StructuralTyping.Yaml.Scalar

/-!
# Numbers in documents

A number is written under the tag of floating point numbers.  Its text is read as
an integer when there are digits only, and as a decimal otherwise.  Both give the
number back, apart from the sign of a zero (`ofKind?_text`).
-/

namespace StructuralTyping.Yaml

open Binary64 (IsFinite NearTo)

/-! ## Integers -/

section Integers

variable {base : Nat} {c : Char} {cs ds : List Char}

theorem foldl_readDigit? : ∀ {ds : List Char}, (∀ c ∈ ds, c.isDigit = true) → ∀ n : Nat,
    ds.foldl (readDigit? 10) (some n) = some (Nat.ofDigitChars 10 ds n)
  | [], _, _ => rfl
  | c :: ds, hds, n => by
      have hc := hds c (.head _)
      have hdigit : digitIn? 10 c = some (c.toNat - '0'.toNat) := by
        rw [digitIn?, digitValue?_of_isDigit 16 hc, Option.filter_some,
          if_pos (decide_eq_true (digit_lt hc))]
      have hstep : readDigit? 10 (some n) c = some (10 * n + (c.toNat - '0'.toNat)) := by
        rw [readDigit?, Option.bind_some, hdigit, Nat.mul_comm]
        rfl
      rw [List.foldl_cons, hstep, Nat.ofDigitChars_cons]
      exact foldl_readDigit? (fun c hc => hds c (.tail _ hc)) _

theorem foldl_readDigit?_none (base : Nat) :
    ∀ cs : List Char, cs.foldl (readDigit? base) none = none
  | [] => rfl
  | _ :: cs => foldl_readDigit?_none base cs

theorem readDigits?_digits (hds : ∀ c ∈ ds, c.isDigit = true) (hne : ds ≠ []) :
    readDigits? 10 ds = some (Nat.ofDigitChars 10 ds 0) := by
  rw [readDigits?, if_neg (by simpa using hne)]
  exact foldl_readDigit? hds 0

theorem readDigits?_eq_none (hc : c ∈ cs) (hdigit : digitValue? 16 c = none) :
    readDigits? base cs = none := by
  obtain ⟨front, back, rfl⟩ := List.append_of_mem hc
  have hstep (acc : Option Nat) : readDigit? base acc c = none := by
    rw [readDigit?, digitIn?, hdigit]
    cases acc <;> rfl
  rw [readDigits?, if_neg (by simp), List.foldl_append, List.foldl_cons, hstep,
    foldl_readDigit?_none]

/-- A character that is neither a digit nor a base mark. -/
def breaksInteger (c : Char) : Bool :=
  (digitValue? 16 c).isNone && !List.contains ['b', 'o', 'x'] (lowerAscii c)

theorem readNatural?_eq_none (hc : c ∈ cs) (hbreaks : breaksInteger c = true) :
    readNatural? cs = none := by
  simp only [breaksInteger, Bool.and_eq_true, Option.isNone_iff_eq_none, Bool.not_eq_true',
    List.contains_eq_mem, decide_eq_false_iff_not] at hbreaks
  obtain ⟨hdigit, hmark⟩ := hbreaks
  have hzero : c ≠ '0' := by
    rintro rfl
    exact absurd hdigit (by decide)
  rw [readNatural?.eq_def]
  split
  · next x d cs =>
    have hrest : lowerAscii x ∈ ['b', 'o', 'x'] → c ∈ d :: cs := by
      intro hx
      have hne : c ≠ x := by
        rintro rfl
        exact hmark hx
      simpa [hzero, hne] using hc
    split
    · next hx => exact readDigits?_eq_none (hrest (by simp [hx])) hdigit
    · next hx => exact readDigits?_eq_none (hrest (by simp [hx])) hdigit
    · next hx => exact readDigits?_eq_none (hrest (by simp [hx])) hdigit
    · exact readDigits?_eq_none (by simpa [hzero] using hc) hdigit
  · simp [hzero] at hc
  · exact readDigits?_eq_none (by simpa [hzero] using hc) hdigit
  · exact readDigits?_eq_none hc hdigit

theorem ofDigitChars_lt : ∀ {ds : List Char}, (∀ c ∈ ds, c.isDigit = true) →
    Nat.ofDigitChars 10 ds 0 < 10 ^ ds.length
  | [], _ => by decide
  | c :: ds, hds => by
      have hc := digit_lt (hds c (.head _))
      have hrest := ofDigitChars_lt fun c hc => hds c (.tail _ hc)
      rw [Nat.ofDigitChars_cons, Nat.ofDigitChars_eq_ofDigitChars_zero, List.length_cons,
        Nat.pow_succ]
      nlinarith

end Integers

/-! ## Numerals -/

section Numerals

variable (n : Numeral) (negative : Bool)

/-- A point and the sign of an exponent break an integer. -/
theorem exists_breaksInteger (h : ¬ n.IsBare) : ∃ c ∈ n.chars, breaksInteger c = true := by
  by_cases hfraction : n.fraction = []
  · cases hexponent : n.exponent? with
    | none => exact absurd ⟨hfraction, hexponent⟩ h
    | some e =>
      obtain ⟨ds, -, -, -, htext⟩ := exponentText_toList e
      refine ⟨if e < 0 then '-' else '+', ?_, by split <;> decide⟩
      simp [Numeral.chars, Numeral.exponentChars, hexponent, htext]
  · exact ⟨'.', by simp [Numeral.chars, Numeral.fractionChars, hfraction], by decide⟩

/-- A numeral with a point or an exponent is no integer. -/
theorem integer?_eq_none (h : ¬ n.IsBare) :
    Scalar.integer? (signChars negative ++ n.chars) = none := by
  obtain ⟨c, hc, hbreaks⟩ := exists_breaksInteger n h
  have hnatural := readNatural?_eq_none hc hbreaks
  have hnatural' := readNatural?_eq_none (List.mem_append_right (signChars negative) hc) hbreaks
  simp only [Scalar.integer?, readSigned?, readUnsigned?, n.takeSign_chars, hnatural, hnatural',
    Option.bind_none, Option.or_none]

/-- The integer that digits stand for. -/
def signedValue (negative : Bool) (ds : List Char) : Int :=
  if negative then -(Nat.ofDigitChars 10 ds 0 : Int) else Nat.ofDigitChars 10 ds 0

theorem inSigned64_signedValue (hlength : n.whole.length ≤ 6) :
    inSigned64 (signedValue negative n.whole) = true := by
  have hlt := ofDigitChars_lt n.whole_digits
  have hpow : 10 ^ n.whole.length ≤ 10 ^ 6 := Nat.pow_le_pow_right (by decide) hlength
  rw [inSigned64, signedBound, signedValue, Bool.and_eq_true, decide_eq_true_iff,
    decide_eq_true_iff]
  cases negative <;> simp <;> omega

/-- A short numeral without a point, an exponent and a zero in front is an integer. -/
theorem integer?_eq_some (h : n.IsBare) (hhead : n.whole.head? ≠ some '0')
    (hlength : n.whole.length ≤ 6) :
    Scalar.integer? (signChars negative ++ n.chars) = some (signedValue negative n.whole) := by
  have hchars : n.chars = n.whole := by
    simp [Numeral.chars, Numeral.fractionChars, Numeral.exponentChars, h.1, h.2]
  have hnatural : readNatural? n.whole = some (Nat.ofDigitChars 10 n.whole 0) := by
    obtain ⟨c, cs, hwhole⟩ := List.exists_cons_of_ne_nil n.whole_ne_nil
    have hc : c ≠ '0' := by simpa [hwhole] using hhead
    rw [← readDigits?_digits n.whole_digits n.whole_ne_nil, hwhole, readNatural?.eq_def]
    split <;> simp_all
  have hsign := n.takeSign_chars negative
  have hin := inSigned64_signedValue n negative hlength
  rw [signedValue] at hin
  rw [hchars] at hsign ⊢
  simp only [Scalar.integer?, readSigned?, hsign, hnatural, Option.bind_some, hin, if_true,
    Option.some_or, signedValue]

theorem takeDigits_append {ds rest : List Char} (hds : ∀ c ∈ ds, c.isDigit = true)
    (hrest : ∀ c ∈ rest.head?, c.isDigit = false) : takeDigits (ds ++ rest) = (ds, rest) := by
  rw [takeDigits, List.span_eq_takeWhile_dropWhile, List.takeWhile_append_of_pos hds,
    List.dropWhile_append_of_pos hds]
  cases rest with
  | nil => simp
  | cons c rest => simp [hrest c rfl]

theorem isExponentOrEnd_exponentChars : isExponentOrEnd n.exponentChars = true := by
  rw [Numeral.exponentChars]
  split
  · rfl
  · next e _ =>
    obtain ⟨ds, hne, hds, -, htext⟩ := exponentText_toList e
    have hsign : (takeSign (exponentText e).toList).2 = ds := by
      rw [htext]
      split <;> rfl
    rw [isExponentOrEnd, hsign, Bool.and_eq_true, Bool.and_eq_true, List.all_eq_true]
    exact ⟨by decide, by simpa using hne, hds⟩

theorem isDecimalForm_chars : isDecimalForm (signChars negative ++ n.chars) = true := by
  have hstop : ∀ c ∈ n.exponentChars.head?, c.isDigit = false := by
    rw [Numeral.exponentChars]
    split <;> simp
  have hwhole : n.whole.isEmpty = false := by simpa using n.whole_ne_nil
  have hend := isExponentOrEnd_exponentChars n
  by_cases hfraction : n.fraction.isEmpty = true
  · have htake : takeDigits n.chars = (n.whole, n.exponentChars) := by
      rw [Numeral.chars, Numeral.fractionChars, if_pos hfraction]
      exact takeDigits_append n.whole_digits hstop
    simp only [isDecimalForm, n.takeSign_chars, htake]
    split
    · next t heq =>
      rw [heq] at hend
      exact absurd hend (by simp [isExponentOrEnd, lowerAscii])
    · rw [hwhole, hend]
      rfl
  · have htake : takeDigits n.chars = (n.whole, '.' :: (n.fraction ++ n.exponentChars)) := by
      rw [Numeral.chars, Numeral.fractionChars, if_neg hfraction]
      exact takeDigits_append n.whole_digits (by simp)
    simp only [isDecimalForm, n.takeSign_chars, htake, takeDigits_append n.fraction_digits hstop,
      hwhole, hend]
    rfl

/-! ## Reading -/

/-- A numeral is no word. -/
theorem ofWord?_chars : Scalar.ofWord? (String.ofList (signChars negative ++ n.chars)) = none := by
  obtain ⟨c, cs, hc, hchars⟩ := n.exists_chars_eq
  have hno {words : List String}
      (hwords : ∀ w ∈ words, (takeSign w.toList).2.head?.any Char.isDigit = false) :
      ¬ words.contains (String.ofList (signChars negative ++ n.chars)) = true := by
    intro hmem
    have hhead := hwords _ (List.contains_iff_mem.1 hmem)
    rw [String.toList_ofList, n.takeSign_chars, hchars, List.head?_cons, Option.any_some,
      hc] at hhead
    exact Bool.noConfusion hhead
  rw [Scalar.ofWord?, if_neg, if_neg, if_neg, if_neg, if_neg, if_neg]
  all_goals exact hno (by decide)

theorem ofPlain_chars : Scalar.ofPlain false (String.ofList (signChars negative ++ n.chars)) =
    (Scalar.number? (String.ofList (signChars negative ++ n.chars))).getD
      (.text (String.ofList (signChars negative ++ n.chars))) := by
  obtain ⟨c, cs, hc, hchars⟩ := n.exists_chars_eq
  rw [Scalar.ofPlain, ofWord?_chars]
  simp only [String.toList_ofList]
  cases negative with
  | true => rfl
  | false =>
    have hpoint : (c == '.') = false := beq_eq_false_iff_ne.2 (ne_of_isDigit hc rfl)
    have hlist : signChars false ++ n.chars = c :: cs := hchars
    simp only [hlist, hpoint, hc]
    rfl

variable {negative} {m : Nat} {e : Int} (hfinite : IsFinite (.finite negative m e)) (hm : 0 < m)
  (h : NearTo m e n.value)
include hfinite hm h

/-- Digits alone stand for the number that they are near to. -/
theorem ofInt_signedValue (hbare : n.IsBare) :
    Binary64.ofInt (signedValue negative n.whole) = .finite negative m e := by
  have hvalue : n.value = Nat.ofDigitChars 10 n.whole 0 := by
    simp [Numeral.value, hbare.1, hbare.2]
  rw [hvalue] at h
  have hpos : 0 < Nat.ofDigitChars 10 n.whole 0 := by exact_mod_cast h.pos hm
  have hsign : decide (signedValue negative n.whole < 0) = negative := by
    rw [signedValue]
    cases negative with
    | true => simpa using hpos
    | false => simp
  have habs : (signedValue negative n.whole).natAbs = Nat.ofDigitChars 10 n.whole 0 := by
    rw [signedValue]
    split <;> omega
  rw [Binary64.ofInt, hsign, habs]
  exact Binary64.ofRatio_of_nearTo negative hfinite hm one_pos (by simpa using h)

/-- A numeral is read as the number that its value is near to. -/
theorem ofKind?_chars (hbare : n.IsBare → n.whole.head? ≠ some '0' ∧ n.whole.length ≤ 6) :
    Scalar.ofKind? .float (String.ofList (signChars negative ++ n.chars)) =
      some (.float (.finite negative m e)) := by
  have hfilter : (String.ofList (signChars negative ++ n.chars)).toList.filter (· != '_') =
      signChars negative ++ n.chars := by
    rw [String.toList_ofList, List.filter_eq_self]
    exact fun c hc => bne_iff_ne.2 (n.isNumeralChar_of_mem_signed negative c hc).ne_underscore
  have hplain := ofPlain_chars n negative
  rw [Scalar.number?, hfilter] at hplain
  have hfloat : (Tag.float == Tag.timestamp) = false := by decide
  by_cases hn : n.IsBare
  · obtain ⟨hhead, hlength⟩ := hbare hn
    rw [integer?_eq_some n negative hn hhead hlength] at hplain
    have hint : ((Scalar.int (signedValue negative n.whole)).tag == Tag.float) = false := rfl
    simp only [Scalar.ofKind?, hfloat, hplain, Option.getD_some, hint, if_neg Bool.false_ne_true,
      inSigned64_signedValue n negative hlength, if_true, ofInt_signedValue n hfinite hm h hn]
  · rw [integer?_eq_none n negative hn, isDecimalForm_chars n negative, if_pos rfl,
      n.read?_chars hfinite hm h] at hplain
    simp only [Scalar.ofKind?, hfloat, hplain, Option.getD_some]
    rfl

end Numerals

/-- The text of a number is read back under the tag of numbers. -/
theorem ofKind?_text {x : Binary64} (h : x.IsFinite) :
    Scalar.ofKind? .float x.text = some (.float x.reread) := by
  cases x with
  | nan => cases h
  | infinite => cases h
  | finite negative m e =>
    rcases Nat.eq_zero_or_pos m with rfl | hm
    · have hzero :
          ∀ b : Bool, Scalar.ofKind? .float ((if b then "-" else "") ++ "0") =
            some (.float (.zero false)) := by
        decide +kernel
      exact hzero negative
    · obtain ⟨n, htext, hnear, hbare⟩ := Binary64.text_numeral h hm
      rw [htext, ofKind?_chars n h hm hnear hbare, Binary64.reread, if_neg hm.ne']

end StructuralTyping.Yaml
