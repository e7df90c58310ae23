import StructuralTyping.Number.Reading
import StructuralTyping.Number.Shortest
import StructuralTyping.Proofs.Number.Shortest

/-!
# Numerals

A `Numeral` is a decimal number as it is written: digits, perhaps a point with
more digits, and perhaps an exponent.  A decimal is laid out as a numeral of the
same value (`Decimal.exists_numeral`), and a numeral is read as the number that
its value is near to (`Numeral.read?_chars`).
-/

namespace StructuralTyping

open Binary64 (IsFinite NearTo)

/-! ## Digits -/

section Digits

variable {c : Char} {cs ds : List Char}

theorem ne_of_isDigit {d : Char} (h : c.isDigit = true) (hd : d.isDigit = false) : c ≠ d := by
  rintro rfl
  rw [hd] at h
  cases h

theorem digit_lt (h : c.isDigit = true) : c.toNat - '0'.toNat < 10 := by
  have hhigh : c.toNat ≤ 57 := (Char.isDigit_iff_toNat.1 h).2
  have hzero : '0'.toNat = 48 := rfl
  omega

theorem lowerAscii_of_isDigit (h : c.isDigit = true) : lowerAscii c = c := by
  have hhigh : c.toNat ≤ 57 := (Char.isDigit_iff_toNat.1 h).2
  refine dif_neg ?_
  rintro ⟨hlow, -⟩
  have hlow : 65 ≤ c.toNat := hlow
  omega

/-- The characters of numerals. -/
def IsNumeralChar (c : Char) : Prop := c.isDigit = true ∨ c ∈ ['.', 'e', '+', '-']

theorem IsNumeralChar.ne_underscore (h : IsNumeralChar c) : c ≠ '_' := by
  rcases h with h | h
  · exact ne_of_isDigit h rfl
  · rintro rfl
    simp at h

theorem IsNumeralChar.lower_ne_x (h : IsNumeralChar c) : lowerAscii c ≠ 'x' := by
  rcases h with h | h
  · rw [lowerAscii_of_isDigit h]
    exact ne_of_isDigit h rfl
  · simp only [List.mem_cons, List.not_mem_nil, or_false] at h
    rcases h with rfl | rfl | rfl | rfl <;> decide

theorem digitValue?_of_isDigit (base : Nat) (h : c.isDigit = true) :
    digitValue? base c = some (c.toNat - '0'.toNat) := by
  rw [digitValue?, if_pos h]

end Digits

/-! ## Reading digits -/

namespace Mantissa

variable {M : Mantissa} {ds rest : List Char}

/-- The mantissa with more digits. -/
def pushAll (M : Mantissa) (ds : List Char) : Mantissa :=
  ds.foldl (fun M c => M.push 10 (c.toNat - '0'.toNat)) M

theorem scan_digits (hds : ∀ c ∈ ds, c.isDigit = true) :
    scan 10 M (ds ++ rest) = scan 10 (M.pushAll ds) rest := by
  induction ds generalizing M with
  | nil => rfl
  | cons c ds ih =>
    have hc := hds c (.head _)
    have hunder : c ≠ '_' := ne_of_isDigit hc rfl
    have hpoint : c ≠ '.' := ne_of_isDigit hc rfl
    rw [List.cons_append, scan, if_neg (by simpa using hunder), if_neg (by simpa using hpoint),
      digitValue?_of_isDigit 10 hc]
    exact ih fun c hc => hds c (.tail _ hc)

theorem value_pushAll (M : Mantissa) (ds : List Char) :
    (M.pushAll ds).value = Nat.ofDigitChars 10 ds M.value := by
  induction ds generalizing M with
  | nil => rfl
  | cons c ds ih =>
    rw [Nat.ofDigitChars_cons, Nat.mul_comm]
    exact ih _

theorem pointed_pushAll (M : Mantissa) (ds : List Char) : (M.pushAll ds).pointed = M.pointed := by
  induction ds generalizing M with
  | nil => rfl
  | cons c ds ih => exact ih _

theorem fraction_pushAll (M : Mantissa) (ds : List Char) :
    (M.pushAll ds).fraction = if M.pointed then M.fraction + ds.length else M.fraction := by
  induction ds generalizing M with
  | nil => simp [pushAll]
  | cons c ds ih =>
    refine (ih _).trans ?_
    cases hpointed : M.pointed <;> simp [push, hpointed]
    omega

theorem any_pushAll (M : Mantissa) (hds : ds ≠ []) : (M.pushAll ds).any = true := by
  induction ds generalizing M with
  | nil => exact absurd rfl hds
  | cons c ds ih =>
    cases ds with
    | nil => rfl
    | cons d ds => exact ih _ (List.cons_ne_nil _ _)

/-- The count of the digits agrees with their value. -/
structure Counted (M : Mantissa) : Prop where
  lt_pow : M.value < 10 ^ M.significant
  pow_le : M.significant ≠ 0 → 10 ^ M.significant ≤ 10 * M.value

theorem Counted.push (h : M.Counted) {d : Nat} (hd : d < 10) : (M.push 10 d).Counted := by
  obtain ⟨hlt, hle⟩ := h
  by_cases hzero : M.significant = 0 ∧ d = 0
  · obtain ⟨hsig, rfl⟩ := hzero
    rw [hsig] at hlt
    constructor <;> simp [Mantissa.push, hsig]
    omega
  · have hsig : (M.push 10 d).significant = M.significant + 1 := by
      simpa [Mantissa.push] using fun h h' => absurd ⟨h, h'⟩ hzero
    have hvalue : (M.push 10 d).value = M.value * 10 + d := rfl
    constructor
    · rw [hsig, hvalue, Nat.pow_succ]
      omega
    · intro _
      rw [hsig, hvalue, Nat.pow_succ]
      by_cases hnone : M.significant = 0
      · rw [hnone]
        omega
      · have := hle hnone
        omega

theorem Counted.pushAll (h : M.Counted) (hds : ∀ c ∈ ds, c.isDigit = true) :
    (M.pushAll ds).Counted := by
  induction ds generalizing M with
  | nil => exact h
  | cons c ds ih =>
    exact ih (h.push (digit_lt (hds c (.head _)))) fun c hc => hds c (.tail _ hc)

/-- What the digits stand for with an exponent. -/
def scaled (M : Mantissa) (exponent : Int) : ℚ := M.value * 10 ^ (exponent - M.fraction)

/-- The place of the point is the decimal exponent of the value. -/
theorem Counted.bounds (h : M.Counted) (hpos : 0 < M.value) (exponent : Int) :
    M.scaled exponent < 10 ^ (M.significant - M.fraction + exponent) ∧
      (10 : ℚ) ^ (M.significant - M.fraction + exponent) ≤ 10 * M.scaled exponent := by
  have hsplit : (10 : ℚ) ^ ((M.significant : ℤ) - M.fraction + exponent) =
      10 ^ M.significant * 10 ^ (exponent - M.fraction) := by
    rw [← zpow_natCast, ← zpow_add₀ (by norm_num)]
    congr 1
    ring
  have hlt : (M.value : ℚ) < 10 ^ M.significant := by exact_mod_cast h.lt_pow
  have hle : (10 : ℚ) ^ M.significant ≤ 10 * M.value := by
    have hsig : M.significant ≠ 0 := by
      intro hzero
      have hlt := h.lt_pow
      rw [hzero] at hlt
      omega
    exact_mod_cast h.pow_le hsig
  rw [hsplit, scaled, ← mul_assoc]
  constructor <;> gcongr

/-- Digits are read as the number that their value is near to. -/
theorem decimalValue_of_nearTo {negative : Bool} {m : Nat} {e exponent : Int} (hM : M.Counted)
    (hfinite : IsFinite (.finite negative m e)) (hm : 0 < m) (h : NearTo m e (M.scaled exponent)) :
    decimalValue negative M exponent = .finite negative m e := by
  obtain ⟨hlow, hhigh⟩ := Shortest.bounds_of_nearTo hfinite hm h
  have hvalue : 0 < M.value := by
    have hpos := h.pos hm
    rcases Nat.eq_zero_or_pos M.value with hzero | hvalue
    · simp [scaled, hzero] at hpos
    · exact hvalue
  obtain ⟨hbelow, habove⟩ := hM.bounds hvalue exponent
  have hpoint : (M.significant : ℤ) - M.fraction + exponent < 311 := by
    rw [← zpow_lt_zpow_iff_right₀ (show (1 : ℚ) < 10 by norm_num)]
    calc _ ≤ 10 * M.scaled exponent := habove
      _ < 10 * 10 ^ (310 : ℤ) := by gcongr
      _ = 10 ^ (311 : ℤ) := (zpow_one_add₀ (by norm_num) 310).symm
  have hpoint' : -330 < (M.significant : ℤ) - M.fraction + exponent := by
    rw [← zpow_lt_zpow_iff_right₀ (show (1 : ℚ) < 10 by norm_num)]
    exact lt_of_le_of_lt hlow hbelow
  have hnotHuge : ¬ 310 < (M.significant : ℤ) - M.fraction + exponent := by omega
  have hnotTiny : ¬ (M.significant : ℤ) - M.fraction + exponent < -330 := by omega
  simp only [decimalValue, beq_iff_eq, if_neg hvalue.ne', if_neg hnotHuge, if_neg hnotTiny,
    Nat.pow_eq]
  split
  · next hshift =>
    refine Binary64.ofRatio_of_nearTo negative hfinite hm one_pos ?_
    convert h using 1
    rw [scaled, Nat.cast_one, div_one, Nat.cast_mul, Nat.cast_pow, Nat.cast_ofNat, ← zpow_natCast,
      Int.toNat_of_nonneg hshift]
  · next hshift =>
    refine Binary64.ofRatio_of_nearTo negative hfinite hm (by positivity) ?_
    convert h using 1
    rw [scaled, Nat.cast_pow, Nat.cast_ofNat, ← zpow_natCast, Int.toNat_of_nonneg (by omega),
      zpow_neg, div_inv_eq_mul]

end Mantissa

/-! ## Reading exponents -/

section Exponent

theorem scanExponent_digits : ∀ {ds : List Char} {e : Nat}, (∀ c ∈ ds, c.isDigit = true) →
    Nat.ofDigitChars 10 ds e < 100000 → scanExponent e ds = (Nat.ofDigitChars 10 ds e, [])
  | [], _, _, _ => rfl
  | c :: ds, e, hds, hbound => by
      have hc := hds c (.head _)
      have hunder : c ≠ '_' := ne_of_isDigit hc rfl
      rw [Nat.ofDigitChars_cons] at hbound ⊢
      have hsmall : e < 10000 := by
        rw [Nat.ofDigitChars_eq_ofDigitChars_zero] at hbound
        have hpow : 1 ≤ 10 ^ ds.length := Nat.one_le_pow _ _ (by decide)
        nlinarith
      rw [scanExponent, if_neg (by simpa using hunder), digitValue?_of_isDigit 10 hc]
      simp only [if_pos hsmall, Nat.mul_comm e]
      exact scanExponent_digits (fun c hc => hds c (.tail _ hc)) hbound

/-- The digits of an exponent, padded. -/
theorem exponentText_toList (e : Int) : ∃ ds : List Char, ds ≠ [] ∧ (∀ c ∈ ds, c.isDigit = true) ∧
    Nat.ofDigitChars 10 ds 0 = e.natAbs ∧
      (exponentText e).toList = (if e < 0 then '-' else '+') :: ds := by
  have hdigits : ∀ c ∈ natDigits e.natAbs, c.isDigit = true :=
    fun c hc => Nat.isDigit_of_mem_toDigits (by decide) (by decide) hc
  have hvalue : Nat.ofDigitChars 10 (natDigits e.natAbs) 0 = e.natAbs :=
    Nat.ofDigitChars_ten_toDigits
  refine ⟨if (natDigits e.natAbs).length < 2 then '0' :: natDigits e.natAbs else natDigits e.natAbs,
    ?_, ?_, ?_, ?_⟩
  · split
    · exact List.cons_ne_nil _ _
    · exact Nat.toDigits_ne_nil
  · split
    · exact List.forall_mem_cons.2 ⟨rfl, hdigits⟩
    · exact hdigits
  · split
    · rw [Nat.ofDigitChars_cons]
      exact hvalue
    · exact hvalue
  · simp only [exponentText, String.toList_append, String.toList_ofList]
    split <;> rfl

theorem readExponent?_text {e : Int} (h : e.natAbs < 100000) :
    readExponent? 'e' ('e' :: (exponentText e).toList) = some (some e, []) := by
  obtain ⟨ds, hne, hds, hvalue, htext⟩ := exponentText_toList e
  obtain ⟨d, ds, rfl⟩ := List.exists_cons_of_ne_nil hne
  have hscan := scanExponent_digits hds (by rwa [hvalue])
  rw [hvalue] at hscan
  rw [htext]
  have hsign : takeSign ((if e < 0 then '-' else '+') :: d :: ds) = (decide (e < 0), d :: ds) := by
    by_cases he : e < 0 <;> simp [he, takeSign]
  have hmark : (lowerAscii 'e' == 'e') = true := by decide
  have hvalue' : (if decide (e < 0) then -(e.natAbs : Int) else e.natAbs) = e := by
    by_cases he : e < 0
    · rw [if_pos (decide_eq_true he)]
      omega
    · rw [if_neg (by simpa using he)]
      omega
  simp only [readExponent?, hmark, if_true, hsign, hds d (.head _), hscan, hvalue']

end Exponent

/-! ## Reading numerals -/

/-- A decimal number as it is written. -/
structure Numeral where
  whole : List Char
  fraction : List Char
  exponent? : Option Int
  whole_ne_nil : whole ≠ []
  whole_digits : ∀ c ∈ whole, c.isDigit = true
  fraction_digits : ∀ c ∈ fraction, c.isDigit = true
  exponent_lt : ∀ e ∈ exponent?, e.natAbs < 100000

/-- The sign in front of a numeral. -/
def signChars (negative : Bool) : List Char := if negative then ['-'] else []

namespace Numeral

/-- The point and the digits after it. -/
def fractionChars (n : Numeral) : List Char := if n.fraction.isEmpty then [] else '.' :: n.fraction

/-- The exponent with its mark. -/
def exponentChars (n : Numeral) : List Char :=
  match n.exponent? with
  | none => []
  | some e => 'e' :: (exponentText e).toList

/-- The numeral without a sign. -/
def chars (n : Numeral) : List Char := n.whole ++ (n.fractionChars ++ n.exponentChars)

/-- There are digits only. -/
def IsBare (n : Numeral) : Prop := n.fraction = [] ∧ n.exponent? = none

/-- What the numeral stands for. -/
def value (n : Numeral) : ℚ :=
  Nat.ofDigitChars 10 (n.whole ++ n.fraction) 0 * 10 ^ (n.exponent?.getD 0 - n.fraction.length)

/-- The digits of the numeral as they are read. -/
def mantissa (n : Numeral) : Mantissa :=
  let M := Mantissa.pushAll {} n.whole
  if n.fraction.isEmpty then M else Mantissa.pushAll { M with pointed := true } n.fraction

variable (n : Numeral) (negative : Bool)

theorem exists_chars_eq : ∃ c cs, c.isDigit = true ∧ n.chars = c :: cs := by
  obtain ⟨c, cs, hwhole⟩ := List.exists_cons_of_ne_nil n.whole_ne_nil
  refine ⟨c, cs ++ (n.fractionChars ++ n.exponentChars), n.whole_digits c ?_, ?_⟩
  · rw [hwhole]
    exact .head _
  · rw [chars, hwhole, List.cons_append]

theorem isNumeralChar_of_mem : ∀ c ∈ n.chars, IsNumeralChar c := by
  intro c hc
  rw [chars, fractionChars, exponentChars, List.mem_append, List.mem_append] at hc
  rcases hc with hc | hc | hc
  · exact .inl (n.whole_digits c hc)
  · split at hc
    · cases hc
    · rcases List.mem_cons.1 hc with rfl | hc
      · exact .inr (by simp)
      · exact .inl (n.fraction_digits c hc)
  · split at hc
    · cases hc
    · next e _ =>
      obtain ⟨ds, -, hds, -, htext⟩ := exponentText_toList e
      rw [htext, List.mem_cons, List.mem_cons] at hc
      rcases hc with rfl | rfl | hc
      · exact .inr (by simp)
      · exact .inr (by split <;> simp)
      · exact .inl (hds c hc)

theorem isNumeralChar_of_mem_signed : ∀ c ∈ signChars negative ++ n.chars, IsNumeralChar c := by
  intro c hc
  rcases List.mem_append.1 hc with hc | hc
  · cases negative with
    | false => cases hc
    | true => exact .inr (by simpa [signChars] using .inr (.inr (.inr (List.mem_singleton.1 hc))))
  · exact n.isNumeralChar_of_mem c hc

theorem takeSign_chars : takeSign (signChars negative ++ n.chars) = (negative, n.chars) := by
  obtain ⟨c, cs, hc, hchars⟩ := n.exists_chars_eq
  cases negative with
  | true => rfl
  | false =>
    have hminus : c ≠ '-' := ne_of_isDigit hc rfl
    have hplus : c ≠ '+' := ne_of_isDigit hc rfl
    simp [signChars, hchars, takeSign, hminus, hplus]

theorem takeHexMark_chars : takeHexMark n.chars = (false, n.chars) := by
  rw [takeHexMark.eq_def]
  split
  · next x d rest heq =>
    have hx := (n.isNumeralChar_of_mem x (by simp [heq])).lower_ne_x
    rw [if_neg (by simpa using hx), heq]
  · rfl

/-- A numeral is no name. -/
theorem readNamed?_chars : readNamed? (signChars negative ++ n.chars) = none := by
  obtain ⟨c, cs, hc, hchars⟩ := n.exists_chars_eq
  have hbody : n.chars.map lowerAscii = c :: cs.map lowerAscii := by
    rw [hchars, List.map_cons, lowerAscii_of_isDigit hc]
  have hinf : c ≠ 'i' := ne_of_isDigit hc rfl
  have hnan : c ≠ 'n' := ne_of_isDigit hc rfl
  have hne {d : Char} {s : String} {ds : List Char} (hs : d ≠ s.toList.head?.getD d) :
      String.ofList (d :: ds) ≠ s := by
    rintro rfl
    simp at hs
  simp only [readNamed?, n.takeSign_chars, hbody]
  rw [if_neg, if_neg]
  · rw [beq_iff_eq, List.map_append, hbody]
    cases negative with
    | true => exact hne (show '-' ≠ 'n' by decide)
    | false => exact hne hnan
  · rw [Bool.or_eq_true, beq_iff_eq, beq_iff_eq]
    rintro (h | h)
    · exact hne hinf h
    · exact hne hinf h

/-- Reading the digits leaves the exponent. -/
theorem scan_chars : Mantissa.scan 10 {} n.chars = (n.mantissa, n.exponentChars) := by
  have hstop (M : Mantissa) : Mantissa.scan 10 M n.exponentChars = (M, n.exponentChars) := by
    rw [exponentChars]
    split
    · rfl
    · rw [Mantissa.scan, if_neg (by decide), if_neg (by decide)]
      rfl
  rw [chars, Mantissa.scan_digits n.whole_digits, mantissa, fractionChars]
  split
  · exact hstop _
  · have hpointed : (Mantissa.pushAll {} n.whole).pointed = false := Mantissa.pointed_pushAll _ _
    rw [List.cons_append, Mantissa.scan, if_neg (by decide), if_pos (by decide), hpointed,
      if_neg Bool.false_ne_true, Mantissa.scan_digits n.fraction_digits]
    exact hstop _

theorem mantissa_counted : n.mantissa.Counted := by
  have hempty : Mantissa.Counted {} := ⟨by decide, fun h => absurd rfl h⟩
  have hwhole := hempty.pushAll n.whole_digits
  rw [mantissa]
  split
  · exact hwhole
  · exact Mantissa.Counted.pushAll ⟨hwhole.lt_pow, hwhole.pow_le⟩ n.fraction_digits

theorem mantissa_any : n.mantissa.any = true := by
  rw [mantissa]
  split
  · exact Mantissa.any_pushAll _ n.whole_ne_nil
  · next h => exact Mantissa.any_pushAll _ (by simpa using h)

theorem mantissa_scaled : n.mantissa.scaled (n.exponent?.getD 0) = n.value := by
  have hvalue : n.mantissa.value = Nat.ofDigitChars 10 (n.whole ++ n.fraction) 0 := by
    rw [mantissa, Nat.ofDigitChars_append]
    split
    · next h => simp [Mantissa.value_pushAll, List.isEmpty_iff.1 h]
    · simp [Mantissa.value_pushAll]
  have hfraction : n.mantissa.fraction = n.fraction.length := by
    rw [mantissa]
    split
    · next h => simp [Mantissa.fraction_pushAll, List.isEmpty_iff.1 h]
    · simp [Mantissa.fraction_pushAll]
  rw [Mantissa.scaled, value, hvalue, hfraction]

variable {negative} {m : Nat} {e : Int} (hfinite : IsFinite (.finite negative m e)) (hm : 0 < m)
  (h : NearTo m e n.value)
include hfinite hm h

/-- A numeral is read as the number that its value is near to. -/
theorem readNumeral?_chars :
    readNumeral? (signChars negative ++ n.chars) = some (.finite negative m e) := by
  have hunder : (signChars negative ++ n.chars).contains '_' = false := by
    rw [← Bool.not_eq_true, List.contains_iff_mem]
    exact fun hmem => (n.isNumeralChar_of_mem_signed negative _ hmem).ne_underscore rfl
  have hvalue : decimalValue negative n.mantissa (n.exponent?.getD 0) = .finite negative m e :=
    Mantissa.decimalValue_of_nearTo n.mantissa_counted hfinite hm (n.mantissa_scaled.symm ▸ h)
  simp only [readNumeral?, hunder, Bool.false_and, if_neg Bool.false_ne_true, n.takeSign_chars,
    n.takeHexMark_chars, n.scan_chars, n.mantissa_any, Bool.not_true]
  rw [exponentChars]
  cases hexponent : n.exponent? with
  | none =>
    rw [hexponent] at hvalue
    simp only [readExponent?, Option.getD_none] at hvalue ⊢
    rw [hvalue]
    rfl
  | some e' =>
    rw [hexponent] at hvalue
    simp only [readExponent?_text (n.exponent_lt e' hexponent), Option.getD_some] at hvalue ⊢
    rw [hvalue]
    rfl

theorem read?_chars :
    Binary64.read? (String.ofList (signChars negative ++ n.chars)) =
      some (.finite negative m e) := by
  rw [Binary64.read?, String.toList_ofList, n.readNamed?_chars, n.readNumeral?_chars hfinite hm h]
  rfl

end Numeral

/-! ## Layout -/

section Layout

/-- Digits that can be laid out.  The first one is not zero. -/
structure Significant (ds : List Char) : Prop where
  ne_nil : ds ≠ []
  isDigit : ∀ c ∈ ds, c.isDigit = true
  head : ds.head? ≠ some '0'

theorem isDigit_of_mem_zeros {k : Nat} {c : Char} (hc : c ∈ List.replicate k '0') :
    c.isDigit = true := by
  rw [(List.mem_replicate.1 hc).2]
  rfl

namespace Numeral

variable {ds : List Char} (h : Significant ds)

/-- One digit in front of the point, and an exponent. -/
def scientific (lead : Int) (hlead : lead.natAbs < 100000) : Numeral where
  whole := ds.take 1
  fraction := ds.drop 1
  exponent? := some lead
  whole_ne_nil := by simpa using h.ne_nil
  whole_digits := fun c hc => h.isDigit c (List.mem_of_mem_take hc)
  fraction_digits := fun c hc => h.isDigit c (List.mem_of_mem_drop hc)
  exponent_lt := by simpa using hlead

/-- All digits behind the point, after some zeros. -/
def small (zeros : Nat) : Numeral where
  whole := ['0']
  fraction := List.replicate zeros '0' ++ ds
  exponent? := none
  whole_ne_nil := by simp
  whole_digits := by simp
  fraction_digits := fun c hc => (List.mem_append.1 hc).elim isDigit_of_mem_zeros (h.isDigit c)
  exponent_lt := by simp

/-- All digits in front of the point, before some zeros. -/
def large (zeros : Nat) : Numeral where
  whole := ds ++ List.replicate zeros '0'
  fraction := []
  exponent? := none
  whole_ne_nil := by simp [h.ne_nil]
  whole_digits := fun c hc => (List.mem_append.1 hc).elim (h.isDigit c) isDigit_of_mem_zeros
  fraction_digits := by simp
  exponent_lt := by simp

/-- Digits on both sides of the point. -/
def mixed (k : Nat) : Numeral where
  whole := ds.take (k + 1)
  fraction := ds.drop (k + 1)
  exponent? := none
  whole_ne_nil := by simpa using h.ne_nil
  whole_digits := fun c hc => h.isDigit c (List.mem_of_mem_take hc)
  fraction_digits := fun c hc => h.isDigit c (List.mem_of_mem_drop hc)
  exponent_lt := by simp

theorem value_scientific {lead : Int} (hlead : lead.natAbs < 100000) :
    (scientific h lead hlead).value = Nat.ofDigitChars 10 ds 0 * 10 ^ (lead + 1 - ds.length) := by
  have hlength := List.length_pos_iff.2 h.ne_nil
  simp only [value, scientific, List.take_append_drop, List.length_drop, Option.getD_some]
  congr 2
  omega

theorem value_small {lead : Int} (hlead : lead < 0) :
    (small h (-lead - 1).toNat).value = Nat.ofDigitChars 10 ds 0 * 10 ^ (lead + 1 - ds.length) := by
  have hdigits (k : Nat) :
      Nat.ofDigitChars 10 (['0'] ++ (List.replicate k '0' ++ ds)) 0 = Nat.ofDigitChars 10 ds 0 := by
    simp [Nat.ofDigitChars_append, Nat.ofDigitChars_cons]
  simp only [value, small, hdigits, List.length_append, List.length_replicate, Option.getD_none]
  congr 2
  omega

theorem value_large {lead : Int} (hlead : 0 ≤ lead) (hlong : ds.length ≤ lead.toNat + 1) :
    (large h (lead.toNat + 1 - ds.length)).value =
      Nat.ofDigitChars 10 ds 0 * 10 ^ (lead + 1 - ds.length) := by
  have hdigits (k : Nat) :
      Nat.ofDigitChars 10 (ds ++ List.replicate k '0') 0 = Nat.ofDigitChars 10 ds 0 * 10 ^ k := by
    rw [Nat.ofDigitChars_append, Nat.ofDigitChars_replicate_zero, Nat.mul_comm]
  simp only [value, large, List.append_nil, hdigits, Nat.cast_mul, Nat.cast_pow, Nat.cast_ofNat,
    ← zpow_natCast, List.length_nil, Option.getD_none, Nat.cast_zero, sub_zero, zpow_zero, mul_one]
  congr 2
  omega

theorem value_mixed {lead : Int} (hlead : 0 ≤ lead) (hlong : lead.toNat + 1 < ds.length) :
    (mixed h lead.toNat).value = Nat.ofDigitChars 10 ds 0 * 10 ^ (lead + 1 - ds.length) := by
  simp only [value, mixed, List.take_append_drop, List.length_drop, Option.getD_none]
  congr 2
  omega

end Numeral

/-- Digits are laid out as a numeral.  It has no zero in front and few digits, unless
a point or an exponent follows. -/
theorem layOut_numeral {ds : List Char} (h : Significant ds) (lead : Int)
    (hlead : lead.natAbs < 100000) : ∃ n : Numeral, (layOut ds lead).toList = n.chars ∧
      n.value = Nat.ofDigitChars 10 ds 0 * 10 ^ (lead + 1 - ds.length) ∧
      (n.IsBare → n.whole.head? ≠ some '0' ∧ n.whole.length ≤ 6) := by
  simp only [layOut, Bool.or_eq_true, decide_eq_true_eq]
  split
  · refine ⟨.scientific h lead hlead, ?_, Numeral.value_scientific h hlead,
      fun hbare => nomatch hbare.2⟩
    simp [Numeral.scientific, Numeral.chars, Numeral.fractionChars, Numeral.exponentChars]
  split
  · next hsmall =>
    refine ⟨.small h _, ?_, Numeral.value_small h hsmall, fun hbare => absurd hbare.1 ?_⟩
    · simp [Numeral.small, Numeral.chars, Numeral.fractionChars, Numeral.exponentChars, h.ne_nil]
    · simp [Numeral.small, h.ne_nil]
  split
  · next hlong =>
    refine ⟨.large h _, ?_, Numeral.value_large h (by omega) hlong, fun _ => ⟨?_, ?_⟩⟩
    · simp [Numeral.large, Numeral.chars, Numeral.fractionChars, Numeral.exponentChars]
    · simpa [Numeral.large, List.head?_append, Option.or_of_isSome, List.isSome_head?,
        h.ne_nil] using h.head
    · simp only [Numeral.large, List.length_append, List.length_replicate]
      omega
  · next hlong =>
    have hrest : ds.drop (lead.toNat + 1) ≠ [] := by simpa using hlong
    refine ⟨.mixed h _, ?_, Numeral.value_mixed h (by omega) (by omega),
      fun hbare => absurd hbare.1 hrest⟩
    simp [Numeral.mixed, Numeral.chars, Numeral.fractionChars, Numeral.exponentChars, hrest]

theorem head?_natDigits {k : Nat} (hk : 0 < k) : (natDigits k).head? ≠ some '0' := by
  induction k using Nat.strong_induction_on with
  | _ k ih =>
    rw [natDigits]
    by_cases hsmall : k < 10
    · rw [Nat.toDigits_of_lt_base hsmall]
      simpa using hk.ne'
    · rw [Nat.toDigits_of_base_le (by decide) (by omega), List.head?_append,
        Option.or_of_isSome (by simp)]
      exact ih (k / 10) (by omega) (by omega)

/-- Trimming drops zeros only. -/
theorem trimZeros_append (cs : List Char) : ∃ z, cs = trimZeros cs ++ List.replicate z '0' := by
  refine ⟨(cs.reverse.takeWhile (· == '0')).length, ?_⟩
  have hzeros :
      cs.reverse.takeWhile (· == '0') =
        List.replicate (cs.reverse.takeWhile (· == '0')).length '0' :=
    List.eq_replicate_of_mem fun c hc => beq_iff_eq.1 (List.all_eq_true.1 List.all_takeWhile c hc)
  have hsplit :=
    congrArg List.reverse (List.takeWhile_append_dropWhile (p := (· == '0')) (l := cs.reverse))
  rw [List.reverse_append, List.reverse_reverse, hzeros, List.reverse_replicate] at hsplit
  exact hsplit.symm

/-- The number of the digits agrees with the value. -/
theorem natDigits_bounds {k : Nat} (hk : 0 < k) :
    10 ^ ((natDigits k).length - 1) ≤ k ∧ k < 10 ^ (natDigits k).length := by
  have hlength : 0 < (natDigits k).length := Nat.length_toDigits_pos
  refine ⟨?_, (Nat.length_toDigits_le_iff (by decide) hlength).1 le_rfl⟩
  by_cases hone : (natDigits k).length = 1
  · rw [hone]
    exact hk
  · have hlong : ¬ (natDigits k).length ≤ (natDigits k).length - 1 := by omega
    exact not_lt.1 (mt (Nat.length_toDigits_le_iff (by decide) (by omega)).2 hlong)

namespace Decimal

variable {d : Decimal} (hd : 0 < d.digits)
  (hlow : (10 : ℚ) ^ (-330 : ℤ) ≤ d.digits * 10 ^ d.exponent)
  (hhigh : (d.digits : ℚ) * 10 ^ d.exponent < 10 ^ (310 : ℤ))
include hd hlow hhigh

/-- The exponent of the first digit is small. -/
theorem natAbs_lead_lt : (d.exponent + (natDigits d.digits).length - 1).natAbs < 100000 := by
  have hten : (1 : ℚ) < 10 := by norm_num
  have hlength : 0 < (natDigits d.digits).length := Nat.length_toDigits_pos
  obtain ⟨hge, hlt⟩ := natDigits_bounds hd
  have hge : (10 : ℚ) ^ ((natDigits d.digits).length - 1) ≤ d.digits := by exact_mod_cast hge
  have hlt : (d.digits : ℚ) < 10 ^ (natDigits d.digits).length := by exact_mod_cast hlt
  have hbelow : ((natDigits d.digits).length - 1 : Nat) + d.exponent < 310 := by
    rw [← zpow_lt_zpow_iff_right₀ hten]
    refine lt_of_le_of_lt ?_ hhigh
    rw [zpow_add₀ (by norm_num), zpow_natCast]
    gcongr
  have habove : -330 < (natDigits d.digits).length + d.exponent := by
    rw [← zpow_lt_zpow_iff_right₀ hten]
    refine lt_of_le_of_lt hlow ?_
    rw [zpow_add₀ (by norm_num), zpow_natCast]
    gcongr
  omega

/-- A decimal is laid out as a numeral of the same value. -/
theorem exists_numeral :
    ∃ n : Numeral, d.text.toList = n.chars ∧ n.value = d.digits * 10 ^ d.exponent ∧
      (n.IsBare → n.whole.head? ≠ some '0' ∧ n.whole.length ≤ 6) := by
  have hlead := natAbs_lead_lt hd hlow hhigh
  have hvalue : Nat.ofDigitChars 10 (natDigits d.digits) 0 = d.digits :=
    Nat.ofDigitChars_ten_toDigits
  have hhead := head?_natDigits hd
  have hdigits : ∀ c ∈ natDigits d.digits, c.isDigit = true :=
    fun c hc => Nat.isDigit_of_mem_toDigits (by decide) (by decide) hc
  obtain ⟨z, hz⟩ := trimZeros_append (natDigits d.digits)
  rw [Decimal.text]
  generalize trimZeros (natDigits d.digits) = ds at hz ⊢
  rw [hz] at hlead hvalue hhead hdigits ⊢
  have hne : ds ≠ [] := by
    rintro rfl
    rw [List.nil_append, Nat.ofDigitChars_replicate_zero, Nat.mul_zero] at hvalue
    omega
  rw [List.head?_append, Option.or_of_isSome (by simpa using hne)] at hhead
  rw [Nat.ofDigitChars_append, Nat.ofDigitChars_replicate_zero, Nat.mul_comm] at hvalue
  obtain ⟨n, hchars, hn, hbare⟩ :=
    layOut_numeral ⟨hne, fun c hc => hdigits c (List.mem_append_left _ hc), hhead⟩ _ hlead
  refine ⟨n, hchars, ?_, hbare⟩
  rw [hn, ← hvalue, Nat.cast_mul, Nat.cast_pow, Nat.cast_ofNat, ← zpow_natCast, mul_assoc,
    ← zpow_add₀ (by norm_num)]
  congr 2
  rw [List.length_append, List.length_replicate]
  omega

end Decimal

end Layout

/-- The text of a finite number other than zero is a numeral whose value is near to
it. -/
theorem Binary64.text_numeral {negative : Bool} {m : Nat} {e : Int}
    (hfinite : IsFinite (.finite negative m e)) (hm : 0 < m) :
    ∃ n : Numeral, (finite negative m e).text = String.ofList (signChars negative ++ n.chars) ∧
      NearTo m e n.value ∧ (n.IsBare → n.whole.head? ≠ some '0' ∧ n.whole.length ≤ 6) := by
  obtain ⟨hdigits, hnear⟩ := Shortest.decimal_nearTo hfinite hm
  obtain ⟨hlow, hhigh⟩ := Shortest.bounds_of_nearTo hfinite hm hnear
  obtain ⟨n, hchars, hvalue, hbare⟩ := Decimal.exists_numeral hdigits hlow hhigh
  refine ⟨n, ?_, hvalue ▸ hnear, hbare⟩
  have hpos : ¬ (m == 0) = true := by simpa using hm.ne'
  rw [Binary64.text, Binary64.textWith, if_neg hpos, String.ofList_append, ← hchars,
    String.ofList_toList]
  cases negative <;> rfl

end StructuralTyping
