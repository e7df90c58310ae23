import Mathlib.Algebra.Order.Field.Power
import Mathlib.Data.Int.Log
import Mathlib.Data.Rat.Floor
import Mathlib.Tactic.FieldSimp
import Mathlib.Tactic.Linarith
import Mathlib.Tactic.Positivity
import Mathlib.Tactic.Ring
import StructuralTyping.Number.Binary64

/-!
# Rounding

`Binary64.NearTo m e v` says that the finite number with mantissa `m` and
exponent `e` is the nearest one to the value `v`, where a midpoint belongs to
the even neighbour.  A ratio whose value is near to a number is rounded to it
(`ofRatio_of_nearTo`).
-/

namespace StructuralTyping.Binary64

/-- A finite number: its mantissa has 53 bits, and none is wasted unless the number
is tiny. -/
def IsFinite : Binary64 → Prop
  | .finite _ m e =>
    m < 2 ^ 53 ∧ minExponent ≤ e ∧ e ≤ maxExponent ∧ (2 ^ 52 ≤ m ∨ e = minExponent)
  | _ => False

/-! ## Ratios -/

section Ratio

variable {base num den : Nat}

theorem scaleRatio_den_pos (hbase : 0 < base) (hden : 0 < den) (e : Int) :
    0 < (scaleRatio base num den e).2 := by
  rw [scaleRatio]
  split
  · exact Nat.mul_pos hden (Nat.pow_pos hbase)
  · exact hden

/-- The denominator does not depend on the numerator. -/
theorem scaleRatio_den (num num' : Nat) (e : Int) :
    (scaleRatio base num den e).2 = (scaleRatio base num' den e).2 := by
  rw [scaleRatio, scaleRatio]
  split <;> rfl

theorem scaleRatio_value (hbase : 0 < base) (e : Int) :
    ((scaleRatio base num den e).1 : ℚ) / (scaleRatio base num den e).2 =
      num / den / (base : ℚ) ^ e := by
  have hne : (base : ℚ) ≠ 0 := by positivity
  rw [scaleRatio]
  split
  · next he =>
    obtain ⟨n, rfl⟩ := Int.eq_ofNat_of_zero_le he
    simp only [Int.toNat_natCast, Nat.pow_eq, Nat.cast_mul, Nat.cast_pow, zpow_natCast]
    rw [div_div]
  · next he =>
    obtain ⟨n, hn⟩ := Int.eq_ofNat_of_zero_le (a := -e) (by omega)
    obtain rfl : e = -(n : Int) := by omega
    simp only [Int.neg_neg, Int.toNat_natCast, Nat.pow_eq, Nat.cast_mul, Nat.cast_pow, zpow_neg,
      zpow_natCast, div_inv_eq_mul]
    rw [mul_div_right_comm]

/-- Comparing the scaled ratio with an integer compares the ratio with a multiple of
the power. -/
theorem le_scaleRatio_iff (hbase : 0 < base) (hden : 0 < den) (k : Nat) (e : Int) :
    k * (scaleRatio base num den e).2 ≤ (scaleRatio base num den e).1 ↔
      (k : ℚ) * (base : ℚ) ^ e ≤ num / den := by
  have hbase' : (0 : ℚ) < base := by exact_mod_cast hbase
  have hden' : (0 : ℚ) < (scaleRatio base num den e).2 := by
    exact_mod_cast scaleRatio_den_pos hbase hden e
  rw [← le_div_iff₀ (zpow_pos hbase' e), ← scaleRatio_value hbase e, le_div_iff₀ hden']
  exact_mod_cast Iff.rfl

theorem scaleRatio_le_iff (hbase : 0 < base) (hden : 0 < den) (k : Nat) (e : Int) :
    (scaleRatio base num den e).1 ≤ k * (scaleRatio base num den e).2 ↔
      (num : ℚ) / den ≤ k * (base : ℚ) ^ e := by
  have hbase' : (0 : ℚ) < base := by exact_mod_cast hbase
  have hden' : (0 : ℚ) < (scaleRatio base num den e).2 := by
    exact_mod_cast scaleRatio_den_pos hbase hden e
  rw [← div_le_iff₀ (zpow_pos hbase' e), ← scaleRatio_value hbase e, div_le_iff₀ hden']
  exact_mod_cast Iff.rfl

/-- The binary exponent of a ratio. -/
theorem floorLog2_eq (hnum : 0 < num) (hden : 0 < den) :
    floorLog2 num den = Int.log 2 ((num : ℚ) / den) := by
  have hlow : (2 : ℚ) ^ num.log2 ≤ num := by exact_mod_cast Nat.log2_self_le hnum.ne'
  have hhigh : (num : ℚ) < 2 ^ (num.log2 + 1) := by exact_mod_cast Nat.lt_log2_self
  have hlow' : (2 : ℚ) ^ den.log2 ≤ den := by exact_mod_cast Nat.log2_self_le hden.ne'
  have hhigh' : (den : ℚ) < 2 ^ (den.log2 + 1) := by exact_mod_cast Nat.lt_log2_self
  have hratio : (0 : ℚ) < num / den := by positivity
  generalize hguess : (num.log2 : Int) - den.log2 = guess
  have hsplit : (2 : ℚ) ^ guess = 2 ^ num.log2 / 2 ^ den.log2 := by
    rw [← hguess, zpow_sub₀ two_ne_zero, zpow_natCast, zpow_natCast]
  -- the guess from the lengths is one too high at most
  have habove : (num : ℚ) / den < 2 ^ (guess + 1) := by
    rw [zpow_add_one₀ two_ne_zero, hsplit, div_lt_iff₀ (by positivity), div_mul_eq_mul_div,
      div_mul_eq_mul_div, lt_div_iff₀ (by positivity), ← pow_succ]
    calc (num : ℚ) * 2 ^ den.log2 ≤ num * den := by gcongr
      _ < 2 ^ (num.log2 + 1) * den := by gcongr
  have hbelow : (2 : ℚ) ^ (guess - 1) ≤ num / den := by
    rw [zpow_sub_one₀ two_ne_zero, hsplit, le_div_iff₀ (by positivity), ← div_eq_mul_inv, div_div,
      div_mul_eq_mul_div, div_le_iff₀ (by positivity), ← pow_succ]
    gcongr
  have hfits :
      (scaleRatio 2 num den guess).2 ≤ (scaleRatio 2 num den guess).1 ↔
        (2 : ℚ) ^ guess ≤ num / den := by
    simpa using le_scaleRatio_iff two_pos hden 1 guess
  have hle (e : Int) : e ≤ Int.log 2 ((num : ℚ) / den) ↔ (2 : ℚ) ^ e ≤ num / den :=
    (Int.zpow_le_iff_le_log one_lt_two hratio).symm
  have hlt (e : Int) : Int.log 2 ((num : ℚ) / den) < e ↔ (num : ℚ) / den < 2 ^ e :=
    (Int.lt_zpow_iff_log_lt one_lt_two hratio).symm
  have h1 := (hlt _).2 habove
  have h2 := (hle _).2 hbelow
  simp only [floorLog2, hguess]
  split
  · next h =>
    have h3 := (hle _).2 (hfits.1 h)
    omega
  · next h =>
    have h3 := (hlt _).2 (not_le.1 fun h' => h (hfits.2 h'))
    omega

/-- A quotient within a half of an integer is rounded to it.  At exactly a half the
integer has to be even. -/
theorem roundDiv_eq {m : Nat} (hden : 0 < den) (hlow : (m : ℚ) - 1 / 2 ≤ num / den)
    (hhigh : (num : ℚ) / den ≤ m + 1 / 2)
    (hodd : m % 2 = 1 → (m : ℚ) - 1 / 2 < num / den ∧ (num : ℚ) / den < m + 1 / 2) :
    roundDiv num den = m := by
  have hden' : (0 : ℚ) < den := by exact_mod_cast hden
  rw [le_div_iff₀ hden'] at hlow
  rw [div_le_iff₀ hden'] at hhigh
  rw [lt_div_iff₀ hden', div_lt_iff₀ hden'] at hodd
  have hlow : 2 * m * den ≤ 2 * num + den := by
    have : (2 * m * den : ℚ) ≤ 2 * num + den := by linarith
    exact_mod_cast this
  have hhigh : 2 * num ≤ 2 * m * den + den := by
    have : (2 * num : ℚ) ≤ 2 * m * den + den := by linarith
    exact_mod_cast this
  have hodd : m % 2 = 1 → 2 * m * den < 2 * num + den ∧ 2 * num < 2 * m * den + den := by
    intro hm
    obtain ⟨h1, h2⟩ := hodd hm
    have h1 : (2 * m * den : ℚ) < 2 * num + den := by linarith
    have h2 : (2 * num : ℚ) < 2 * m * den + den := by linarith
    exact ⟨by exact_mod_cast h1, by exact_mod_cast h2⟩
  have hnum := Nat.div_add_mod num den
  have hmod := Nat.mod_lt num hden
  simp only [roundDiv, Bool.or_eq_true, Bool.and_eq_true, decide_eq_true_eq, beq_iff_eq]
  generalize num / den = q at *
  generalize num % den = r at *
  subst hnum
  have hq : q ≤ m := by
    by_contra hlt
    have hmul : (m + 1) * den ≤ q * den := Nat.mul_le_mul_right _ (by omega)
    linarith
  have hq' : m ≤ q + 1 := by
    by_contra hlt
    have hmul : (q + 2) * den ≤ m * den := Nat.mul_le_mul_right _ (by omega)
    linarith
  split
  · next h =>
    by_contra hne
    obtain rfl : m = q + 1 := by omega
    have hr : den ≤ 2 * r := by linarith
    have hr' : 2 * r ≤ den := by omega
    exact absurd (hodd (by omega)).1 (by linarith)
  · next h =>
    by_contra hne
    obtain rfl : m = q := by omega
    have hr : 2 * r ≤ den := by linarith
    have hr' : den ≤ 2 * r := by omega
    exact absurd (hodd (by omega)).2 (by linarith)

end Ratio

/-! ## The nearest number -/

/-- The finite number with this mantissa and exponent is the nearest one to the
value.  Below a power of two the next number is half as far.  A midpoint belongs to
the number whose mantissa is even. -/
structure NearTo (m : Nat) (e : Int) (v : ℚ) : Prop where
  low : (m : ℚ) - (if m = 2 ^ 52 ∧ minExponent < e then 1 / 4 else 1 / 2) ≤ v / 2 ^ e
  high : v / 2 ^ e ≤ m + 1 / 2
  odd : m % 2 = 1 → (m : ℚ) - 1 / 2 < v / 2 ^ e ∧ v / 2 ^ e < m + 1 / 2

section NearTo

variable {m num den : Nat} {e : Int} {v : ℚ}

theorem NearTo.half_le (h : NearTo m e v) : (m : ℚ) - 1 / 2 ≤ v / 2 ^ e := by
  have hlow := h.low
  split at hlow <;> linarith

theorem NearTo.pos (h : NearTo m e v) (hm : 0 < m) : 0 < v := by
  have hlow := h.half_le
  have hm : (1 : ℚ) ≤ m := by exact_mod_cast hm
  have hdiv : 0 < v / 2 ^ e := by linarith
  exact (div_pos_iff_of_pos_right (zpow_pos two_pos e)).1 hdiv

/-- The exponent at which a ratio is rounded. -/
theorem max_floorLog2 (hnum : 0 < num) (hden : 0 < den) (he : minExponent ≤ e)
    (hhigh : (num : ℚ) / den / 2 ^ e < 2 ^ 53)
    (hlow : 2 ^ 52 ≤ (num : ℚ) / den / 2 ^ e ∨ e = minExponent) :
    max (floorLog2 num den - 52) minExponent = e := by
  have hratio : (0 : ℚ) < num / den := by positivity
  rw [floorLog2_eq hnum hden]
  have habove : Int.log 2 ((num : ℚ) / den) < e + 53 := by
    rw [← Int.lt_zpow_iff_log_lt one_lt_two hratio, Nat.cast_ofNat, zpow_add₀ two_ne_zero,
      ← div_lt_iff₀' (zpow_pos two_pos e)]
    exact_mod_cast hhigh
  rcases hlow with hlow | rfl
  · have hbelow : e + 52 ≤ Int.log 2 ((num : ℚ) / den) := by
      rw [← Int.zpow_le_iff_le_log one_lt_two hratio, Nat.cast_ofNat, zpow_add₀ two_ne_zero,
        ← le_div_iff₀' (zpow_pos two_pos e)]
      exact_mod_cast hlow
    omega
  · omega

/-- A ratio is rounded to the nearest number, and a carry moves the exponent. -/
theorem ofRatio_eq (negative : Bool) (hnum : 0 < num) (hden : 0 < den) (he : minExponent ≤ e)
    (hhigh : (num : ℚ) / den / 2 ^ e < 2 ^ 53)
    (hlow : 2 ^ 52 ≤ (num : ℚ) / den / 2 ^ e ∨ e = minExponent)
    (hm : (m : ℚ) - 1 / 2 ≤ num / den / 2 ^ e) (hm' : (num : ℚ) / den / 2 ^ e ≤ m + 1 / 2)
    (hodd : m % 2 = 1 → (m : ℚ) - 1 / 2 < num / den / 2 ^ e ∧ (num : ℚ) / den / 2 ^ e < m + 1 / 2) :
    ofRatio negative num den =
      let (m, e) := if m == 2 ^ 53 then (2 ^ 52, e + 1) else (m, e)
      if maxExponent < e then .infinite negative else .finite negative m e := by
  have hvalue : ((scaleRatio 2 num den e).1 : ℚ) / (scaleRatio 2 num den e).2 = num / den / 2 ^ e :=
    mod_cast scaleRatio_value two_pos e
  rw [← hvalue] at hm hm' hodd
  have hround := roundDiv_eq (scaleRatio_den_pos two_pos hden e) hm hm' hodd
  simp only [ofRatio, beq_iff_eq, if_neg hnum.ne', max_floorLog2 hnum hden he hhigh hlow, hround,
    Nat.pow_eq]

/-- A ratio whose value is near to a finite number is rounded to it. -/
theorem ofRatio_of_nearTo (negative : Bool) (hfinite : IsFinite (.finite negative m e)) (hm : 0 < m)
    (hden : 0 < den) (h : NearTo m e (num / den)) :
    ofRatio negative num den = .finite negative m e := by
  obtain ⟨hbits, hmin, hmax, hnormal⟩ := hfinite
  have hpos := h.pos hm
  have hnum : 0 < num := by
    rcases Nat.eq_zero_or_pos num with rfl | hnum
    · simp at hpos
    · exact hnum
  have hbits' : (m : ℚ) ≤ 2 ^ 53 - 1 := by
    rw [le_sub_iff_add_le]
    exact_mod_cast hbits
  by_cases hcarry : (num : ℚ) / den / 2 ^ e < 2 ^ 52 ∧ minExponent < e
  · -- the value is below a power of two, so it is rounded one exponent lower and carried
    obtain ⟨hlt, hmin'⟩ := hcarry
    have hpower : m = 2 ^ 52 := by
      have hle : 2 ^ 52 ≤ m := hnormal.resolve_right hmin'.ne'
      have hlow := h.half_le
      have : (m : ℚ) < 2 ^ 52 + 1 := by linarith
      have : m < 2 ^ 52 + 1 := by exact_mod_cast this
      omega
    have hdouble : (num : ℚ) / den / 2 ^ (e - 1) = 2 * (num / den / 2 ^ e) := by
      rw [zpow_sub_one₀ two_ne_zero]
      field_simp
    have hlow := h.low
    rw [if_pos ⟨hpower, hmin'⟩, hpower] at hlow
    push_cast at hlow
    rw [ofRatio_eq (m := 2 ^ 53) negative hnum hden (by omega : minExponent ≤ e - 1)]
    · simp [hpower, not_lt.2 hmax]
    all_goals rw [hdouble]; push_cast
    · linarith
    · left; linarith
    · linarith
    · linarith
    · intro hodd
      exact absurd hodd (by decide)
  · have hnormal' : 2 ^ 52 ≤ (num : ℚ) / den / 2 ^ e ∨ e = minExponent := by
      rcases Classical.not_and_iff_not_or_not.1 hcarry with h | h
      · exact .inl (not_lt.1 h)
      · exact .inr (by omega)
    have hhigh := h.high
    rw [ofRatio_eq negative hnum hden hmin (by linarith) hnormal' h.half_le hhigh h.odd]
    simp only [beq_iff_eq, if_neg hbits.ne, if_neg (not_lt.2 hmax)]

end NearTo

end StructuralTyping.Binary64
