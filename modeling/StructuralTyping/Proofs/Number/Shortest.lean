import StructuralTyping.Number.Shortest
import StructuralTyping.Proofs.Number.Rounding

/-!
# Shortest decimals read back

The decimal of a number lies in the interval of the values that are near to it
(`decimal_nearTo`).  A hit on a grid is such a decimal by construction, so what
has to be seen is that the search finds a hit: the grid with 17 digits is finer
than the interval is wide.
-/

namespace StructuralTyping.Shortest

open Binary64 (scaleRatio scaleRatio_den scaleRatio_den_pos le_scaleRatio_iff scaleRatio_le_iff
  floorLog2_eq minExponent maxExponent IsFinite NearTo)

/-! ## Powers of two and of ten -/

/-- Two bounds on the decimal logarithm of two, `31 / 103` and `28 / 93`, are close
enough for all exponents here. -/
theorem ten_zpow_le_two_zpow {a b : Int} (h : 103 * a ≤ 31 * b) (h' : 93 * a ≤ 28 * b) :
    (10 : ℚ) ^ a ≤ 2 ^ b := by
  rcases le_total 0 b with hb | hb
  · refine le_of_pow_le_pow_left₀ (show (103 : ℕ) ≠ 0 by decide) (by positivity) ?_
    calc ((10 : ℚ) ^ a) ^ 103 = 10 ^ (103 * a) := by rw [← zpow_natCast, ← zpow_mul, mul_comm]; rfl
      _ ≤ 10 ^ (31 * b) := zpow_le_zpow_right₀ (by norm_num) h
      _ = ((10 : ℚ) ^ (31 : ℤ)) ^ b := zpow_mul _ _ _
      _ ≤ ((2 : ℚ) ^ (103 : ℤ)) ^ b := zpow_le_zpow_left₀ hb (by norm_num) (by norm_num)
      _ = (2 ^ b) ^ 103 := by rw [← zpow_mul, mul_comm, zpow_mul, ← zpow_natCast]; rfl
  · refine le_of_pow_le_pow_left₀ (show (93 : ℕ) ≠ 0 by decide) (by positivity) ?_
    have hpow : ((2 : ℚ) ^ (93 : ℤ)) ^ (-b) ≤ (10 ^ (28 : ℤ)) ^ (-b) :=
      zpow_le_zpow_left₀ (by omega) (by norm_num) (by norm_num)
    rw [zpow_neg, zpow_neg, inv_le_inv₀ (by positivity) (by positivity)] at hpow
    calc ((10 : ℚ) ^ a) ^ 93 = 10 ^ (93 * a) := by rw [← zpow_natCast, ← zpow_mul, mul_comm]; rfl
      _ ≤ 10 ^ (28 * b) := zpow_le_zpow_right₀ (by norm_num) h'
      _ = ((10 : ℚ) ^ (28 : ℤ)) ^ b := zpow_mul _ _ _
      _ ≤ ((2 : ℚ) ^ (93 : ℤ)) ^ b := hpow
      _ = (2 ^ b) ^ 93 := by rw [← zpow_mul, mul_comm, zpow_mul, ← zpow_natCast]; rfl

theorem two_zpow_le_ten_zpow {a b : Int} (h : 31 * b ≤ 103 * a) (h' : 28 * b ≤ 93 * a) :
    (2 : ℚ) ^ b ≤ 10 ^ a := by
  have hinv : (10 : ℚ) ^ (-a) ≤ 2 ^ (-b) := ten_zpow_le_two_zpow (by omega) (by omega)
  rwa [zpow_neg, zpow_neg, inv_le_inv₀ (by positivity) (by positivity)] at hinv

/-- The decimal exponent of a ratio that is neither huge nor tiny. -/
theorem decimalPoint_spec {num den : Nat} (hnum : 0 < num) (hden : 0 < den)
    (hlow : (2 : ℚ) ^ (-1100 : ℤ) ≤ num / den) (hhigh : (num : ℚ) / den < 2 ^ (1100 : ℤ)) :
    (10 : ℚ) ^ (decimalPoint num den - 1) ≤ num / den ∧
      (num : ℚ) / den < 10 ^ decimalPoint num den := by
  have hratio : (0 : ℚ) < num / den := by positivity
  have hfits (k : Int) :
      (scaleRatio 10 num den k).1 < (scaleRatio 10 num den k).2 ↔ (num : ℚ) / den < 10 ^ k := by
    rw [← not_le, ← not_le, not_iff_not]
    simpa using le_scaleRatio_iff (show 0 < 10 by decide) hden 1 k
  have hpow := Int.zpow_log_le_self one_lt_two hratio
  have hpow' := Int.lt_zpow_succ_log_self one_lt_two ((num : ℚ) / den)
  have hlog := (Int.zpow_le_iff_le_log one_lt_two hratio).1 hlow
  have hlog' := (Int.lt_zpow_iff_log_lt one_lt_two hratio).1 hhigh
  simp only [decimalPoint, floorLog2_eq hnum hden, hfits, decide_eq_true_eq]
  generalize Int.log 2 ((num : ℚ) / den) = f at *
  rw [Int.fdiv_eq_ediv_of_nonneg _ (by decide)]
  generalize hguess : f * 30103 / 100000 = guess
  have hbelow : (10 : ℚ) ^ (guess - 1) ≤ num / den :=
    le_trans (ten_zpow_le_two_zpow (by omega) (by omega)) hpow
  have habove : (num : ℚ) / den < 10 ^ (guess + 2) :=
    lt_of_lt_of_le hpow' (two_zpow_le_ten_zpow (by omega) (by omega))
  split
  · next h => exact ⟨hbelow, h⟩
  · next h =>
    split
    · next h' => exact ⟨by simpa using not_lt.1 h, h'⟩
    · next h' =>
      refine ⟨?_, habove⟩
      rw [show guess + 2 - 1 = guess + 1 by omega]
      exact not_lt.1 h'

/-! ## One grid -/

namespace Interval

/-- The interval has a value in it. -/
structure IsProper (i : Interval) : Prop where
  den_pos : 0 < i.den
  low_lt : i.low < i.value
  lt_high : i.value < i.high

/-- The point lies on the right side of the lower end. -/
def AboveLow (i : Interval) (x : ℚ) : Prop :=
  if i.closed then (i.low : ℚ) / i.den ≤ x else (i.low : ℚ) / i.den < x

/-- The point lies on the left side of the upper end. -/
def BelowHigh (i : Interval) (x : ℚ) : Prop :=
  if i.closed then x ≤ (i.high : ℚ) / i.den else x < (i.high : ℚ) / i.den

end Interval

section Grid

variable {i : Interval} {g : Int}

section Sides

variable (hden : 0 < i.den) (num k : Nat)
include hden

theorem mul_le_scaleRatio_iff :
    k * (scaleRatio 10 i.value i.den g).2 ≤ (scaleRatio 10 num i.den g).1 ↔
    (k : ℚ) * 10 ^ g ≤ num / i.den := by
  rw [scaleRatio_den i.value num]
  exact_mod_cast le_scaleRatio_iff (by decide) hden k g

theorem scaleRatio_le_mul_iff :
    (scaleRatio 10 num i.den g).1 ≤ k * (scaleRatio 10 i.value i.den g).2 ↔
    (num : ℚ) / i.den ≤ k * 10 ^ g := by
  rw [scaleRatio_den i.value num]
  exact_mod_cast scaleRatio_le_iff (by decide) hden k g

theorem aboveLow_iff : (if i.closed then
      decide ((scaleRatio 10 i.low i.den g).1 ≤ k * (scaleRatio 10 i.value i.den g).2)
    else decide ((scaleRatio 10 i.low i.den g).1 < k * (scaleRatio 10 i.value i.den g).2)) = true ↔
      i.AboveLow (k * 10 ^ g) := by
  rw [Interval.AboveLow]
  split
  · rw [decide_eq_true_iff, scaleRatio_le_mul_iff hden]
  · rw [decide_eq_true_iff, ← not_le, mul_le_scaleRatio_iff hden, not_le]

theorem belowHigh_iff : (if i.closed then
      decide (k * (scaleRatio 10 i.value i.den g).2 ≤ (scaleRatio 10 i.high i.den g).1)
    else decide (k * (scaleRatio 10 i.value i.den g).2 < (scaleRatio 10 i.high i.den g).1)) = true ↔
      i.BelowHigh (k * 10 ^ g) := by
  rw [Interval.BelowHigh]
  split
  · rw [decide_eq_true_iff, mul_le_scaleRatio_iff hden]
  · rw [decide_eq_true_iff, ← not_le, scaleRatio_le_mul_iff hden, not_le]

end Sides

/-- A grid has a point on each side of the value.  One of the two is chosen if it lies
in the interval. -/
theorem onGrid?_spec (hden : 0 < i.den) (g : Int) :
    ∃ down : Nat, (down : ℚ) * 10 ^ g ≤ i.value / i.den ∧
      (i.value : ℚ) / i.den < (down + 1 : Nat) * 10 ^ g ∧
      (onGrid? i g = none →
        ¬ i.AboveLow (down * 10 ^ g) ∧ ¬ i.BelowHigh ((down + 1 : Nat) * 10 ^ g)) ∧
      ∀ k, onGrid? i g = some k →
        (k = down ∧ i.AboveLow (k * 10 ^ g)) ∨ (k = down + 1 ∧ i.BelowHigh (k * 10 ^ g)) := by
  have hd : 0 < (scaleRatio 10 i.value i.den g).2 := scaleRatio_den_pos (by decide) hden g
  refine ⟨_, (mul_le_scaleRatio_iff hden i.value _).1 (Nat.div_mul_le_self _ _),
    not_le.1 fun h => ?_, ?_⟩
  · have hlt := Nat.lt_div_mul_add (a := (scaleRatio 10 i.value i.den g).1) hd
    have hle := (mul_le_scaleRatio_iff hden i.value _).2 h
    rw [Nat.add_one_mul] at hle
    omega
  generalize hdown : (scaleRatio 10 i.value i.den g).1 / (scaleRatio 10 i.value i.den g).2 = down
  simp only [onGrid?, hdown]
  split
  · next ha hb =>
    refine ⟨nofun, fun k hk => ?_⟩
    obtain rfl := Option.some.inj hk
    split
    · exact .inl ⟨rfl, (aboveLow_iff hden _).1 ha⟩
    · exact .inr ⟨rfl, (belowHigh_iff hden _).1 hb⟩
  · next ha _ =>
    refine ⟨nofun, fun k hk => ?_⟩
    obtain rfl := Option.some.inj hk
    exact .inl ⟨rfl, (aboveLow_iff hden _).1 ha⟩
  · next _ hb =>
    refine ⟨nofun, fun k hk => ?_⟩
    obtain rfl := Option.some.inj hk
    exact .inr ⟨rfl, (belowHigh_iff hden _).1 hb⟩
  · next ha hb =>
    refine ⟨fun _ => ⟨fun h => ?_, fun h => ?_⟩, nofun⟩
    · exact Bool.false_ne_true (ha.symm.trans ((aboveLow_iff hden _).2 h))
    · exact Bool.false_ne_true (hb.symm.trans ((belowHigh_iff hden _).2 h))

namespace Interval.IsProper

variable (hi : i.IsProper)
include hi

theorem low_lt_value : (i.low : ℚ) / i.den < i.value / i.den := by
  have hden : (0 : ℚ) < i.den := by exact_mod_cast hi.den_pos
  have hlow : (i.low : ℚ) < i.value := by exact_mod_cast hi.low_lt
  gcongr

theorem value_lt_high : (i.value : ℚ) / i.den < i.high / i.den := by
  have hden : (0 : ℚ) < i.den := by exact_mod_cast hi.den_pos
  have hhigh : (i.value : ℚ) < i.high := by exact_mod_cast hi.lt_high
  gcongr

theorem aboveLow {x : ℚ} (h : (i.value : ℚ) / i.den ≤ x) : i.AboveLow x := by
  have hlow := hi.low_lt_value
  rw [AboveLow]
  split <;> linarith

theorem belowHigh {x : ℚ} (h : x ≤ (i.value : ℚ) / i.den) : i.BelowHigh x := by
  have hhigh := hi.value_lt_high
  rw [BelowHigh]
  split <;> linarith

/-- What is chosen on a grid lies in the interval. -/
theorem mem_of_onGrid? {k : Nat} (h : onGrid? i g = some k) :
    i.AboveLow (k * 10 ^ g) ∧ i.BelowHigh (k * 10 ^ g) := by
  obtain ⟨down, hdown, hup, -, hsome⟩ := onGrid?_spec hi.den_pos g
  rcases hsome k h with ⟨rfl, hk⟩ | ⟨rfl, hk⟩
  · exact ⟨hk, hi.belowHigh hdown⟩
  · exact ⟨hi.aboveLow hup.le, hk⟩

/-- What is chosen on a grid that is not too coarse is not zero. -/
theorem pos_of_onGrid? {k : Nat} (hg : (10 : ℚ) ^ g ≤ i.value / i.den) (h : onGrid? i g = some k) :
    0 < k := by
  obtain ⟨down, -, hup, -, hsome⟩ := onGrid?_spec hi.den_pos g
  have hdown : 0 < down := by
    rcases Nat.eq_zero_or_pos down with rfl | hpos
    · simp at hup
      linarith
    · exact hpos
  rcases hsome k h with ⟨rfl, -⟩ | ⟨rfl, -⟩ <;> omega

/-- A grid that is finer than the interval is wide has a hit. -/
theorem onGrid?_ne_none (hg : (i.low : ℚ) / i.den + 10 ^ g < i.high / i.den) :
    onGrid? i g ≠ none := by
  obtain ⟨down, -, -, hnone, -⟩ := onGrid?_spec hi.den_pos g
  intro h
  obtain ⟨hlow, hhigh⟩ := hnone h
  have hlow : (down : ℚ) * 10 ^ g ≤ i.low / i.den := by
    rw [AboveLow] at hlow
    split at hlow
    · exact (not_le.1 hlow).le
    · exact not_lt.1 hlow
  have hhigh : (i.high : ℚ) / i.den ≤ (down + 1 : Nat) * 10 ^ g := by
    rw [BelowHigh] at hhigh
    split at hhigh
    · exact (not_le.1 hhigh).le
    · exact not_lt.1 hhigh
  push_cast at hhigh
  linarith

end Interval.IsProper

/-- The search ends at a hit, if the last grid has one. -/
theorem search_spec {point : Int} : ∀ left n : Nat, onGrid? i (point - (n + left : Nat)) ≠ none →
    ∃ n' k : Nat, n ≤ n' ∧ onGrid? i (point - n') = some k ∧
      search i point (left + 1) n = ⟨k, point - n'⟩
  | left, n, h => by
      cases hgrid : onGrid? i (point - n) with
      | some k => exact ⟨n, k, le_rfl, hgrid, by simp only [search, hgrid]⟩
      | none =>
        cases left with
        | zero => exact absurd hgrid h
        | succ left =>
          rw [show n + (left + 1) = n + 1 + left by omega] at h
          obtain ⟨n', k, hn', hk, hsearch⟩ := search_spec left (n + 1) h
          refine ⟨n', k, by omega, hk, ?_⟩
          rw [search]
          simp only [hgrid]
          exact hsearch

end Grid

/-! ## The interval of a number -/

section Decimal

variable {m : Nat} {e : Int}

/-- The interval is written in quarters of the last place. -/
theorem interval_eq (m : Nat) (e : Int) :
    ∃ s d : Nat, 0 < s ∧ 0 < d ∧ (s : ℚ) / d = 2 ^ e / 4 ∧
      interval m e = ⟨(4 * m - if m = 2 ^ 52 ∧ minExponent < e then 1 else 2) * s, 4 * m * s,
        (4 * m + 2) * s, d, m % 2 == 0⟩ := by
  have hquarter : (2 : ℚ) ^ e / 4 = 2 ^ (e - 2) := by
    rw [zpow_sub₀ two_ne_zero]
    norm_num
  rw [hquarter, interval]
  simp only [Bool.and_eq_true, beq_iff_eq, decide_eq_true_eq, Nat.pow_eq]
  by_cases he : 2 ≤ e
  · rw [if_pos he]
    refine ⟨2 ^ (e - 2).toNat, 1, by positivity, one_pos, ?_, rfl⟩
    rw [Nat.cast_one, div_one, Nat.cast_pow, Nat.cast_ofNat, ← zpow_natCast,
      Int.toNat_of_nonneg (by omega)]
  · rw [if_neg he]
    refine ⟨1, 2 ^ (2 - e).toNat, one_pos, by positivity, ?_, rfl⟩
    rw [Nat.cast_one, one_div, Nat.cast_pow, Nat.cast_ofNat, ← zpow_natCast,
      Int.toNat_of_nonneg (by omega), ← zpow_neg, neg_sub]

theorem interval_isProper (hm : 0 < m) (e : Int) : (interval m e).IsProper := by
  obtain ⟨s, d, hs, hd, -, heq⟩ := interval_eq m e
  rw [heq]
  refine ⟨hd, Nat.mul_lt_mul_of_pos_right ?_ hs, Nat.mul_lt_mul_of_pos_right (by omega) hs⟩
  split <;> omega

theorem interval_value (m : Nat) (e : Int) :
    ((interval m e).value : ℚ) / (interval m e).den = m * 2 ^ e := by
  obtain ⟨s, d, -, -, hscale, heq⟩ := interval_eq m e
  rw [heq]
  push_cast
  rw [mul_div_assoc, hscale]
  ring

theorem interval_low (hm : 0 < m) (e : Int) : ((interval m e).low : ℚ) / (interval m e).den =
    (m - if m = 2 ^ 52 ∧ minExponent < e then 1 / 4 else 1 / 2) * 2 ^ e := by
  obtain ⟨s, d, -, -, hscale, heq⟩ := interval_eq m e
  rw [heq]
  split
  · push_cast [Nat.cast_sub (show 1 ≤ 4 * m by omega)]
    rw [mul_div_assoc, hscale]
    ring
  · push_cast [Nat.cast_sub (show 2 ≤ 4 * m by omega)]
    rw [mul_div_assoc, hscale]
    ring

theorem interval_high (m : Nat) (e : Int) :
    ((interval m e).high : ℚ) / (interval m e).den = (m + 1 / 2) * 2 ^ e := by
  obtain ⟨s, d, -, -, hscale, heq⟩ := interval_eq m e
  rw [heq]
  push_cast
  rw [mul_div_assoc, hscale]
  ring

theorem interval_closed (m : Nat) (e : Int) : (interval m e).closed = (m % 2 == 0) := rfl

/-- What lies in the interval of a number is near to it. -/
theorem nearTo_of_mem {x : ℚ} (hm : 0 < m) (hlow : (interval m e).AboveLow x)
    (hhigh : (interval m e).BelowHigh x) :
    NearTo m e x := by
  have hpow : (0 : ℚ) < 2 ^ e := by positivity
  rw [Interval.AboveLow, interval_low hm, interval_closed, ← le_div_iff₀ hpow,
    ← lt_div_iff₀ hpow] at hlow
  rw [Interval.BelowHigh, interval_high, interval_closed, ← div_le_iff₀ hpow,
    ← div_lt_iff₀ hpow] at hhigh
  refine ⟨?_, ?_, fun hodd => ?_⟩
  · split at hlow
    · exact hlow
    · exact hlow.le
  · split at hhigh
    · exact hhigh
    · exact hhigh.le
  · have hopen : ¬ (m % 2 == 0) = true := by simp [hodd]
    have hpower : m ≠ 2 ^ 52 := by
      rintro rfl
      exact absurd hodd (by decide)
    rw [if_neg hopen, if_neg fun h => hpower h.1] at hlow
    rw [if_neg hopen] at hhigh
    exact ⟨hlow, hhigh⟩

/-- The interval is wider than the distance of decimals with 17 digits. -/
theorem interval_wide {point : Int} (hm : 0 < m) (hbits : m < 2 ^ 53)
    (hpoint : (10 : ℚ) ^ (point - 1) ≤ m * 2 ^ e) :
    ((interval m e).low : ℚ) / (interval m e).den + 10 ^ (point - 17) <
      (interval m e).high / (interval m e).den := by
  have hpow : (0 : ℚ) < 2 ^ e := by positivity
  have hten : (10 : ℚ) ^ (point - 17) * 10 ^ 16 ≤ m * 2 ^ e := by
    refine le_trans (le_of_eq ?_) hpoint
    rw [← zpow_natCast, ← zpow_add₀ (by norm_num)]
    congr 1
    norm_num
    ring
  rw [interval_low hm, interval_high]
  split
  · next h =>
    have hm' : (m : ℚ) = 2 ^ 52 := by exact_mod_cast h.1
    rw [hm'] at hten ⊢
    linarith
  · have hm' : (m : ℚ) < 2 ^ 53 := by exact_mod_cast hbits
    nlinarith

/-- What is near to a finite number is neither huge nor tiny. -/
theorem bounds_of_nearTo {negative : Bool} {x : ℚ} (hfinite : IsFinite (.finite negative m e))
    (hm : 0 < m) (h : NearTo m e x) : (10 : ℚ) ^ (-330 : ℤ) ≤ x ∧ x < 10 ^ (310 : ℤ) := by
  obtain ⟨hbits, hmin, hmax, -⟩ := hfinite
  have hpow : (0 : ℚ) < 2 ^ e := by positivity
  have hm' : (1 : ℚ) ≤ m := by exact_mod_cast hm
  have hbits' : (m : ℚ) ≤ 2 ^ 53 - 1 := by
    rw [le_sub_iff_add_le]
    exact_mod_cast hbits
  have hlow := h.half_le
  have hhigh := h.high
  rw [le_div_iff₀ hpow] at hlow
  rw [div_le_iff₀ hpow] at hhigh
  rw [minExponent] at hmin
  rw [maxExponent] at hmax
  constructor
  · calc (10 : ℚ) ^ (-330 : ℤ) ≤ 2 ^ (e - 1) := ten_zpow_le_two_zpow (by omega) (by omega)
      _ = (1 - 1 / 2) * 2 ^ e := by rw [zpow_sub_one₀ two_ne_zero]; ring
      _ ≤ (m - 1 / 2) * 2 ^ e := by gcongr
      _ ≤ x := hlow
  · calc x ≤ (m + 1 / 2) * 2 ^ e := hhigh
      _ < 2 ^ 53 * 2 ^ e := by gcongr; linarith
      _ = 2 ^ (53 + e) := by rw [zpow_add₀ two_ne_zero]; rfl
      _ ≤ 10 ^ (310 : ℤ) := two_zpow_le_ten_zpow (by omega) (by omega)

/-- The decimal of a number is near to it. -/
theorem decimal_nearTo {negative : Bool} (hfinite : IsFinite (.finite negative m e)) (hm : 0 < m) :
    0 < (decimal m e).digits ∧ NearTo m e ((decimal m e).digits * 10 ^ (decimal m e).exponent) := by
  obtain ⟨hbits, hmin, hmax, -⟩ := hfinite
  rw [minExponent] at hmin
  rw [maxExponent] at hmax
  have hproper := interval_isProper hm e
  have hvalue : 0 < (interval m e).value := Nat.zero_lt_of_lt hproper.low_lt
  have hm' : (1 : ℚ) ≤ m := by exact_mod_cast hm
  have hbits' : (m : ℚ) < 2 ^ 53 := by exact_mod_cast hbits
  have hmin : (2 : ℚ) ^ (-1100 : ℤ) ≤ m * 2 ^ e :=
    calc (2 : ℚ) ^ (-1100 : ℤ) ≤ 2 ^ e := zpow_le_zpow_right₀ (by norm_num) (by omega)
      _ ≤ m * 2 ^ e := le_mul_of_one_le_left (by positivity) hm'
  have hmax : (m : ℚ) * 2 ^ e < 2 ^ (1100 : ℤ) :=
    calc (m : ℚ) * 2 ^ e < 2 ^ 53 * 2 ^ e := by gcongr
      _ = 2 ^ (53 + e) := by rw [zpow_add₀ two_ne_zero]; rfl
      _ ≤ 2 ^ (1100 : ℤ) := zpow_le_zpow_right₀ (by norm_num) (by omega)
  rw [← interval_value] at hmin hmax
  have hpoint := (decimalPoint_spec hvalue hproper.den_pos hmin hmax).1
  have hwide := interval_wide hm hbits (by rwa [interval_value] at hpoint)
  obtain ⟨n, k, hn, hk, hsearch⟩ := search_spec 16 1 (hproper.onGrid?_ne_none hwide)
  rw [decimal, hsearch]
  refine ⟨hproper.pos_of_onGrid? ?_ hk, ?_⟩
  · exact le_trans (zpow_le_zpow_right₀ (by norm_num) (by omega)) hpoint
  · obtain ⟨hlow, hhigh⟩ := hproper.mem_of_onGrid? hk
    exact nearTo_of_mem hm hlow hhigh

end Decimal

end StructuralTyping.Shortest
