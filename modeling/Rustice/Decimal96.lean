import Mathlib.Data.Rat.Floor
import Rustice.Rounding

/-!
# Decimals with 96 Bits

A decimal of `rust_decimal` has a mantissa of 96 bits and at most 28 digits after the point.
-/

namespace Rustice

structure Decimal96 where
  mantissa : ℤ
  scale : ℕ
  natAbs_lt : mantissa.natAbs < 2 ^ 96

namespace Decimal96

variable {s : ℕ} {v : ℤ} {d : Decimal96} {t : ℕ}

def fromI128WithScale (n : ℤ) (scale : ℕ) : Option Decimal96 :=
  if h : n.natAbs < 2 ^ 96 ∧ scale ≤ 28 then some ⟨n, scale, h.1⟩ else none

def value (d : Decimal96) : ℚ := d.mantissa / 10 ^ d.scale

def scaleUp : ℕ → Decimal96 → Decimal96
  | 0, d => d
  | n + 1, d =>
    if h : (d.mantissa * 10).natAbs < 2 ^ 96 then scaleUp n ⟨d.mantissa * 10, d.scale + 1, h⟩
    else d

lemma natAbs_lt_iff : v.natAbs < 2 ^ 96 ↔ |(v : ℚ)| ≤ 2 ^ 96 - 1 := by
  rw [← Int.cast_abs, ← Nat.cast_natAbs, le_sub_iff_add_le, ← Nat.succ_le_iff]
  exact_mod_cast Iff.rfl

lemma not_natAbs_lt_iff : ¬ v.natAbs < 2 ^ 96 ↔ 2 ^ 96 ≤ |(v : ℚ)| := by
  rw [← Int.cast_abs, ← Nat.cast_natAbs, not_lt]
  exact_mod_cast Iff.rfl

lemma abs_value_mul_le (d : Decimal96) (hs : s ≤ d.scale) :
    |d.value * 10 ^ s| ≤ (d.mantissa.natAbs : ℚ) := by
  have hpow : (10 : ℚ) ^ s ≤ 10 ^ d.scale := pow_le_pow_right₀ (by norm_num) hs
  rw [value, div_mul_eq_mul_div, abs_div, abs_mul, abs_of_pos (by positivity : (0 : ℚ) < 10 ^ s),
    abs_of_pos (by positivity : (0 : ℚ) < 10 ^ d.scale), div_le_iff₀ (by positivity),
    Nat.cast_natAbs, Int.cast_abs]
  exact mul_le_mul_of_nonneg_left hpow (abs_nonneg _)

lemma natAbs_roundAway_lt (d : Decimal96) (hs : s < d.scale) :
    (roundAway (d.value * 10 ^ s)).natAbs < 2 ^ 96 :=
  lt_of_le_of_lt ((nearest_roundAway _).natAbs_le (abs_value_mul_le d hs.le)) d.natAbs_lt

def rescale (d : Decimal96) (s : ℕ) : Decimal96 :=
  if h : s < d.scale then ⟨roundAway (d.value * 10 ^ s), s, natAbs_roundAway_lt d h⟩
  else scaleUp (s - d.scale) d

def FitsAt (x : ℚ) (t : ℕ) : Prop := (roundEven (x * 10 ^ t)).natAbs < 2 ^ 96

instance (x : ℚ) : DecidablePred (FitsAt x) := fun _ => Nat.decLt _ _

def fittingScale (x : ℚ) : ℕ := Nat.findGreatest (FitsAt x) 28

lemma fitsAt_fittingScale {x : ℚ} (h : FitsAt x 0) : FitsAt x (fittingScale x) :=
  Nat.findGreatest_spec (Nat.zero_le 28) h

def roundToFit (x : ℚ) : ℚ := roundEven (x * 10 ^ fittingScale x) / 10 ^ fittingScale x

/-- The division of `rust_decimal`; none is a panic. -/
structure Division where
  div : Decimal96 → Decimal96 → Option Decimal96
  div_eq_none_iff : ∀ x y, y.mantissa ≠ 0 → (div x y = none ↔ ¬ FitsAt (x.value / y.value) 0)
  value_of_div : ∀ x y r, y.mantissa ≠ 0 → div x y = some r →
    r.value = roundToFit (x.value / y.value)

def Division.toEven : Division where
  div x y :=
    if h : FitsAt (x.value / y.value) 0 then
      some ⟨_, fittingScale (x.value / y.value), fitsAt_fittingScale h⟩
    else none
  div_eq_none_iff x y _ := by simp
  value_of_div x y r _ h := by
    split_ifs at h
    cases h
    rfl

lemma fitsAt_of_le {x : ℚ} (hle : s ≤ t) (h : FitsAt x t) : FitsAt x s := by
  induction t, hle using Nat.le_induction with
  | base => exact h
  | succ t hle ih =>
    refine ih ?_
    have hl := (nearest_roundEven (x * 10 ^ t)).abs_le
    have hh := (nearest_roundEven (x * 10 ^ (t + 1))).abs_le_add
    have hf := natAbs_lt_iff.mp h
    rw [pow_succ, ← mul_assoc] at hh hf
    rw [abs_mul, abs_of_pos (by norm_num : (0 : ℚ) < 10)] at hh
    refine natAbs_lt_iff.mpr ?_
    linarith

lemma scaleUp_spec (n : ℕ) (d : Decimal96) : (scaleUp n d).mantissa = d.mantissa * 10 ^ n ∨
    ¬ (d.mantissa * 10 ^ n).natAbs < 2 ^ 96 ∧
      ∃ j < n, (scaleUp n d).mantissa = d.mantissa * 10 ^ j := by
  induction n generalizing d with
  | zero => exact .inl (mul_one _).symm
  | succ n ih =>
    rw [scaleUp]
    split_ifs with hr
    · have hs := ih ⟨d.mantissa * 10, d.scale + 1, hr⟩
      simp only [mul_assoc, ← pow_succ'] at hs
      exact hs.imp id fun ⟨hf, j, hj, hm⟩ =>
        ⟨hf, j + 1, Nat.succ_lt_succ hj, hm⟩
    · refine .inr ⟨fun hlt => hr (lt_of_le_of_lt ?_ hlt), 0, Nat.succ_pos n, (mul_one _).symm⟩
      rw [pow_succ', ← mul_assoc, Int.natAbs_mul (d.mantissa * 10)]
      exact Nat.le_mul_of_pos_right _ (Int.natAbs_pos.mpr (pow_ne_zero n (by decide)))

lemma value_mul_pow (d : Decimal96) (j : ℕ) :
    d.value * 10 ^ (d.scale + j) = ((d.mantissa * 10 ^ j : ℤ) : ℚ) := by
  rw [value, pow_add]
  push_cast
  field_simp

lemma rescale_of_lt (h : |d.value * 10 ^ s| < 2 ^ 96) :
    (rescale d s).mantissa = roundAway (d.value * 10 ^ s) := by
  rw [rescale]
  split_ifs with hs
  · rfl
  · have hv := value_mul_pow d (s - d.scale)
    rw [Nat.add_sub_of_le (not_lt.mp hs)] at hv
    rw [hv, roundAway_intCast]
    rcases scaleUp_spec (s - d.scale) d with ha | ⟨hf, -⟩
    · exact ha
    · rw [not_natAbs_lt_iff, ← hv] at hf
      exact absurd h (not_lt.mpr hf)

lemma rescale_of_le (h : 2 ^ 96 ≤ |d.value * 10 ^ s|) :
    ∃ k < s, ((rescale d s).mantissa : ℚ) = d.value * 10 ^ k := by
  have hm := natAbs_lt_iff.mp d.natAbs_lt
  rw [← Int.cast_abs, ← Nat.cast_natAbs] at hm
  have hs : ¬ s < d.scale := fun hlt => by
    have hle := abs_value_mul_le d hlt.le
    linarith
  have hsum := Nat.add_sub_of_le (not_lt.mp hs)
  have hv := value_mul_pow d (s - d.scale)
  rw [hsum] at hv
  rw [rescale, dif_neg hs]
  rcases scaleUp_spec (s - d.scale) d with ha | ⟨-, j, hj, hp⟩
  · have hlt := natAbs_lt_iff.mp (scaleUp (s - d.scale) d).natAbs_lt
    rw [ha, ← hv] at hlt
    linarith
  · exact ⟨d.scale + j, by omega, by rw [hp, value_mul_pow]⟩

variable {q : ℚ} {x y r : Decimal96}

lemma roundToFit_mul_pow (hs : s ≤ fittingScale q) : roundToFit q * 10 ^ s =
    roundEven (q * 10 ^ fittingScale q) / 10 ^ (fittingScale q - s) := by
  rw [roundToFit, div_mul_eq_mul_div, div_eq_div_iff (by positivity) (by positivity), mul_assoc,
    ← pow_add, Nat.add_sub_of_le hs]

lemma abs_sub_roundToFit (hs : s ≤ fittingScale q) :
    |q * 10 ^ s - roundToFit q * 10 ^ s| ≤ 1 / (2 * 10 ^ (fittingScale q - s)) := by
  have hpow : (10 : ℚ) ^ fittingScale q = 10 ^ s * 10 ^ (fittingScale q - s) := by
    rw [← pow_add, Nat.add_sub_of_le hs]
  have hn : |q * 10 ^ fittingScale q - roundEven (q * 10 ^ fittingScale q)| ≤ 1 / 2 :=
    nearest_iff.mp (nearest_roundEven _)
  have hsc : q * 10 ^ s - roundToFit q * 10 ^ s =
      (q * 10 ^ fittingScale q - roundEven (q * 10 ^ fittingScale q)) /
        10 ^ (fittingScale q - s) := by
    rw [roundToFit_mul_pow hs, sub_div]
    congr 1
    rw [hpow]
    field_simp
  rw [hsc, abs_div, abs_of_pos (by positivity : (0 : ℚ) < 10 ^ (fittingScale q - s)),
    div_le_div_iff₀ (by positivity) (by positivity)]
  nlinarith [pow_pos (by norm_num : (0 : ℚ) < 10) (fittingScale q - s)]

lemma nearest_roundToFit_iff (hs : s ≤ fittingScale q) :
    Nearest (q * 10 ^ s) (roundAway (roundToFit q * 10 ^ s)) ↔
      ¬ (Int.fract (roundToFit q * 10 ^ s) = 1 / 2 ∧ |q| < |roundToFit q|) := by
  rcases Nat.eq_or_lt_of_le hs with heq | hlt
  · have hint : roundToFit q * 10 ^ s = (roundEven (q * 10 ^ s) : ℤ) := by
      rw [roundToFit_mul_pow hs, ← heq, Nat.sub_self, pow_zero, div_one]
    rw [hint, roundAway_intCast, Int.fract_intCast]
    refine iff_of_true (nearest_roundEven _) fun h => ?_
    norm_num at h
  · obtain ⟨k, hk⟩ := Nat.exists_eq_add_of_lt hlt
    have hh : (10 : ℚ) ^ (fittingScale q - s) = 2 * ((5 * 10 ^ k : ℕ) : ℚ) := by
      have hd : fittingScale q - s = k + 1 := by omega
      rw [hd, pow_succ]
      push_cast
      ring
    have hf := roundToFit_mul_pow hs
    have hc := abs_sub_roundToFit hs
    rw [hh] at hf hc
    rw [← mul_assoc] at hc
    have hiff := nearest_roundAway_iff (by positivity) hf (by norm_num at hc ⊢; exact hc)
    rw [hiff, abs_mul, abs_mul, mul_lt_mul_iff_left₀ (by positivity)]

lemma le_roundEven_of_not_fitsAt (h : ¬ FitsAt q (t + 1)) :
    2 ^ 96 ≤ |(roundEven (q * 10 ^ t) : ℚ)| * 10 := by
  have hf := not_natAbs_lt_iff.mp h
  have hl := (nearest_roundEven (q * 10 ^ (t + 1))).abs_le
  have hh := (nearest_roundEven (q * 10 ^ t)).abs_le_add
  have hn : q * 10 ^ (t + 1) = q * 10 ^ t * 10 := by rw [pow_succ, mul_assoc]
  rw [hn] at hf hl
  rw [abs_mul (q * 10 ^ t), abs_of_pos (by norm_num : (0 : ℚ) < 10)] at hl
  -- The number before the last digit of the bound, which is a 6, is not reached by rounding.
  have hgt : (7922816251426433759354395033 : ℚ) < |(roundEven (q * 10 ^ t) : ℚ)| := by linarith
  rw [← Int.cast_abs, ← Nat.cast_natAbs] at hgt ⊢
  have hint : 7922816251426433759354395034 ≤ (roundEven (q * 10 ^ t)).natAbs := by
    exact_mod_cast hgt
  have hc : (7922816251426433759354395034 : ℚ) ≤ (roundEven (q * 10 ^ t)).natAbs := by
    exact_mod_cast hint
  linarith

lemma not_nearest_of_lt (hs : fittingScale q < s) (hk : t < s)
    (hf : 2 ^ 96 ≤ |(roundEven (q * 10 ^ fittingScale q) : ℚ)| * 10)
    (hv : (v : ℚ) = roundToFit q * 10 ^ t) : ¬ Nearest (q * 10 ^ s) v := by
  intro hn
  obtain ⟨m, rfl⟩ := Nat.exists_eq_add_of_lt hs
  have hpos : (0 : ℚ) < 10 ^ fittingScale q := by positivity
  have hten : (1 : ℚ) ≤ 10 ^ m := one_le_pow₀ (by norm_num)
  -- In units of the scale it is rounded at, the number is the mantissa or half a unit less.
  have hc := (nearest_roundEven (q * 10 ^ fittingScale q)).abs_le
  have habs : |q * 10 ^ (fittingScale q + m + 1)| = |q * 10 ^ fittingScale q| * 10 ^ m * 10 := by
    rw [pow_add, pow_add, pow_one, ← mul_assoc, ← mul_assoc, abs_mul, abs_mul,
      abs_of_pos (by norm_num : (0 : ℚ) < 10), abs_of_pos (by positivity : (0 : ℚ) < 10 ^ m)]
  have hsm : |(v : ℚ)| ≤ |(roundEven (q * 10 ^ fittingScale q) : ℚ)| * 10 ^ m := by
    have hpow : (10 : ℚ) ^ t ≤ 10 ^ fittingScale q * 10 ^ m := by
      rw [← pow_add]
      exact pow_le_pow_right₀ (by norm_num) (by omega)
    rw [hv, roundToFit, div_mul_eq_mul_div, abs_div, abs_mul, abs_of_pos hpos,
      abs_of_pos (by positivity : (0 : ℚ) < 10 ^ t), div_le_iff₀ hpos, mul_assoc,
      mul_comm ((10 : ℚ) ^ m)]
    exact mul_le_mul_of_nonneg_left hpow (abs_nonneg _)
  have hb := hn.abs_le_add
  rw [habs] at hb
  nlinarith

lemma nearest_rescale_iff (hs : s ≤ 28) (hf : FitsAt q 0)
    (hr : r.value = roundToFit q) : Nearest (q * 10 ^ s) (rescale r s).mantissa ↔
      FitsAt q s ∧ ¬ (Int.fract (roundToFit q * 10 ^ s) = 1 / 2 ∧ |q| < |roundToFit q|) := by
  have hm := natAbs_lt_iff.mp (fitsAt_fittingScale hf)
  by_cases h : FitsAt q s
  · have hle : s ≤ fittingScale q := Nat.le_findGreatest hs h
    have hroo : |r.value * 10 ^ s| < 2 ^ 96 := by
      have hten : (1 : ℚ) ≤ 10 ^ (fittingScale q - s) := one_le_pow₀ (by norm_num)
      rw [hr, roundToFit_mul_pow hle, abs_div,
        abs_of_pos (by linarith : (0 : ℚ) < 10 ^ (fittingScale q - s))]
      exact lt_of_le_of_lt (div_le_self (abs_nonneg _) hten) (by linarith)
    rw [rescale_of_lt hroo, hr, nearest_roundToFit_iff hle, and_iff_right h]
  · have hlt : fittingScale q < s :=
      lt_of_not_ge fun hle => h (fitsAt_of_le hle (fitsAt_fittingScale hf))
    have hful := le_roundEven_of_not_fitsAt
      (Nat.findGreatest_is_greatest (Nat.lt_succ_self (fittingScale q)) (le_trans hlt hs))
    have hroo : 2 ^ 96 ≤ |r.value * 10 ^ s| := by
      obtain ⟨m, rfl⟩ := Nat.exists_eq_add_of_lt hlt
      have hten : (1 : ℚ) ≤ 10 ^ m := one_le_pow₀ (by norm_num)
      have hval : r.value * 10 ^ (fittingScale q + m + 1) =
          roundEven (q * 10 ^ fittingScale q) * 10 * 10 ^ m := by
        rw [hr, roundToFit]
        field_simp
        ring
      rw [hval, abs_mul, abs_mul, abs_of_pos (by norm_num : (0 : ℚ) < 10),
        abs_of_pos (by linarith : (0 : ℚ) < 10 ^ m)]
      exact hful.trans (le_mul_of_one_le_right (by positivity) hten)
    obtain ⟨k, hk, hv⟩ := rescale_of_le hroo
    rw [hr] at hv
    exact iff_of_false (not_nearest_of_lt hlt hk hful hv) fun hc => h hc.1

lemma Division.fitsAt_of_div {d : Division} (hy : y.mantissa ≠ 0)
    (h : d.div x y = some r) : FitsAt (x.value / y.value) 0 := by
  by_contra ho
  rw [(d.div_eq_none_iff x y hy).mpr ho] at h
  cases h

lemma Division.nearest_rescale_div_iff {d : Division}
    (hs : s ≤ 28) (hy : y.mantissa ≠ 0) (h : d.div x y = some r) :
    Nearest (x.value / y.value * 10 ^ s) (rescale r s).mantissa ↔ FitsAt (x.value / y.value) s ∧
        ¬ (Int.fract (roundToFit (x.value / y.value) * 10 ^ s) = 1 / 2 ∧
          |x.value / y.value| < |roundToFit (x.value / y.value)|) :=
  nearest_rescale_iff hs (d.fitsAt_of_div hy h) (d.value_of_div x y r hy h)

end Decimal96

end Rustice
