import Mathlib.Algebra.Order.Floor.Ring

/-!
# Rounding to an Integer

Rounding to the nearest integer, with ties to even or away from zero, and rounding twice: first to a
fraction of an integer and then to an integer.
-/

namespace Rustice

section

variable {K : Type*} [Field K] [LinearOrder K] [IsStrictOrderedRing K] [FloorRing K] {v : ℤ} {x : K}
  {n : ℕ} {y : K} {R : ℤ}

def Nearest (x : K) (v : ℤ) : Prop := ∀ w : ℤ, |x - v| ≤ |x - w|

/-- The nearest integer; at a tie, the larger one if `up` holds. -/
def roundTies (up : Prop) [Decidable up] (x : K) : ℤ :=
  if Int.fract x < 1 - Int.fract x then ⌊x⌋
  else if 1 - Int.fract x < Int.fract x then ⌊x⌋ + 1
  else if up then ⌊x⌋ + 1 else ⌊x⌋

def roundEven (x : K) : ℤ := roundTies (⌊x⌋ % 2 = 1) x

def roundAway (x : K) : ℤ := roundTies (0 ≤ x) x

lemma nearest_iff : Nearest x v ↔ |x - v| ≤ 1 / 2 := by
  constructor
  · intro h
    have hu := h (v + 1)
    have hd := h (v - 1)
    push_cast at hu hd
    rcases le_total (x - v) 0 with hs | hs
    · rw [abs_of_nonpos hs] at hd ⊢
      rcases abs_cases (x - (v - 1)) with ⟨heq, -⟩ | ⟨heq, -⟩ <;> linarith
    · rw [abs_of_nonneg hs] at hu ⊢
      rcases abs_cases (x - (v + 1)) with ⟨heq, -⟩ | ⟨heq, -⟩ <;> linarith
  · intro h w
    rcases eq_or_ne w v with rfl | hne
    · exact le_rfl
    · -- Two integers are at least one unit apart.
      have ho : (1 : K) ≤ |(v : K) - w| := by
        have hint : 1 ≤ |v - w| := Int.one_le_abs (sub_ne_zero.mpr hne.symm)
        exact_mod_cast hint
      have ht := abs_sub_le (v : K) x w
      rw [abs_sub_comm (v : K) x] at ht
      linarith

lemma nearest_roundTies (up : Prop) [Decidable up] (x : K) : Nearest x (roundTies up x) := by
  have hf := Int.floor_add_fract x
  have hn := Int.fract_nonneg x
  have hlt := Int.fract_lt_one x
  rw [nearest_iff, abs_le, roundTies]
  split_ifs with hl hh hu
  all_goals push_cast; constructor <;> linarith

lemma nearest_roundEven (x : K) : Nearest x (roundEven x) := nearest_roundTies _ x

lemma nearest_roundAway (x : K) : Nearest x (roundAway x) := nearest_roundTies _ x

lemma roundAway_intCast (n : ℤ) : roundAway (n : K) = n := by
  obtain ⟨hle, hge⟩ := abs_le.mp (nearest_iff.mp (nearest_roundAway (n : K)))
  have hl : (n : K) < (roundAway (n : K) : ℤ) + 1 := by linarith
  have hh : ((roundAway (n : K) : ℤ) : K) < n + 1 := by linarith
  have hl' : n < roundAway (n : K) + 1 := by exact_mod_cast hl
  have hh' : roundAway (n : K) < n + 1 := by exact_mod_cast hh
  omega

lemma Nearest.abs_le (h : Nearest x v) : |(v : K)| ≤ |x| + 1 / 2 := by
  have ht := abs_sub_abs_le_abs_sub (v : K) x
  rw [abs_sub_comm] at ht
  have hle := nearest_iff.mp h
  linarith

lemma Nearest.abs_le_add (h : Nearest x v) : |x| ≤ |(v : K)| + 1 / 2 := by
  have ht := abs_sub_abs_le_abs_sub x (v : K)
  have hle := nearest_iff.mp h
  linarith

lemma Nearest.natAbs_le (h : Nearest x v) (hx : |x| ≤ n) : v.natAbs ≤ n := by
  have hle := h.abs_le
  rw [← Int.cast_abs, ← Nat.cast_natAbs] at hle
  have hlt : ((v.natAbs : ℕ) : K) < ((n + 1 : ℕ) : K) := by
    push_cast
    linarith
  exact Nat.lt_succ_iff.mp (by exact_mod_cast hlt)

lemma roundAway_of_tie (h : Int.fract y = 1 / 2) :
    ((roundAway y : ℤ) : K) = if 0 ≤ y then y + 1 / 2 else y - 1 / 2 := by
  have hf := Int.floor_add_fract y
  rw [roundAway, roundTies, if_neg (by linarith), if_neg (by linarith)]
  split_ifs with hy
  · push_cast
    linarith
  · linarith

lemma fract_of_abs_sub (h : |y - v| = 1 / 2) : Int.fract y = 1 / 2 := by
  rcases (abs_eq (by norm_num : (0 : K) ≤ 1 / 2)).mp h with heq | heq
  · rw [Int.fract_eq_iff]
    exact ⟨by norm_num, by norm_num, v, by linarith⟩
  · rw [Int.fract_eq_iff]
    exact ⟨by norm_num, by norm_num, v - 1, by push_cast; linarith⟩

lemma abs_sub_roundAway_le (hpos : 0 < n) (hy : y = R / (2 * n))
    (ht : Int.fract y ≠ 1 / 2) : |y - (roundAway y : ℤ)| ≤ 1 / 2 - 1 / (2 * n) := by
  have hn : (0 : K) < n := Nat.cast_pos.mpr hpos
  have hlt : |y - (roundAway y : ℤ)| < 1 / 2 :=
    lt_of_le_of_ne (nearest_iff.mp (nearest_roundAway y)) fun heq => ht (fract_of_abs_sub heq)
  have hs : y - (roundAway y : ℤ) = ((R - 2 * n * roundAway y : ℤ) : K) / (2 * n) := by
    rw [hy]
    push_cast
    field_simp
  have hb : ((R - 2 * n * roundAway y).natAbs : K) < n := by
    rw [hs, abs_div, abs_of_pos (by linarith : (0 : K) < 2 * n),
      div_lt_div_iff₀ (by linarith) (by norm_num)] at hlt
    rw [Nat.cast_natAbs, Int.cast_abs]
    linarith
  have hint : (R - 2 * n * roundAway y).natAbs + 1 ≤ n := by exact_mod_cast hb
  have hc : ((R - 2 * n * roundAway y).natAbs : K) + 1 ≤ n := by exact_mod_cast hint
  rw [hs, abs_div, abs_of_pos (by linarith : (0 : K) < 2 * n), div_le_iff₀ (by linarith),
    ← Int.cast_abs, ← Nat.cast_natAbs]
  field_simp
  linarith

lemma nearest_roundAway_iff {x y : K} (hpos : 0 < n) (hy : y = R / (2 * n))
    (hxy : |x - y| ≤ 1 / (4 * n)) :
    Nearest x (roundAway y) ↔ ¬ (Int.fract y = 1 / 2 ∧ |x| < |y|) := by
  have hn : (1 : K) ≤ n := by exact_mod_cast hpos
  have hq : (1 : K) / (4 * n) ≤ 1 / 4 := by
    rw [div_le_div_iff₀ (by linarith) (by norm_num)]
    linarith
  by_cases ht : Int.fract y = 1 / 2
  · have hc := abs_le.mp (hxy.trans hq)
    have hfr := Int.floor_add_fract y
    simp only [ht, true_and, not_lt]
    rw [nearest_iff, roundAway_of_tie ht, abs_le]
    split_ifs with hs
    · have hf : (0 : K) ≤ ⌊y⌋ := by exact_mod_cast Int.floor_nonneg.mpr hs
      rw [abs_of_nonneg hs, abs_of_nonneg (by linarith : 0 ≤ x)]
      constructor
      · rintro ⟨hle, -⟩
        linarith
      · intro hle
        constructor <;> linarith
    · have hneg : ((⌊y⌋ : ℤ) : K) < 0 := lt_of_le_of_lt (Int.floor_le y) (not_le.mp hs)
      have hf : ((⌊y⌋ : ℤ) : K) ≤ -1 := by
        have hint : ⌊y⌋ < 0 := by exact_mod_cast hneg
        exact_mod_cast Int.le_sub_one_of_lt hint
      rw [abs_of_neg (not_le.mp hs), abs_of_neg (by linarith : x < 0)]
      constructor
      · rintro ⟨-, hle⟩
        linarith
      · intro hle
        constructor <;> linarith
  · refine iff_of_true ?_ fun h => ht h.1
    have hfar := abs_sub_roundAway_le hpos hy ht
    have htr := abs_sub_le x y (roundAway y : ℤ)
    have hh : (1 : K) / (2 * n) = 2 * (1 / (4 * n)) := by
      field_simp
      norm_num
    have hnon : (0 : K) ≤ 1 / (4 * n) := by positivity
    rw [nearest_iff]
    linarith

end

end Rustice
