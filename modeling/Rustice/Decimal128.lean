import Mathlib.Algebra.Order.Ring.Int

/-!
# Decimal Columns

A decimal type has a precision of at most 38 digits and a scale, which may be negative; a value
counts in units of ten to the minus the scale.
-/

namespace Rustice

structure DecimalType where
  precision : ℕ
  scale : ℤ
  precision_le : precision ≤ 38
  scale_le : scale ≤ precision
  le_scale : -128 ≤ scale
  deriving DecidableEq

structure DecimalColumn extends DecimalType where
  values : List (Option ℤ)
  natAbs_lt : ∀ v, some v ∈ values → v.natAbs < 10 ^ precision

structure Decimal128 extends DecimalType where
  value : ℤ
  natAbs_lt : value.natAbs < 10 ^ precision

def Decimal128.column (d : Decimal128) : DecimalColumn where
  toDecimalType := d.toDecimalType
  values := [some d.value]
  natAbs_lt v hv := by
    rw [List.mem_singleton, Option.some.injEq] at hv
    exact hv ▸ d.natAbs_lt

def wrapI128 (n : ℤ) : ℤ := n.bmod (2 ^ 128)

def asU32 (s : ℤ) : ℕ := (s % 2 ^ 32).toNat

def powTen (s : ℤ) : ℤ := wrapI128 (10 ^ asU32 s)

lemma powTen_of_nonneg {s : ℤ} (hs : 0 ≤ s) (hle : s ≤ 38) : powTen s = 10 ^ s.toNat := by
  obtain ⟨n, rfl⟩ := Int.eq_ofNat_of_zero_le hs
  have hn : n ≤ 38 := by exact_mod_cast hle
  have he : asU32 (n : ℤ) = n := by
    rw [asU32]
    omega
  have hlt : (10 : ℤ) ^ n ≤ 10 ^ 38 := pow_le_pow_right₀ (by decide) hn
  have hpos : (0 : ℤ) < 10 ^ n := pow_pos (by decide) n
  rw [powTen, he, Int.toNat_natCast, wrapI128]
  refine Int.bmod_eq_of_le ?_ ?_ <;> omega

lemma powTen_of_neg {s : ℤ} (hs : s < 0) (hle : -128 ≤ s) : powTen s = 0 := by
  have he : 128 ≤ asU32 s := by
    rw [asU32]
    omega
  have hten : (2 : ℤ) ^ 128 ∣ 10 ^ 128 := pow_dvd_pow_of_dvd (by decide) 128
  have hdvd : ((2 ^ 128 : ℕ) : ℤ) ∣ 10 ^ asU32 s := by
    rw [Nat.cast_pow]
    exact hten.trans (pow_dvd_pow 10 he)
  rw [powTen, wrapI128]
  exact Int.bmod_eq_zero_of_dvd hdvd

def Decimal128.truncate (d : Decimal128) : ℤ :=
  if 0 ≤ d.scale then d.value.tdiv (10 ^ d.scale.toNat) else d.value * 10 ^ (-d.scale).toNat

end Rustice
