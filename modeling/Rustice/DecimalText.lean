import Mathlib.Data.List.TakeWhile
import Mathlib.Tactic.FieldSimp
import Mathlib.Tactic.Linarith
import Mathlib.Tactic.Positivity

/-!
# Decimal Numbers as Text

Reading a decimal number: a sign, digits, and possibly a point with more digits; and a Boolean.
-/

namespace Rustice

open List Int Nat

/-- `str::parse::<bool>`. -/
def parseBool (text : String) : Option Bool :=
  if text = "true" then some true else if text = "false" then some false else none

def readDigits (cs : List Char) : Option ℕ :=
  if cs ≠ [] ∧ cs.all Char.isDigit then some (Nat.ofDigitChars 10 cs 0) else none

def readUnsigned (cs : List Char) : Option ℚ :=
  match cs.dropWhile (· ≠ '.') with
  | [] => (readDigits cs).map fun n => (n : ℚ)
  | _ :: fraction =>
    match readDigits (cs.takeWhile (· ≠ '.')), readDigits fraction with
    | some n, some f => some ((n : ℚ) + (f : ℚ) / 10 ^ fraction.length)
    | _, _ => none

def readDecimal : List Char → Option ℚ
  | '-' :: cs => (readUnsigned cs).map fun q => -q
  | cs => readUnsigned cs

def readMantissa (cs : List Char) : Option ℚ :=
  match cs.dropWhile (· ≠ '.') with
  | [] => (readDigits cs).map fun n : ℕ => (n : ℚ)
  | _ :: fraction =>
    (readDigits (cs.takeWhile (· ≠ '.') ++ fraction)).map fun n : ℕ =>
      (n : ℚ) / 10 ^ fraction.length

def readExponent : List Char → Option ℤ
  | '-' :: cs => (readDigits cs).map fun n : ℕ => -(n : ℤ)
  | '+' :: cs => (readDigits cs).map fun n : ℕ => (n : ℤ)
  | cs => (readDigits cs).map fun n : ℕ => (n : ℤ)

def readScientific (cs : List Char) : Option ℚ :=
  match cs.dropWhile fun c => c ≠ 'e' ∧ c ≠ 'E' with
  | [] => readMantissa cs
  | _ :: exponent =>
    (readMantissa (cs.takeWhile fun c => c ≠ 'e' ∧ c ≠ 'E')).bind fun q =>
      (readExponent exponent).map fun x => q * 10 ^ x

def readNumeral : List Char → Option ℚ
  | '-' :: cs => (readScientific cs).map fun q => -q
  | '+' :: cs => readScientific cs
  | cs => readScientific cs

variable {cs : List Char} {n : ℕ} {k : ℕ} {c d : Char} {z : ℤ}

lemma readDigits_toDigits (n : ℕ) : readDigits (Nat.toDigits 10 n) = some n := by
  have hd : (Nat.toDigits 10 n).all Char.isDigit = true :=
    all_eq_true.mpr fun c hc => isDigit_of_mem_toDigits (by decide) (by decide) hc
  rw [readDigits, if_pos ⟨toDigits_ne_nil, hd⟩, ofDigitChars_toDigits (by decide) (by decide)]

lemma ofDigitChars_lt (h : ∀ c ∈ cs, c.isDigit = true) :
    Nat.ofDigitChars 10 cs 0 < 10 ^ cs.length := by
  induction cs with
  | nil => decide
  | cons c cs ih =>
    rw [forall_mem_cons] at h
    have hc : c.toNat - '0'.toNat ≤ 9 := by
      have hd := h.1
      rw [Char.isDigit, Bool.and_eq_true, decide_eq_true_eq, decide_eq_true_eq] at hd
      have hn : c.toNat ≤ '9'.toNat := UInt32.le_iff_toNat_le.mp hd.2
      exact Nat.sub_le_sub_right hn '0'.toNat
    have hr := ih h.2
    rw [ofDigitChars_cons, ofDigitChars_eq_ofDigitChars_zero, length_cons, pow_succ]
    have hmul : 10 ^ cs.length * (10 * 0 + (c.toNat - '0'.toNat)) ≤ 10 ^ cs.length * 9 :=
      Nat.mul_le_mul_left _ (by omega)
    omega

lemma lt_of_readDigits (h : readDigits cs = some n) : n < 10 ^ cs.length := by
  rw [readDigits] at h
  split_ifs at h with hcs
  cases h
  exact ofDigitChars_lt (all_eq_true.mp hcs.2)

lemma readDigits_take (h : readDigits cs = some n) (hk : 0 < k) :
    readDigits (cs.take k) = some (n / 10 ^ (cs.length - k)) := by
  rw [readDigits] at h
  split_ifs at h with hcs
  cases h
  obtain ⟨hne, ha⟩ := hcs
  have hd : ∀ c ∈ cs, c.isDigit = true := all_eq_true.mp ha
  have ht : cs.take k ≠ [] ∧ (cs.take k).all Char.isDigit := by
    refine ⟨fun hnil => ?_, all_eq_true.mpr fun c hc => hd c (mem_of_mem_take hc)⟩
    rw [take_eq_nil_iff] at hnil
    rcases hnil with hz | hnil
    · omega
    · exact hne hnil
  have hs : Nat.ofDigitChars 10 cs 0 = 10 ^ (cs.drop k).length * Nat.ofDigitChars 10 (cs.take k) 0 +
        Nat.ofDigitChars 10 (cs.drop k) 0 := by
    rw [← ofDigitChars_eq_ofDigitChars_zero, ← ofDigitChars_append, take_append_drop]
  have hlt : Nat.ofDigitChars 10 (cs.drop k) 0 < 10 ^ (cs.length - k) := by
    rw [← length_drop]
    exact ofDigitChars_lt fun c hc => hd c (mem_of_mem_drop hc)
  rw [readDigits, if_pos ht, hs, length_drop, mul_add_div (by positivity),
    div_eq_of_lt hlt, Nat.add_zero]

lemma ne_of_mem_toDigits (hd : d.isDigit = false) (hc : c ∈ Nat.toDigits 10 n) : c ≠ d := by
  rintro rfl
  have hdig := isDigit_of_mem_toDigits (by decide) (by decide) hc
  rw [hd] at hdig
  cases hdig

lemma length_toDigits_eq_iff (hk : 0 < k) (hn : 0 < n) :
    (Nat.toDigits 10 n).length = k ↔ 10 ^ (k - 1) ≤ n ∧ n < 10 ^ k := by
  have hle : (Nat.toDigits 10 n).length ≤ k ↔ n < 10 ^ k :=
    length_toDigits_le_iff (by decide) hk
  have hlt : (Nat.toDigits 10 n).length ≤ k - 1 ↔ n < 10 ^ (k - 1) := by
    by_cases h : k - 1 = 0
    · have hpos : 0 < (Nat.toDigits 10 n).length :=
        length_pos_of_ne_nil toDigits_ne_nil
      rw [h, pow_zero]
      omega
    · exact length_toDigits_le_iff (by decide) (by omega)
  omega

lemma isDigit_of_readDigits (h : readDigits cs = some n) : ∀ c ∈ cs, c.isDigit = true := by
  rw [readDigits] at h
  split_ifs at h with hcs
  exact all_eq_true.mp hcs.2

lemma readScientific_of_readDigits (h : readDigits cs = some n) :
    readScientific cs = some (n : ℚ) := by
  have hne : ∀ c ∈ cs, ∀ d, d.isDigit = false → c ≠ d := by
    rintro c hc d hd rfl
    rw [isDigit_of_readDigits h c hc] at hd
    cases hd
  have he : cs.dropWhile (fun c => c ≠ 'e' ∧ c ≠ 'E') = [] :=
    dropWhile_eq_nil_iff.mpr fun c hc => decide_eq_true
      ⟨hne c hc 'e' rfl, hne c hc 'E' rfl⟩
  have hp : cs.dropWhile (· ≠ '.') = [] :=
    dropWhile_eq_nil_iff.mpr fun c hc => decide_eq_true (hne c hc '.' rfl)
  rw [readScientific, he]
  simp only [readMantissa, hp, h, Option.map_some]

lemma readNumeral_of_readDigits (h : readDigits cs = some n) : readNumeral cs = some (n : ℚ) := by
  have hd := isDigit_of_readDigits h
  rw [readNumeral.eq_def]
  split
  case _ => exact absurd (hd '-' (mem_cons_self ..)) (by decide)
  case _ => exact absurd (hd '+' (mem_cons_self ..)) (by decide)
  case _ => exact readScientific_of_readDigits h

lemma readUnsigned_toDigits (n : ℕ) : readUnsigned (Nat.toDigits 10 n) = some (n : ℚ) := by
  have hd : (Nat.toDigits 10 n).dropWhile (· ≠ '.') = [] := by
    refine dropWhile_eq_nil_iff.mpr ?_
    intro c hc
    exact decide_eq_true (ne_of_mem_toDigits (by decide) hc)
  rw [readUnsigned, hd, readDigits_toDigits]
  rfl

lemma readUnsigned_point (n f : ℕ) : readUnsigned (Nat.toDigits 10 n ++ '.' :: Nat.toDigits 10 f) =
    some ((n : ℚ) + (f : ℚ) / 10 ^ (Nat.toDigits 10 f).length) := by
  have hd : ∀ c ∈ Nat.toDigits 10 n, decide (c ≠ '.') = true := fun c hc =>
    decide_eq_true (ne_of_mem_toDigits (by decide) hc)
  have hdr : (Nat.toDigits 10 n ++ '.' :: Nat.toDigits 10 f).dropWhile (· ≠ '.') =
      '.' :: Nat.toDigits 10 f := by
    rw [dropWhile_append_of_pos hd]
    rfl
  have ht : (Nat.toDigits 10 n ++ '.' :: Nat.toDigits 10 f).takeWhile (· ≠ '.') =
      Nat.toDigits 10 n := by
    rw [takeWhile_append_of_pos hd]
    simp
  simp only [readUnsigned, hdr, ht, readDigits_toDigits]

lemma toList_toString_nat (n : ℕ) : (toString n).toList = Nat.toDigits 10 n := by
  rw [Nat.toString_eq_repr, toList_repr]

lemma toList_toString_natCast (n : ℕ) : (toString (n : ℤ)).toList = Nat.toDigits 10 n := by
  rw [Int.toString_eq_repr, repr_eq_if, if_pos (natCast_nonneg n), toNat_natCast, toList_repr]

lemma toList_toString_neg (hn : 0 < n) :
    (toString (-(n : ℤ))).toList = '-' :: Nat.toDigits 10 n := by
  rw [Int.toString_eq_repr, repr_eq_if, if_neg (by omega), neg_neg, toNat_natCast,
    String.toList_append, toList_repr]
  rfl

lemma ne_of_mem_toString_int (hd : d.isDigit = false) (hs : '-' ≠ d)
    (hc : c ∈ (toString z).toList) : c ≠ d := by
  rcases lt_or_ge z 0 with hneg | hn
  · obtain ⟨n, rfl⟩ := exists_eq_neg_ofNat (Int.le_of_lt hneg)
    rw [toList_toString_neg (by omega), mem_cons] at hc
    rcases hc with rfl | hc
    · exact hs
    · exact ne_of_mem_toDigits hd hc
  · obtain ⟨n, rfl⟩ := eq_ofNat_of_zero_le hn
    rw [toList_toString_natCast] at hc
    exact ne_of_mem_toDigits hd hc

lemma readDecimal_toDigits_append (n : ℕ) (cs : List Char) :
    readDecimal (Nat.toDigits 10 n ++ cs) = readUnsigned (Nat.toDigits 10 n ++ cs) := by
  rw [readDecimal.eq_def]
  split
  case _ cs' heq =>
    have hh : (Nat.toDigits 10 n ++ cs).head? = _ :=
      head?_append_of_ne_nil _ toDigits_ne_nil
    rw [heq, head?_cons] at hh
    exact absurd rfl (ne_of_mem_toDigits (by decide) (mem_of_mem_head? hh.symm))
  case _ => rfl

lemma readDecimal_toString (z : ℤ) : readDecimal (toString z).toList = some (z : ℚ) := by
  rcases lt_or_ge z 0 with hneg | hn
  · obtain ⟨n, rfl⟩ := exists_eq_neg_ofNat (Int.le_of_lt hneg)
    rw [toList_toString_neg (by omega), readDecimal, readUnsigned_toDigits]
    simp
  · obtain ⟨n, rfl⟩ := eq_ofNat_of_zero_le hn
    have ha := readDecimal_toDigits_append n []
    rw [append_nil] at ha
    rw [toList_toString_natCast, ha, readUnsigned_toDigits]
    simp

lemma toString_int_inj {a b : ℤ} : toString a = toString b ↔ a = b := by
  refine ⟨fun h => ?_, congrArg toString⟩
  have hr := readDecimal_toString a
  rw [h, readDecimal_toString, Option.some.injEq] at hr
  exact_mod_cast hr.symm

lemma readDecimal_point (z : ℤ) (f : ℕ) : readDecimal (toString z ++ "." ++ toString f).toList =
    some (if z < 0 then (z : ℚ) - f / 10 ^ (Nat.toDigits 10 f).length
      else (z : ℚ) + f / 10 ^ (Nat.toDigits 10 f).length) := by
  rw [String.append_assoc, String.toList_append, String.toList_append, toList_toString_nat]
  rcases lt_or_ge z 0 with hneg | hn
  · rw [if_pos hneg]
    obtain ⟨n, rfl⟩ := exists_eq_neg_ofNat (Int.le_of_lt hneg)
    have hp := readUnsigned_point n f
    rw [toList_toString_neg (by omega), cons_append, readDecimal]
    rw [show ".".toList ++ Nat.toDigits 10 f = '.' :: Nat.toDigits 10 f from rfl, hp]
    simp only [Option.map_some, cast_neg, cast_natCast, neg_add, sub_eq_add_neg]
  · rw [if_neg (by omega)]
    obtain ⟨n, rfl⟩ := eq_ofNat_of_zero_le hn
    have hp := readUnsigned_point n f
    rw [toList_toString_natCast, readDecimal_toDigits_append]
    rw [show ".".toList ++ Nat.toDigits 10 f = '.' :: Nat.toDigits 10 f from rfl, hp]
    simp

lemma readDecimal_point_iff {f k : ℕ} (hk : 0 < k) (hf : f < 10 ^ k) :
    readDecimal (toString z ++ "." ++ toString f).toList = some ((z : ℚ) + f / 10 ^ k) ↔
      f = 0 ∨ 0 ≤ z ∧ 10 ^ (k - 1) ≤ f := by
  rw [readDecimal_point, Option.some.injEq]
  rcases Nat.eq_zero_or_pos f with rfl | hpos
  · simp
  · have hfp : (0 : ℚ) < f := by exact_mod_cast hpos
    have hl := length_toDigits_eq_iff hk hpos
    split_ifs with hneg
    · -- the fraction is subtracted, and should be added
      have h₁ : (0 : ℚ) < f / 10 ^ (Nat.toDigits 10 f).length := by positivity
      have h₂ : (0 : ℚ) < f / 10 ^ k := by positivity
      constructor
      · intro h
        linarith
      · omega
    · have hdiv : (f : ℚ) / 10 ^ (Nat.toDigits 10 f).length = f / 10 ^ k ↔
          (Nat.toDigits 10 f).length = k := by
        rw [div_eq_mul_inv, div_eq_mul_inv, mul_right_inj' (ne_of_gt hfp), inv_inj]
        exact pow_right_inj₀ (by norm_num) (by norm_num)
      rw [add_right_inj, hdiv, hl]
      omega

lemma readDecimal_divMod_iff {v : ℤ} (hk : 0 < k) :
    readDecimal (toString (v / 10 ^ k) ++ "." ++ toString (v % 10 ^ k).toNat).toList =
        some ((v : ℚ) / 10 ^ k) ↔ 10 ^ k ∣ v ∨ 0 ≤ v ∧ 10 ^ (k - 1) ≤ v % 10 ^ k := by
  have hpow : (0 : ℤ) < 10 ^ k := by positivity
  have hn : 0 ≤ v % 10 ^ k := emod_nonneg v (ne_of_gt hpow)
  obtain ⟨f, hf⟩ := eq_ofNat_of_zero_le hn
  have hlt : f < 10 ^ k := by
    have h := emod_lt_of_pos v hpow
    rw [hf] at h
    exact_mod_cast h
  have hv : ((v / 10 ^ k : ℤ) : ℚ) + f / 10 ^ k = v / 10 ^ k := by
    have h : (10 : ℤ) ^ k * (v / 10 ^ k) + f = v := by
      rw [← hf]
      exact mul_ediv_add_emod v (10 ^ k)
    have hc : (10 : ℚ) ^ k * ((v / 10 ^ k : ℤ) : ℚ) + f = v := by exact_mod_cast h
    rw [← hc]
    field_simp
  rw [hf, toNat_natCast, ← hv, readDecimal_point_iff hk hlt]
  refine or_congr ?_ (and_congr ?_ ?_)
  · rw [dvd_iff_emod_eq_zero, hf, natCast_eq_zero]
  · exact Int.le_ediv_iff_mul_le hpow |>.trans (by rw [zero_mul])
  · exact_mod_cast Iff.rfl

end Rustice
