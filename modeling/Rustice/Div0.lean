import Rustice.Decimal128
import Rustice.Decimal96
import Rustice.Fallible

/-!
# `DIV0` and `DIV0NULL`

The decimal branch of `DIV0`: columns of integers are cast to decimals without digits after the
point, and each row is divided with 96 bits.
-/

namespace Rustice

open Decimal96 (FitsAt roundToFit)

def integerType : DecimalType where
  precision := 38
  scale := 0
  precision_le := le_rfl
  scale_le := Int.natCast_nonneg 38
  le_scale := by decide

inductive NumberColumn where
  | decimal (column : DecimalColumn)
  | integer (values : List (Option ℤ)) (natAbs_lt : ∀ v, some v ∈ values → v.natAbs < 2 ^ 64)

def NumberColumn.toDecimal : NumberColumn → DecimalColumn
  | decimal column => column
  | integer values natAbs_lt =>
    ⟨integerType, values, fun v hv => lt_trans (natAbs_lt v hv) (by decide)⟩

inductive Div0Arg where
  | numbers (column : NumberColumn)
  | nulls (rows : ℕ)

def Div0Arg.isNull : Div0Arg → Bool
  | numbers _ => false
  | nulls _ => true

def Div0Arg.toDecimal : Div0Arg → DecimalColumn
  | numbers column => column.toDecimal
  | nulls rows =>
    ⟨integerType, List.replicate rows none, fun _ hv => by cases List.eq_of_mem_replicate hv⟩

def asU8 (s : ℤ) : ℕ := (s % 2 ^ 8).toNat

def asI8 (n : ℕ) : ℤ := (n : ℤ).bmod (2 ^ 8)

def saturatingAdd (a b : ℕ) : ℕ := min (a + b) 255

variable {s : ℤ}

lemma asU8_of_nonneg (hs : 0 ≤ s) (hle : s ≤ 38) : asU8 s = s.toNat := by
  rw [asU8]
  omega

lemma asU8_of_neg (hs : s < 0) (hle : -128 ≤ s) : asU8 s = (s + 256).toNat := by
  rw [asU8]
  omega

lemma asI8_of_le {n : ℕ} (hn : n ≤ 127) : asI8 n = n := Int.bmod_eq_of_le (by omega) (by omega)

lemma asI8_of_gt {n : ℕ} (hn : 127 < n) (hle : n ≤ 255) : asI8 n < 0 := by
  have hw : asI8 n = (n : ℤ) % (2 ^ 8 : ℕ) - (2 ^ 8 : ℕ) := Int.bmod_neg _ _ (by omega)
  omega

lemma saturatingAdd_of_le {a b : ℕ} (h : a + b ≤ 255) : saturatingAdd a b = a + b :=
  Nat.min_eq_left h

def calculatePrecisionAndScale (dividend divisor : DecimalType) : ℕ × ℤ :=
  let s1 := asU8 dividend.scale
  let s2 := asU8 divisor.scale
  let l1 := dividend.precision - s1
  let lOutput := saturatingAdd l1 s2
  let sOutput := max s1 (min (saturatingAdd s1 6) 12)
  (min (saturatingAdd lOutput sOutput) 38, asI8 sOutput)

inductive Div0Error where
  | invalidDecimalType (precision : ℕ) (scale : ℤ)
  | panicked
  deriving DecidableEq

inductive Div0Result where
  | null
  | decimals (precision : ℕ) (scale : ℤ) (values : List (Option ℤ))
  deriving DecidableEq

structure Div0Func where
  null : Bool

namespace Div0Func

variable (func : Div0Func) (division : Decimal96.Division)

def divide (dividendScale divisorScale s dividend divisor : ℤ) : Except Div0Error ℤ :=
  match Decimal96.fromI128WithScale dividend (asU32 dividendScale),
    Decimal96.fromI128WithScale divisor (asU32 divisorScale) with
  | some dividend, some divisor =>
    if divisor.mantissa = 0 then .ok 0
    else
      match division.div dividend divisor with
      | some r => .ok (r.rescale (asU32 s)).mantissa
      | none => .error .panicked
  | _, _ => .error .panicked

def divideRow (dividendScale divisorScale s : ℤ) :
    Option ℤ × Option ℤ → Except Div0Error (Option ℤ)
  | (some dividend, some divisor) =>
    (divide division dividendScale divisorScale s dividend divisor).map some
  | _ => .ok (if func.null then some 0 else none)

def withPrecisionAndScale (precision : ℕ) (scale : ℤ) (values : List (Option ℤ)) :
    Except Div0Error Div0Result :=
  if precision = 0 ∨ 38 < precision ∨ 38 < scale ∨ (0 < scale ∧ precision < scale) then
    .error (.invalidDecimalType precision scale)
  else .ok (.decimals precision scale values)

def invokeDecimals (dividend divisor : DecimalColumn) : Except Div0Error Div0Result := do
  let (p, s) := calculatePrecisionAndScale dividend.toDecimalType divisor.toDecimalType
  let a ← (dividend.values.zip divisor.values).mapM
    (func.divideRow division dividend.scale divisor.scale s)
  withPrecisionAndScale p s a

def invokeWithArgs (dividend divisor : Div0Arg) : Except Div0Error Div0Result :=
  if (dividend.isNull || divisor.isNull) && !func.null then .ok .null
  else func.invokeDecimals division dividend.toDecimal divisor.toDecimal

end Div0Func

def DecimalType.number (type : DecimalType) (value : ℤ) : ℚ := value / 10 ^ type.scale

namespace Div0Func

variable {dividend dv divisor di : DecimalType}

/-- Zero for a divisor of zero, and otherwise nearest to the quotient. -/
def RowExact (dividend divisor : DecimalType) (precision : ℕ) (scale : ℤ) :
    Option ℤ × Option ℤ → Option ℤ → Prop
  | (some a, some b), value =>
    if b = 0 then value = some 0
    else ∃ v, value = some v ∧ v.natAbs < 10 ^ precision ∧
      Nearest (dividend.number a / divisor.number b * 10 ^ scale) v
  | _, _ => True

def Exact (dividend divisor : DecimalColumn) (result : Except Div0Error Div0Result) : Prop :=
  (∃ e ≠ Div0Error.panicked, result = .error e) ∨
    ∃ p scale values, result = .ok (.decimals p scale values) ∧
      List.Forall₂ (RowExact dividend.toDecimalType divisor.toDecimalType p scale)
        (dividend.values.zip divisor.values) values

def outputScale (scale : ℤ) : ℕ := max scale.toNat (min (scale.toNat + 6) 12)

/-- There is room for the values and the quotient, which is not moved onto a tie when it is
computed. -/
def RowFits (dividend divisor : DecimalType) : Option ℤ × Option ℤ → Prop
  | (some a, some b) =>
    (a.natAbs < 2 ^ 96 ∧ 0 ≤ dividend.scale ∧ dividend.scale ≤ 28) ∧
    (b.natAbs < 2 ^ 96 ∧ 0 ≤ divisor.scale ∧ divisor.scale ≤ 28) ∧
    (b ≠ 0 → FitsAt (dividend.number a / divisor.number b) (outputScale dividend.scale) ∧
      ¬ (Int.fract (roundToFit (dividend.number a / divisor.number b) *
          10 ^ outputScale dividend.scale) = 1 / 2 ∧
        |dividend.number a / divisor.number b| <
          |roundToFit (dividend.number a / divisor.number b)|))
  | _ => True

lemma scale_of_nonneg (di : DecimalType) (hs : 0 ≤ dv.scale) :
    (calculatePrecisionAndScale dv di).2 = outputScale dv.scale := by
  have hle : dv.scale ≤ 38 := le_trans dv.scale_le (mod_cast dv.precision_le)
  have hsix := @saturatingAdd_of_le dv.scale.toNat 6 (by omega)
  have hi := @asI8_of_le (outputScale dv.scale) (by rw [outputScale]; omega)
  rw [outputScale] at hi ⊢
  simp only [calculatePrecisionAndScale, asU8_of_nonneg hs hle, hsix, hi]

lemma outputScale_bounds (s : ℤ) : s.toNat ≤ outputScale s ∧ (s ≤ 28 → outputScale s ≤ 28) := by
  rw [outputScale]
  omega

lemma precision_of_nonneg (hs : 0 ≤ dv.scale) (hs' : 0 ≤ di.scale) :
    (calculatePrecisionAndScale dv di).1 =
      min (dv.precision - dv.scale.toNat + di.scale.toNat + outputScale dv.scale) 38 := by
  have hp := dv.precision_le
  have hle : dv.scale ≤ 38 := le_trans dv.scale_le (mod_cast hp)
  have hl' : di.scale ≤ 38 := le_trans di.scale_le (mod_cast di.precision_le)
  have hsix := @saturatingAdd_of_le dv.scale.toNat 6 (by omega)
  have hd := @saturatingAdd_of_le (dv.precision - dv.scale.toNat) di.scale.toNat (by omega)
  have ho : outputScale dv.scale ≤ 50 := by
    rw [outputScale]
    omega
  have ha := @saturatingAdd_of_le
    (dv.precision - dv.scale.toNat + di.scale.toNat)
    (outputScale dv.scale) (by omega)
  rw [outputScale] at ha ⊢
  simp only [calculatePrecisionAndScale, asU8_of_nonneg hs hle, asU8_of_nonneg hs' hl',
    hsix, hd, ha]

lemma withPrecisionAndScale_eq_ok (dv di : DecimalType) (vs : List (Option ℤ)) :
    withPrecisionAndScale (calculatePrecisionAndScale dv di).1
        (calculatePrecisionAndScale dv di).2 vs =
          .ok (.decimals (calculatePrecisionAndScale dv di).1
        (calculatePrecisionAndScale dv di).2 vs) := by
  have hs : ∀ n : ℕ, n ≤ 38 ∨ (127 < n ∧ n ≤ 255) → asI8 n ≤ 38 ∧ asI8 n ≤ min n 38 := by
    rintro n (hn | ⟨hn, hle⟩)
    · rw [asI8_of_le (by omega)]
      omega
    · have hneg := asI8_of_gt hn hle
      omega
  have hle := dv.scale_le
  have hp := dv.precision_le
  have ho : asU8 dv.scale ≤ 38 ∨ (127 < asU8 dv.scale ∧ asU8 dv.scale ≤ 255) := by
    by_cases hneg : dv.scale < 0
    · rw [asU8_of_neg hneg dv.le_scale]
      have hmin := dv.le_scale
      omega
    · rw [asU8_of_nonneg (by omega) (by omega)]
      omega
  rw [withPrecisionAndScale, if_neg]
  simp only [calculatePrecisionAndScale]
  generalize asU8 dv.scale = s1 at ho ⊢
  generalize saturatingAdd (dv.precision - s1) (asU8 di.scale) = digits
  have hot : 6 ≤ max s1 (min (saturatingAdd s1 6) 12) ∧
      (max s1 (min (saturatingAdd s1 6) 12) ≤ 38 ∨ (127 < max s1 (min (saturatingAdd s1 6) 12) ∧
        max s1 (min (saturatingAdd s1 6) 12) ≤ 255)) := by
    rw [saturatingAdd]
    omega
  generalize max s1 (min (saturatingAdd s1 6) 12) = out at hot ⊢
  obtain ⟨hmax, hmin⟩ := hs out hot.2
  have hd : min out 38 ≤ min (saturatingAdd digits out) 38 := by
    rw [saturatingAdd]
    omega
  omega

variable {ty : DecimalType} {n : ℤ}

lemma asU32_le_iff (ty : DecimalType) : asU32 ty.scale ≤ 28 ↔ 0 ≤ ty.scale ∧ ty.scale ≤ 28 := by
  have hle := ty.scale_le
  have hp := ty.precision_le
  have hmin := ty.le_scale
  rw [asU32]
  omega

lemma asU32_of_nonneg (hs : 0 ≤ s) (hle : s ≤ 28) : asU32 s = s.toNat := by
  rw [asU32]
  omega

lemma fromI128WithScale_of_le (hn : n.natAbs < 2 ^ 96) (hs : 0 ≤ ty.scale ∧ ty.scale ≤ 28) :
    Decimal96.fromI128WithScale n (asU32 ty.scale) = some ⟨n, ty.scale.toNat, hn⟩ := by
  rw [asU32_of_nonneg hs.1 hs.2, Decimal96.fromI128WithScale]
  exact dif_pos ⟨hn, by omega⟩

lemma fromI128WithScale_of_not (h : ¬ (n.natAbs < 2 ^ 96 ∧ 0 ≤ ty.scale ∧ ty.scale ≤ 28)) :
    Decimal96.fromI128WithScale n (asU32 ty.scale) = none :=
  dif_neg fun hf => h ⟨hf.1, (asU32_le_iff ty).mp hf.2⟩

lemma number_of_nonneg (hs : 0 ≤ ty.scale) (n : ℤ) : ty.number n = n / 10 ^ ty.scale.toNat := by
  rw [DecimalType.number, ← zpow_natCast, Int.toNat_of_nonneg hs]

lemma quotient_mul_pow (hsc : 0 ≤ dv.scale)
    (hs' : 0 ≤ di.scale) {s : ℕ} (hs : dv.scale.toNat ≤ s) (a b : ℤ) :
    dv.number a / di.number b * 10 ^ s = a * 10 ^ (s - dv.scale.toNat + di.scale.toNat) / b := by
  obtain ⟨k, rfl⟩ := Nat.exists_eq_add_of_le hs
  rw [number_of_nonneg hsc, number_of_nonneg hs', Nat.add_sub_cancel_left, pow_add, pow_add]
  field_simp

lemma natAbs_lt_precision {a b v : ℤ} (hsc : 0 ≤ dv.scale) (hs' : 0 ≤ di.scale) (hb : b ≠ 0)
    (ha : a.natAbs < 10 ^ dv.precision) (hv : v.natAbs < 2 ^ 96)
    (h : Nearest (dv.number a / di.number b * 10 ^ outputScale dv.scale) v) :
    v.natAbs < 10 ^ (calculatePrecisionAndScale dv di).1 := by
  have hs := (outputScale_bounds dv.scale).1
  have hle : dv.scale.toNat ≤ dv.precision := by
    have := dv.scale_le
    omega
  have hn : v.natAbs ≤ a.natAbs *
      10 ^ (outputScale dv.scale - dv.scale.toNat + di.scale.toNat) := by
    refine h.natAbs_le ?_
    -- The divisor is an integer other than zero, so the quotient is not larger than the dividend.
    have ho : (1 : ℚ) ≤ |(b : ℚ)| := by
      have hint : 1 ≤ |b| := Int.one_le_abs hb
      exact_mod_cast hint
    rw [quotient_mul_pow hsc hs' hs, abs_div, abs_mul, abs_pow, Nat.cast_mul, Nat.cast_pow,
      Nat.cast_natAbs, Int.cast_abs]
    exact div_le_self (by positivity) ho
  generalize hk : outputScale dv.scale - dv.scale.toNat + di.scale.toNat = k at hn
  have hd : v.natAbs < 10 ^ (dv.precision - dv.scale.toNat +
      di.scale.toNat + outputScale dv.scale) :=
    calc v.natAbs ≤ a.natAbs * 10 ^ k := hn
      _ < 10 ^ dv.precision * 10 ^ k := Nat.mul_lt_mul_of_pos_right ha (by positivity)
      _ = 10 ^ (dv.precision - dv.scale.toNat + di.scale.toNat + outputScale dv.scale) := by
          rw [← pow_add]
          congr 1
          omega
  rw [precision_of_nonneg hsc hs']
  rcases min_choice (dv.precision - dv.scale.toNat + di.scale.toNat +
    outputScale dv.scale) 38 with heq | heq
  · rw [heq]
    exact hd
  · rw [heq]
    exact lt_trans hv (by norm_num)

variable {func f : Div0Func} {division d : Decimal96.Division}

lemma divide_of_not {a b s : ℤ} (h : ¬ ((a.natAbs < 2 ^ 96 ∧ 0 ≤ dv.scale ∧ dv.scale ≤ 28) ∧
      (b.natAbs < 2 ^ 96 ∧ 0 ≤ di.scale ∧ di.scale ≤ 28))) :
    divide d dv.scale di.scale s a b = .error .panicked := by
  rw [divide]
  rcases not_and_or.mp h with hd | hdiv
  · rw [fromI128WithScale_of_not hd]
  · rw [fromI128WithScale_of_not hdiv]
    cases Decimal96.fromI128WithScale a (asU32 dv.scale) <;> rfl

lemma divide_exact_iff {a b : ℤ} (ha : a.natAbs < 10 ^ dv.precision) :
    (∃ val, (divide d dv.scale di.scale (calculatePrecisionAndScale dv di).2 a b).map some =
      .ok val ∧
      RowExact dv di (calculatePrecisionAndScale dv di).1
        (calculatePrecisionAndScale dv di).2 (some a, some b) val) ↔
    RowFits dv di (some a, some b) := by
  by_cases hf : (a.natAbs < 2 ^ 96 ∧ 0 ≤ dv.scale ∧ dv.scale ≤ 28) ∧
      (b.natAbs < 2 ^ 96 ∧ 0 ≤ di.scale ∧ di.scale ≤ 28)
  · obtain ⟨⟨hbi, hs⟩, hb', hs'⟩ := hf
    have hot := (outputScale_bounds dv.scale).2 hs.2
    rw [divide, fromI128WithScale_of_le hbi hs, fromI128WithScale_of_le hb' hs',
      scale_of_nonneg di hs.1]
    have hz : (10 : ℚ) ^ (outputScale dv.scale : ℤ) = 10 ^ outputScale dv.scale :=
      zpow_natCast ..
    have hq : (Decimal96.mk a dv.scale.toNat hbi).value /
        (Decimal96.mk b di.scale.toNat hb').value =
        dv.number a / di.number b := by
      rw [number_of_nonneg hs.1, number_of_nonneg hs'.1]
      rfl
    simp only [RowExact, RowFits, hbi, hs, hb', hs', true_and, and_true, hz]
    by_cases hb : b = 0
    · simp [hb, Except.map]
    · simp only [ne_eq, hb, not_false_eq_true, forall_const]
      cases hdiv : d.div (.mk a dv.scale.toNat hbi) (.mk b di.scale.toNat hb') with
      | none =>
        have ho := (d.div_eq_none_iff _ _ hb).mp hdiv
        rw [hq] at ho
        refine iff_of_false ?_ fun h => ho (Decimal96.fitsAt_of_le (Nat.zero_le _) h.1)
        rintro ⟨val, hv, -⟩
        cases hv
      | some r =>
        have hnea := Decimal96.Division.nearest_rescale_div_iff hot hb hdiv
        rw [hq] at hnea
        have hu3 : asU32 (outputScale dv.scale : ℤ) = outputScale dv.scale :=
          asU32_of_nonneg (by omega) (by omega)
        rw [hu3, ← hnea]
        constructor
        · rintro ⟨val, hv, v, rfl, -, hn⟩
          cases hv
          exact hn
        · intro hn
          exact ⟨_, rfl, _, rfl, natAbs_lt_precision hs.1 hs'.1 hb ha
            (r.rescale _).natAbs_lt hn, hn⟩
  · rw [divide_of_not hf]
    refine iff_of_false ?_ fun h => hf ⟨h.1, h.2.1⟩
    rintro ⟨val, hv, -⟩
    cases hv

lemma divideRow_exact_iff {row : Option ℤ × Option ℤ}
    (hr : ∀ a, row.1 = some a → a.natAbs < 10 ^ dv.precision) :
    (∃ v, f.divideRow d dv.scale di.scale
        (calculatePrecisionAndScale dv di).2 row = .ok v ∧
      RowExact dv di (calculatePrecisionAndScale dv di).1
        (calculatePrecisionAndScale dv di).2 row v) ↔ RowFits dv di row := by
  rcases row with ⟨_ | a, _ | b⟩
  · exact iff_of_true ⟨_, rfl, trivial⟩ trivial
  · exact iff_of_true ⟨_, rfl, trivial⟩ trivial
  · exact iff_of_true ⟨_, rfl, trivial⟩ trivial
  · exact divide_exact_iff (hr a rfl)

lemma invokeDecimals_eq (dv di : DecimalColumn) : f.invokeDecimals d dv di =
    ((dv.values.zip di.values).mapM (f.divideRow d dv.scale di.scale
        (calculatePrecisionAndScale dv.toDecimalType di.toDecimalType).2)).map
      (.decimals (calculatePrecisionAndScale dv.toDecimalType di.toDecimalType).1
        (calculatePrecisionAndScale dv.toDecimalType di.toDecimalType).2) := by
  simp only [invokeDecimals, withPrecisionAndScale_eq_ok]
  cases (dv.values.zip di.values).mapM (f.divideRow d dv.scale
    di.scale (calculatePrecisionAndScale dv.toDecimalType di.toDecimalType).2) with
  | error e => rfl
  | ok values => rfl

lemma eq_panicked_of_divideRow {s s' o : ℤ} {r : Option ℤ × Option ℤ} {e : Div0Error}
    (h : f.divideRow d s s' o r = .error e) : e = .panicked := by
  rcases r with ⟨_ | a, _ | b⟩
  · cases h
  · cases h
  · cases h
  · rw [divideRow, divide] at h
    split at h
    · split_ifs at h
      · cases h
      · split at h
        · cases h
        · cases h
          rfl
    · cases h
      rfl

lemma invokeDecimals_exact_iff (dv di : DecimalColumn) : Exact dv di (f.invokeDecimals d dv di) ↔
    ∀ row ∈ dv.values.zip di.values, RowFits dv.toDecimalType di.toDecimalType row := by
  have hrw : (∃ vs, (dv.values.zip di.values).mapM
        (f.divideRow d dv.scale di.scale
          (calculatePrecisionAndScale dv.toDecimalType di.toDecimalType).2) =
        .ok vs ∧
      List.Forall₂ (RowExact dv.toDecimalType di.toDecimalType
        (calculatePrecisionAndScale dv.toDecimalType di.toDecimalType).1
        (calculatePrecisionAndScale dv.toDecimalType di.toDecimalType).2)
        (dv.values.zip di.values) vs) ↔
      ∀ row ∈ dv.values.zip di.values, RowFits dv.toDecimalType di.toDecimalType row := by
    rw [exists_mapM_eq_ok_iff]
    refine forall₂_congr fun row hr => divideRow_exact_iff fun a ha => ?_
    exact dv.natAbs_lt a (ha ▸ (List.of_mem_zip hr).1)
  rw [← hrw, Exact, invokeDecimals_eq]
  cases hmap : (dv.values.zip di.values).mapM
    (f.divideRow d dv.scale di.scale
      (calculatePrecisionAndScale dv.toDecimalType di.toDecimalType).2) with
  | error e =>
    obtain ⟨row, -, hr⟩ := exists_of_mapM_eq_error hmap
    cases eq_panicked_of_divideRow hr
    refine iff_of_false ?_ ?_
    · rintro (⟨e, he, h⟩ | ⟨_, _, _, h, -⟩)
      · cases h
        exact he rfl
      · cases h
    · rintro ⟨vs, h, -⟩
      cases h
  | ok vs =>
    constructor
    · rintro (⟨e, -, h⟩ | ⟨_, _, _, h, hal⟩)
      · cases h
      · cases h
        exact ⟨vs, rfl, hal⟩
    · rintro ⟨vs', h, hal⟩
      cases h
      exact .inr ⟨_, _, vs, rfl, hal⟩

/-! ### Main result -/

/-- **Quotients of decimals** are exact exactly when there is room for each. -/
theorem exact_iff (func : Div0Func) (division : Decimal96.Division)
    (dividend divisor : NumberColumn) :
    Exact dividend.toDecimal divisor.toDecimal
        (func.invokeWithArgs division (.numbers dividend) (.numbers divisor)) ↔
      ∀ row ∈ dividend.toDecimal.values.zip divisor.toDecimal.values,
        RowFits dividend.toDecimal.toDecimalType divisor.toDecimal.toDecimalType row :=
  invokeDecimals_exact_iff dividend.toDecimal divisor.toDecimal

def oneRow (n : ℤ) (hn : n.natAbs < 10 ^ 38) : NumberColumn :=
  .decimal (Decimal128.column ⟨integerType, n, hn⟩)

example : (Div0Func.mk true).invokeWithArgs .toEven (.numbers (oneRow (-2) (by decide)))
    (.numbers (oneRow 3 (by decide))) = .ok (.decimals 38 6 [some (-666667)]) := by
  decide +kernel

theorem exact_fails :
    (Div0Func.mk false).invokeWithArgs .toEven (.numbers (oneRow (10 ^ 23) (by decide)))
        (.numbers (oneRow 1 (by decide))) = .ok (.decimals 38 6 [some (10 ^ 28)]) ∧
    (Div0Func.mk false).invokeWithArgs .toEven
        (.numbers (oneRow (2 * 10 ^ 22 - 1) (by decide)))
        (.numbers (oneRow (4 * 10 ^ 28) (by decide))) = .ok (.decimals 38 6 [some 1]) ∧
    ¬ Nearest ((2 * 10 ^ 22 - 1 : ℚ) / (4 * 10 ^ 28) * 10 ^ 6) 1 ∧
    (Div0Func.mk false).invokeWithArgs .toEven (.numbers (oneRow (2 ^ 96) (by decide)))
        (.numbers (oneRow 0 (by decide))) = .error .panicked ∧
    ¬ Exact (oneRow (10 ^ 23) (by decide)).toDecimal (oneRow 1 (by decide)).toDecimal
      ((Div0Func.mk false).invokeWithArgs .toEven (.numbers (oneRow (10 ^ 23) (by decide)))
        (.numbers (oneRow 1 (by decide)))) := by
  have hs : (Div0Func.mk false).invokeWithArgs .toEven
      (.numbers (oneRow (10 ^ 23) (by decide))) (.numbers (oneRow 1 (by decide))) =
      .ok (.decimals 38 6 [some (10 ^ 28)]) := by decide +kernel
  refine ⟨hs, by decide +kernel, ?_, by decide +kernel, ?_⟩
  · rw [nearest_iff, abs_le]
    norm_num
  · rw [hs]
    rintro (⟨e, -, h⟩ | ⟨precision, scale, values, h, ha⟩)
    · cases h
    · cases h
      obtain ⟨v, hv, -, hn⟩ := (List.forall₂_cons.mp ha).1
      cases hv
      rw [nearest_iff, abs_le] at hn
      norm_num [DecimalType.number, oneRow, NumberColumn.toDecimal, Decimal128.column,
        integerType] at hn

end Div0Func

end Rustice
