import Rustice.Columnar
import Rustice.Timestamp

/-!
# `ARRAY_GENERATE_RANGE`

The terms of all rows of a batch are appended to one array, which is the result for each row.
-/

namespace Rustice

open List TimeEnv

def stepBy (start stop : ℤ) (step : ℕ) : List ℤ :=
  (range ((stop - start + step - 1) / step).toNat).map fun k : ℕ => start + k * step

def progression (start stop step : ℤ) : List ℤ :=
  if 0 < step then stepBy start stop step.toNat
  else (stepBy (-start) (-stop) (-step).toNat).map (- ·)

structure RangeRow where
  start : Option ℤ
  stop : Option ℤ
  step : Option ℤ
  isI64 : ∀ n ∈ step, IsI64 n

inductive RangeError where
  | panicked
  | failed (message : String)

namespace RangeRow

/-- What the row appends; `as usize` wraps the step. -/
def terms (row : RangeRow) : Except RangeError (List ℤ) :=
  match row.start, row.stop, row.step with
  | some start, some stop, some step =>
    if (step % 2 ^ 64).toNat = 0 then .error .panicked
    else .ok (stepBy start stop (step % 2 ^ 64).toNat)
  | _, _, _ => .ok []

def expected (row : RangeRow) : Option (List ℤ) := do
  return progression (← row.start) (← row.stop) (← row.step)

def HasZeroStep (row : RangeRow) : Prop :=
  row.start.isSome ∧ row.stop.isSome ∧ row.step = some 0

def Regular (row : RangeRow) : Prop :=
  ∃ start ∈ row.start, ∃ stop ∈ row.stop, ∃ step ∈ row.step, step ≠ 0 ∧ (step < 0 → stop ≤ start)

def hasPositiveStep (row : RangeRow) : Bool := row.step.any (0 < ·)

end RangeRow

def arrayGenerateRange (rows : List RangeRow) : Except RangeError (List ℤ) :=
  (rows.mapM RangeRow.terms).map List.flatten

/-- Every row gets its own array, and a zero step is an error. -/
def GivesProgressions (rows : List RangeRow) : Prop :=
  ((∃ row ∈ rows, row.HasZeroStep) → ∃ m, arrayGenerateRange rows = .error (.failed m)) ∧
  ((∀ row ∈ rows, ¬ row.HasZeroStep) → ∃ result, arrayGenerateRange rows = .ok result ∧
    ∀ row ∈ rows, row.expected = some result)

variable {start s stop step st : ℤ} {row : RangeRow} {rows rs : List RangeRow} {E : List ℤ}
  {e : RangeError}

lemma stepBy_eq_nil_iff {st : ℕ} (h : 0 < st) : stepBy start stop st = [] ↔ stop ≤ start := by
  rw [stepBy, map_eq_nil_iff, range_eq_nil, Int.toNat_eq_zero, ← Int.lt_add_one_iff, zero_add,
    Int.ediv_lt_iff_lt_mul (by omega)]
  omega

lemma progression_of_neg (hs : st < 0) : progression s stop st = [] ↔ s ≤ stop := by
  rw [progression, if_neg (by omega), map_eq_nil_iff, stepBy_eq_nil_iff (by omega)]
  omega

namespace RangeRow

lemma terms_eq_error (h : row.terms = .error e) : e = .panicked := by
  rw [terms] at h
  split at h
  · split_ifs at h
    exact (Except.error.inj h).symm
  · cases h

lemma Regular.terms_eq (h : row.Regular) (hE : row.expected = some E) :
    row.terms = .ok (if row.hasPositiveStep then E else []) := by
  obtain ⟨s, hst, stop, hstp, st, hs, hne, hneg⟩ := h
  obtain ⟨hl, hh⟩ := row.isI64 st hs
  rw [Option.mem_def] at hst hstp hs
  simp only [expected, hst, hstp, hs, Option.pure_def, Option.bind_eq_bind, Option.bind_some,
    Option.some.injEq] at hE
  simp only [terms, hasPositiveStep, hst, hstp, hs, Option.any_some, decide_eq_true_eq]
  rw [if_neg (by omega)]
  split_ifs with hpos
  · rw [← hE, progression, if_pos hpos, Int.emod_eq_of_lt hpos.le (by omega)]
  · rw [(stepBy_eq_nil_iff (by omega)).mpr (hneg (by omega))]

lemma regular_of_expected (hE : row.expected = some E) (hz : ¬ row.HasZeroStep)
    (ht : E = [] → row.terms = .ok []) : row.Regular := by
  obtain ⟨s, stop, st, hi6⟩ := row
  simp only [expected, Option.pure_def, Option.bind_eq_bind, Option.bind_eq_some_iff,
    Option.some.injEq] at hE
  obtain ⟨s, rfl, stop, rfl, st, rfl, rfl⟩ := hE
  obtain ⟨hl, hh⟩ := hi6 st rfl
  have hne : st ≠ 0 := fun h => hz ⟨rfl, rfl, congrArg some h⟩
  refine ⟨s, rfl, stop, rfl, st, rfl, hne, fun hneg => ?_⟩
  by_contra hlt
  have hnil := ht ((progression_of_neg hneg).mpr (by omega))
  simp only [terms] at hnil
  rw [if_neg (by omega), Except.ok.injEq, stepBy_eq_nil_iff (by omega)] at hnil
  omega

end RangeRow

lemma arrayGenerateRange_eq_error (h : arrayGenerateRange rs = .error e) : e = .panicked := by
  rw [arrayGenerateRange] at h
  cases hp : rs.mapM RangeRow.terms with
  | ok parts => rw [hp] at h; cases h
  | error e' =>
    obtain ⟨row, -, he⟩ := exists_of_mapM_eq_error hp
    rw [hp] at h
    exact Except.error.inj h ▸ RangeRow.terms_eq_error he

lemma terms_of_arrayGenerateRange_eq_nil (h : arrayGenerateRange rs = .ok [])
    (hr : row ∈ rs) : row.terms = .ok [] := by
  rw [arrayGenerateRange] at h
  cases hp : rs.mapM RangeRow.terms with
  | error e => rw [hp] at h; cases h
  | ok parts =>
    rw [hp] at h
    obtain ⟨p, hpar, ht⟩ := exists_mem_of_mapM_eq_ok hp hr
    rw [ht, flatten_eq_nil_iff.mp (Except.ok.inj h) p hpar]

lemma arrayGenerateRange_of_regular (h : ∀ row ∈ rs, row.Regular ∧ row.expected = some E) :
    arrayGenerateRange rs = .ok (replicate (rs.countP RangeRow.hasPositiveStep) E).flatten := by
  rw [arrayGenerateRange, mapM_eq_ok_map fun row hr => (h row hr).1.terms_eq (h row hr).2]
  refine congrArg Except.ok ?_
  clear h
  induction rs with
  | nil => rfl
  | cons row rs ih =>
    rw [map_cons, flatten_cons, ih, countP_cons]
    split_ifs
    · rw [replicate_succ, flatten_cons]
    · rfl

/-! ### Main result -/

/-- **Each row gets its own progression exactly if all rows have one and the same, no step is zero
or negative from below `stop`, and the progression is empty or only one row has a positive
step.** -/
theorem givesProgressions_iff : GivesProgressions rows ↔
    ∃ E, (∀ row ∈ rows, row.Regular ∧ row.expected = some E) ∧
      (E = [] ∨ rows.countP RangeRow.hasPositiveStep = 1) := by
  constructor
  · rintro ⟨hf, hok⟩
    have hz : ∀ row ∈ rows, ¬ row.HasZeroStep := by
      intro row hr hs
      obtain ⟨message, hm⟩ := hf ⟨row, hr, hs⟩
      cases arrayGenerateRange_eq_error hm
    obtain ⟨E, hE, he⟩ := hok hz
    have hreg : ∀ row ∈ rows, row.Regular := by
      intro row hr
      refine RangeRow.regular_of_expected (he row hr) (hz row hr) ?_
      rintro rfl
      exact terms_of_arrayGenerateRange_eq_nil hE hr
    have ha := fun row hr => And.intro (hreg row hr) (he row hr)
    rw [arrayGenerateRange_of_regular ha, Except.ok.injEq] at hE
    refine ⟨E, ha, ?_⟩
    have hl := congrArg length hE
    rw [length_flatten, map_replicate, sum_replicate_nat] at hl
    by_cases hnil : E = []
    · exact .inl hnil
    · have hpos := length_pos_iff.mpr hnil
      exact .inr (Nat.eq_of_mul_eq_mul_right hpos (hl.trans (one_mul _).symm))
  · rintro ⟨E, ha, hE⟩
    refine ⟨?_, fun _ => ⟨E, ?_, fun row hr => (ha row hr).2⟩⟩
    · rintro ⟨row, hr, -, -, hs⟩
      obtain ⟨-, -, -, -, step, hs', hne, -⟩ := (ha row hr).1
      exact absurd (Option.some.inj (hs'.symm.trans hs)) hne
    · rw [arrayGenerateRange_of_regular ha]
      rcases hE with rfl | ho
      · rw [flatten_replicate_nil]
      · rw [ho, replicate_one, flatten_singleton]

def unitRange : RangeRow := ⟨some 0, some 2, some 1, by simp [IsI64]⟩

theorem not_givesProgressions : ¬ GivesProgressions [unitRange, unitRange] := by
  rintro ⟨-, h⟩
  obtain ⟨result, hr, he⟩ := h (by simp [unitRange, RangeRow.HasZeroStep])
  cases hr
  exact absurd (he unitRange mem_cons_self) (by decide)

end Rustice
