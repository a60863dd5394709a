import Mathlib.Tactic.IntervalCases

/-!
# The Proleptic Gregorian Calendar

A date is a year, a month and a day of that month; a **day number** counts the days since
1970-01-01.
-/

namespace Rustice

variable {y : ℤ} {d : CivilDate} {m : ℕ} {month : ℕ} {a b : ℤ} (z : ℤ)

def isLeapYear (y : ℤ) : Bool := y % 4 = 0 && (y % 100 ≠ 0 || y % 400 = 0)

def daysInMonth (y : ℤ) : ℕ → ℕ
  | 1 | 3 | 5 | 7 | 8 | 10 | 12 => 31
  | 4 | 6 | 9 | 11 => 30
  | 2 => if isLeapYear y then 29 else 28
  | _ => 0

lemma daysInMonth_le (y : ℤ) (m : ℕ) : daysInMonth y m ≤ 31 := by
  rw [daysInMonth.eq_def]
  split
  all_goals first | omega | (split <;> omega)

lemma one_le_daysInMonth (hon : 1 ≤ month) (ht : month ≤ 12) : 1 ≤ daysInMonth y month := by
  obtain rfl | ho := eq_or_ne month 2
  · rw [daysInMonth]
    split <;> omega
  · interval_cases month <;> first | exact absurd rfl ho | exact Nat.le_of_ble_eq_true rfl

def daysBeforeMarchYear (y : ℤ) : ℤ := 365 * y + y / 4 - y / 100 + y / 400

def daysInMarchYear (y : ℤ) : ℕ := if isLeapYear (y + 1) then 366 else 365

lemma daysInMarchYear_bounds (y : ℤ) : 365 ≤ daysInMarchYear y ∧ daysInMarchYear y ≤ 366 := by
  rw [daysInMarchYear]
  split <;> omega

lemma daysBeforeMarchYear_succ (y : ℤ) :
    daysBeforeMarchYear (y + 1) = daysBeforeMarchYear y + daysInMarchYear y := by
  simp only [daysBeforeMarchYear, daysInMarchYear, isLeapYear, Bool.and_eq_true, Bool.or_eq_true,
    decide_eq_true_eq]
  split <;> omega

lemma daysBeforeMarchYear_lt (h : a < b) : daysBeforeMarchYear (a + 1) ≤ daysBeforeMarchYear b := by
  obtain rfl | hlt : a + 1 = b ∨ a + 1 < b := by omega
  · exact le_rfl
  · simp only [daysBeforeMarchYear]
    omega

/-- A guess from the mean length of a year, corrected. -/
def marchYear (z : ℤ) : ℤ :=
  let guess := 400 * z / 146097
  if z < daysBeforeMarchYear guess then guess - 1
  else if daysBeforeMarchYear (guess + 1) ≤ z then guess + 1
  else guess

lemma marchYear_guess : daysBeforeMarchYear (400 * z / 146097 - 1) ≤ z ∧
    z < daysBeforeMarchYear (400 * z / 146097 + 1 + 1) := by
  simp only [daysBeforeMarchYear]
  omega

lemma marchYear_spec :
    daysBeforeMarchYear (marchYear z) ≤ z ∧ z < daysBeforeMarchYear (marchYear z + 1) := by
  obtain ⟨hle, hlt⟩ := marchYear_guess z
  simp only [marchYear]
  split_ifs with hb ha
  · exact ⟨hle, by rwa [Int.sub_add_cancel]⟩
  · exact ⟨ha, hlt⟩
  · exact ⟨not_lt.mp hb, not_le.mp ha⟩

lemma marchYear_eq_iff {z : ℤ} :
    marchYear z = y ↔ daysBeforeMarchYear y ≤ z ∧ z < daysBeforeMarchYear (y + 1) := by
  constructor
  · rintro rfl
    exact marchYear_spec z
  · rintro ⟨hle, hlt⟩
    obtain ⟨hl', hlt'⟩ := marchYear_spec z
    rcases lt_trichotomy (marchYear z) y with hl | heq | hm
    · exact absurd (daysBeforeMarchYear_lt hl) (by omega)
    · exact heq
    · exact absurd (daysBeforeMarchYear_lt hm) (by omega)

def daysBeforeMarchMonth (m : ℕ) : ℕ := (153 * m + 2) / 5

def marchMonth (doy : ℕ) : ℕ := (5 * doy + 2) / 153

def marchMonthOfMonth (month : ℕ) : ℕ := (month + 9) % 12

def monthOfMarchMonth (m : ℕ) : ℕ := if m < 10 then m + 3 else m - 9

def yearOfMarchYear (y : ℤ) (month : ℕ) : ℤ := if month ≤ 2 then y + 1 else y

lemma month_mem_of_daysInMonth (h : 1 ≤ daysInMonth y m) : 1 ≤ m ∧ m ≤ 12 := by
  by_contra ho
  have hz : daysInMonth y m = 0 := by rw [daysInMonth] <;> omega
  omega

lemma monthOfMarchMonth_marchMonthOfMonth (hle : 1 ≤ month) (hl' : month ≤ 12) :
    monthOfMarchMonth (marchMonthOfMonth month) = month := by
  interval_cases month <;> rfl

lemma marchMonthOfMonth_monthOfMarchMonth (hm : m < 12) :
    marchMonthOfMonth (monthOfMarchMonth m) = m := by
  simp only [monthOfMarchMonth, marchMonthOfMonth]
  split_ifs <;> omega

lemma marchMonth_eq_iff {d m : ℕ} :
    marchMonth d = m ↔ daysBeforeMarchMonth m ≤ d ∧ d < daysBeforeMarchMonth (m + 1) := by
  simp only [marchMonth, daysBeforeMarchMonth]
  omega

lemma daysBeforeMarchMonth_add (hm : m < 12) (y : ℤ) : daysBeforeMarchMonth m +
      daysInMonth (yearOfMarchYear y (monthOfMarchMonth m)) (monthOfMarchMonth m) =
    min (daysBeforeMarchMonth (m + 1)) (daysInMarchYear y) := by
  have hy := daysInMarchYear_bounds y
  obtain hlt | rfl : m < 11 ∨ m = 11 := by omega
  · have hs : daysBeforeMarchMonth (m + 1) ≤ 365 := by
      rw [daysBeforeMarchMonth]
      omega
    rw [min_eq_left (hs.trans hy.1)]
    interval_cases m <;> rfl
  · have hf : daysBeforeMarchMonth 11 + daysInMonth (y + 1) 2 = daysInMarchYear y := by
      rw [daysInMonth, daysInMarchYear]
      split <;> rfl
    exact hf.trans (min_eq_right (hy.2.trans (by decide))).symm

lemma marchMonth_spec {d : ℕ} (hd : d < daysInMarchYear y) :
    marchMonth d < 12 ∧ daysBeforeMarchMonth (marchMonth d) ≤ d ∧
      d - daysBeforeMarchMonth (marchMonth d) + 1 ≤
        daysInMonth (yearOfMarchYear y (monthOfMarchMonth (marchMonth d)))
          (monthOfMarchMonth (marchMonth d)) := by
  have hy := daysInMarchYear_bounds y
  have hm : marchMonth d < 12 := by
    rw [marchMonth]
    omega
  obtain ⟨hle, hlt⟩ := marchMonth_eq_iff.mp (rfl : marchMonth d = _)
  have he := daysBeforeMarchMonth_add hm y
  exact ⟨hm, hle, by omega⟩

lemma marchMonth_eq {m d : ℕ} (hm : m < 12) (hd : 1 ≤ d)
    (hle : d ≤ daysInMonth (yearOfMarchYear y (monthOfMarchMonth m)) (monthOfMarchMonth m)) :
    daysBeforeMarchMonth m + (d - 1) < daysInMarchYear y ∧
      marchMonth (daysBeforeMarchMonth m + (d - 1)) = m := by
  have he := daysBeforeMarchMonth_add hm y
  exact ⟨by omega, marchMonth_eq_iff.mpr ⟨by omega, by omega⟩⟩

@[ext] structure CivilDate where
  year : ℤ
  month : ℕ
  day : ℕ
  one_le_day : 1 ≤ day
  day_le : day ≤ daysInMonth year month
  deriving DecidableEq

namespace CivilDate

def ofYmd? (year : ℤ) (month day : ℕ) : Option CivilDate :=
  if h : 1 ≤ day ∧ day ≤ daysInMonth year month then some ⟨year, month, day, h.1, h.2⟩ else none

def marchYear (d : CivilDate) : ℤ := if d.month ≤ 2 then d.year - 1 else d.year

def dayOfMarchYear (d : CivilDate) : ℕ :=
  daysBeforeMarchMonth (marchMonthOfMonth d.month) + (d.day - 1)

def dayNumber (d : CivilDate) : ℤ :=
  daysBeforeMarchYear d.marchYear + d.dayOfMarchYear - 719468

def dayOfYear (z : ℤ) : ℕ := (z - daysBeforeMarchYear (Rustice.marchYear z)).toNat

lemma dayOfYear_lt : dayOfYear z < daysInMarchYear (Rustice.marchYear z) := by
  obtain ⟨hle, hlt⟩ := marchYear_spec z
  rw [daysBeforeMarchYear_succ] at hlt
  rw [dayOfYear]
  omega

def ofMarchDay (z : ℤ) : CivilDate where
  year := yearOfMarchYear (Rustice.marchYear z) (monthOfMarchMonth (marchMonth (dayOfYear z)))
  month := monthOfMarchMonth (marchMonth (dayOfYear z))
  day := dayOfYear z - daysBeforeMarchMonth (marchMonth (dayOfYear z)) + 1
  one_le_day := Nat.le_add_left 1 _
  day_le := (marchMonth_spec (dayOfYear_lt z)).2.2

def ofDayNumber (n : ℤ) : CivilDate := ofMarchDay (n + 719468)

lemma marchYear_of_yearOfMarchYear {y : ℤ}
    (hd : d.year = yearOfMarchYear y d.month) : d.marchYear = y := by
  rw [marchYear, hd, yearOfMarchYear]
  split
  · exact Int.add_sub_cancel y 1
  · rfl

lemma dayNumber_ofDayNumber (n : ℤ) : (ofDayNumber n).dayNumber = n := by
  obtain ⟨hm, hle, -⟩ := marchMonth_spec (dayOfYear_lt (n + 719468))
  have hy : (ofDayNumber n).marchYear = Rustice.marchYear (n + 719468) :=
    marchYear_of_yearOfMarchYear rfl
  have hd : (ofDayNumber n).dayOfMarchYear = dayOfYear (n + 719468) := by
    simp only [dayOfMarchYear, ofDayNumber, ofMarchDay, marchMonthOfMonth_monthOfMarchMonth hm]
    omega
  have hs := (marchYear_spec (n + 719468)).1
  rw [dayNumber, hy, hd, dayOfYear]
  omega

lemma eq_of_march {a b : CivilDate} (hy : a.marchYear = b.marchYear)
    (hm : a.month = b.month) (hd : a.day = b.day) : a = b := by
  refine CivilDate.ext ?_ hm hd
  rw [marchYear, marchYear, hm] at hy
  split at hy <;> omega

lemma ofDayNumber_dayNumber (d : CivilDate) : ofDayNumber d.dayNumber = d := by
  obtain ⟨ho, ht⟩ := month_mem_of_daysInMonth (le_trans d.one_le_day d.day_le)
  have hb := monthOfMarchMonth_marchMonthOfMonth ho ht
  have hy : d.year = yearOfMarchYear d.marchYear d.month := by
    rw [marchYear, yearOfMarchYear]
    split <;> omega
  obtain ⟨hlen, hmon⟩ := marchMonth_eq (y := d.marchYear) (m := marchMonthOfMonth d.month)
    (Nat.mod_lt _ (by decide)) d.one_le_day (by rw [hb, ← hy]; exact d.day_le)
  have hz : d.dayNumber + 719468 = daysBeforeMarchYear d.marchYear + d.dayOfMarchYear := by
    rw [dayNumber]
    omega
  have hmar : Rustice.marchYear (d.dayNumber + 719468) = d.marchYear := by
    refine marchYear_eq_iff.mpr ⟨by omega, ?_⟩
    rw [daysBeforeMarchYear_succ, hz, dayOfMarchYear]
    omega
  have hd : dayOfYear (d.dayNumber + 719468) = d.dayOfMarchYear := by
    rw [dayOfYear, hmar, hz]
    omega
  have hm : marchMonth (dayOfYear (d.dayNumber + 719468)) = marchMonthOfMonth d.month := by
    rw [hd]
    exact hmon
  have hme : (ofDayNumber d.dayNumber).month = d.month := by
    simp only [ofDayNumber, ofMarchDay, hm, hb]
  refine eq_of_march ?_ hme ?_
  · exact (marchYear_of_yearOfMarchYear rfl).trans hmar
  · have hpos := d.one_le_day
    simp only [ofDayNumber, ofMarchDay]
    rw [hm, hd, dayOfMarchYear]
    omega

lemma dayNumber_bounds (hd : 1 ≤ d.year ∧ d.year ≤ 9999) :
    -719468 ≤ d.dayNumber ∧ d.dayNumber < 3000000 := by
  obtain ⟨ho, ht⟩ := month_mem_of_daysInMonth (le_trans d.one_le_day d.day_le)
  have hy : 0 ≤ d.marchYear ∧ d.marchYear ≤ 9999 := by
    rw [marchYear]
    split <;> omega
  have hdy : d.day ≤ 31 := le_trans d.day_le (daysInMonth_le d.year d.month)
  have hs : 0 ≤ daysBeforeMarchYear d.marchYear ∧ daysBeforeMarchYear d.marchYear ≤ 3652059 := by
    rw [daysBeforeMarchYear]
    omega
  have hdoy : d.dayOfMarchYear < 400 := by
    rw [dayOfMarchYear, daysBeforeMarchMonth, marchMonthOfMonth]
    omega
  rw [dayNumber]
  omega

lemma ofYmd?_eq_some_iff {yr : ℤ} {m day : ℕ} :
    ofYmd? yr m day = some d ↔ d.year = yr ∧ d.month = m ∧ d.day = day := by
  rw [ofYmd?]
  constructor
  · intro h
    split at h
    · cases h
      exact ⟨rfl, rfl, rfl⟩
    · cases h
  · rintro ⟨rfl, rfl, rfl⟩
    rw [dif_pos ⟨d.one_le_day, d.day_le⟩]

end CivilDate

def daysInYear (y : ℤ) : ℕ := if isLeapYear y then 366 else 365

def yearStart (y : ℤ) : ℤ := daysBeforeMarchYear (y - 1) + 306 - 719468

lemma daysInYear_bounds (y : ℤ) : 365 ≤ daysInYear y ∧ daysInYear y ≤ 366 := by
  rw [daysInYear]
  split <;> omega

lemma yearStart_succ (y : ℤ) : yearStart (y + 1) = yearStart y + daysInYear y := by
  have hs := daysBeforeMarchYear_succ (y - 1)
  rw [daysInMarchYear, Int.sub_add_cancel] at hs
  rw [yearStart, yearStart, daysInYear, Int.add_sub_cancel, hs]
  omega

lemma yearStart_lt (h : a < b) : yearStart (a + 1) ≤ yearStart b := by
  have hle := daysBeforeMarchYear_lt (show a - 1 < b - 1 by omega)
  rw [yearStart, yearStart, Int.add_sub_cancel]
  rw [Int.sub_add_cancel] at hle
  omega

namespace CivilDate

lemma dayOfMarchYear_lt (hd : 3 ≤ d.month) : d.dayOfMarchYear < 306 := by
  obtain ⟨-, ht⟩ := month_mem_of_daysInMonth (le_trans d.one_le_day d.day_le)
  have hdy := d.day_le
  have ho := d.one_le_day
  rw [dayOfMarchYear]
  generalize d.month = month at hd ht hdy
  interval_cases month <;> simp only [daysInMonth] at hdy <;>
    simp only [marchMonthOfMonth, daysBeforeMarchMonth] <;> omega

lemma le_dayOfMarchYear (hd : d.month ≤ 2) : 306 ≤ d.dayOfMarchYear := by
  obtain ⟨ho, -⟩ := month_mem_of_daysInMonth (le_trans d.one_le_day d.day_le)
  have hm : d.month = 1 ∨ d.month = 2 := by omega
  rw [dayOfMarchYear]
  obtain h | h := hm <;> rw [h, daysBeforeMarchMonth, marchMonthOfMonth] <;> omega

lemma yearStart_le_dayNumber (d : CivilDate) :
    yearStart d.year ≤ d.dayNumber ∧ d.dayNumber < yearStart (d.year + 1) := by
  have hs := daysBeforeMarchYear_succ (d.year - 1)
  have hl := daysInMarchYear_bounds (d.year - 1)
  rw [Int.sub_add_cancel] at hs
  rw [yearStart, yearStart, Int.add_sub_cancel, dayNumber, marchYear]
  split
  case isTrue hm =>
    have hle := le_dayOfMarchYear hm
    have hlt : d.dayOfMarchYear < 400 := by
      have hd : d.day ≤ 31 := le_trans d.day_le (daysInMonth_le d.year d.month)
      rw [dayOfMarchYear, daysBeforeMarchMonth, marchMonthOfMonth]
      omega
    omega
  case isFalse hm =>
    have hlt := dayOfMarchYear_lt (show 3 ≤ d.month by omega)
    omega

lemma le_year_ofDayNumber_iff {n y : ℤ} : y ≤ (ofDayNumber n).year ↔ yearStart y ≤ n := by
  obtain ⟨hle, hlt⟩ := yearStart_le_dayNumber (ofDayNumber n)
  rw [dayNumber_ofDayNumber] at hle hlt
  constructor
  · intro hy
    have hb := yearStart_lt (show y - 1 < (ofDayNumber n).year by omega)
    rw [Int.sub_add_cancel] at hb
    exact hb.trans hle
  · intro hy
    by_contra hl
    have hb := yearStart_lt (not_le.mp hl)
    omega

lemma year_ofDayNumber_eq_iff {n y : ℤ} :
    (ofDayNumber n).year = y ↔ yearStart y ≤ n ∧ n < yearStart (y + 1) := by
  rw [← le_year_ofDayNumber_iff, ← not_le, ← le_year_ofDayNumber_iff]
  omega

lemma month_bounds (d : CivilDate) : 1 ≤ d.month ∧ d.month ≤ 12 :=
  month_mem_of_daysInMonth (le_trans d.one_le_day d.day_le)

def monthIndex (d : CivilDate) : ℤ := 12 * d.year + (d.month - 1)

def addMonths (d : CivilDate) (months : ℤ) : CivilDate where
  year := (d.monthIndex + months) / 12
  month := ((d.monthIndex + months) % 12).toNat + 1
  day := min d.day (daysInMonth ((d.monthIndex + months) / 12)
    (((d.monthIndex + months) % 12).toNat + 1))
  one_le_day := le_min d.one_le_day (one_le_daysInMonth (by omega) (by omega))
  day_le := min_le_right _ _

lemma monthIndex_addMonths (d : CivilDate) (months : ℤ) :
    (d.addMonths months).monthIndex = d.monthIndex + months := by
  simp only [monthIndex, addMonths]
  omega

lemma addMonths_zero (d : CivilDate) : d.addMonths 0 = d := by
  obtain ⟨ho, ht⟩ := d.month_bounds
  have hy : (d.monthIndex + 0) / 12 = d.year := by
    rw [monthIndex]
    omega
  have hm : ((d.monthIndex + 0) % 12).toNat + 1 = d.month := by
    rw [monthIndex]
    omega
  refine CivilDate.ext hy hm ?_
  show min d.day (daysInMonth ((d.monthIndex + 0) / 12) (((d.monthIndex + 0) % 12).toNat + 1)) =
    d.day
  rw [hy, hm]
  exact min_eq_left d.day_le

end CivilDate

end Rustice
