import Rustice.Weeks

/-!
# Week of the Year

`WEEK` and `YEAROFWEEK` number the weeks by `WEEK_START`, the weekday that a week starts on, and
`WEEK_OF_YEAR_POLICY`.
-/

namespace Rustice

inductive WeekError where
  | cantCastTo (v : String)
  | outOfFuel

def weekStartToWeekday : ℕ → ℕ
  | 1 => 0
  | 2 => 1
  | 3 => 2
  | 4 => 3
  | 5 => 4
  | 6 => 5
  | 7 => 6
  | _ => 0

def yearOfDay (date : ℤ) : ℤ := (CivilDate.ofDayNumber date).year

def newYear (year : ℤ) : Except WeekError ℤ :=
  if -262143 ≤ year ∧ year ≤ 262142 then .ok (yearStart year)
  else .error (.cantCastTo "native_datetime")

def newYearsEve (year : ℤ) : Except WeekError ℤ :=
  if -262143 ≤ year ∧ year ≤ 262142 then .ok (yearStart (year + 1) - 1)
  else .error (.cantCastTo "native_datetime")

def advanceTo (weekday : ℕ) : ℕ → ℤ → Except WeekError ℤ
  | 0, _ => .error .outOfFuel
  | fuel + 1, day =>
    if daysFromMonday day = weekday then .ok day else advanceTo weekday fuel (day + 1)

def firstWeekStart (weekStart : ℕ) (jan1 : ℤ) : Except WeekError ℤ := do
  let first ← advanceTo (weekStartToWeekday weekStart) 7 jan1
  return if 3 < first - jan1 then first + 7 else first

def weekFromStart (weekStart : ℕ) : ℕ → ℤ → Except WeekError ℤ
  | 0, _ => .error .outOfFuel
  | fuel + 1, date => do
    let jan1 ← newYear (yearOfDay date)
    let first ← firstWeekStart weekStart jan1
    if date < first then do
      let prevDec31 ← newYearsEve (yearOfDay date - 1)
      weekFromStart weekStart fuel prevDec31
    else .ok ((date - first) / 7 + 1)

def weekOfJan1Start (weekStart : ℕ) (jan1 : ℤ) : ℤ :=
  if daysFromMonday jan1 = weekStartToWeekday weekStart then jan1
  else jan1 - (daysFromMonday jan1 + 7 - weekStartToWeekday weekStart) % 7

def predOrFail (day : ℤ) : Except WeekError ℤ :=
  if yearStart (-262143) < day then .ok (day - 1) else .error (.cantCastTo "native_datetime")

def retreatTo (weekday : ℕ) (jan1 : ℤ) : ℕ → ℤ → Except WeekError ℤ
  | 0, _ => .error .outOfFuel
  | fuel + 1, day =>
    if daysFromMonday day ≠ weekday ∧ jan1 - 7 < day then
      (predOrFail day).bind (retreatTo weekday jan1 fuel)
    else .ok day

/-- Policy 1 with the search for a week start, whose result is overwritten. -/
def weekOfPolicyOne (date : ℤ) (weekStart : ℕ) : Except WeekError ℤ := do
  let jan1 ← newYear (yearOfDay date)
  let _ ← retreatTo (weekStartToWeekday weekStart) jan1 8 jan1
  return (date - weekOfJan1Start weekStart jan1) / 7 + 1

def calculateWeekOfYear (date : ℤ) (weekStart weekOfYearPolicy : ℕ) : Except WeekError ℤ :=
  match weekOfYearPolicy with
  | 0 =>
    if weekStart = 0 ∨ weekStart = 1 then .ok (weekNumber 0 date)
    else weekFromStart weekStart 2 date
  | 1 => weekOfPolicyOne date weekStart
  | _ => .ok (weekNumber 0 date)

def calculateYearOfWeek (date : ℤ) (weekStart weekOfYearPolicy : ℕ) : Except WeekError ℤ :=
  match weekOfYearPolicy with
  | 0 =>
    if weekStart = 0 ∨ weekStart = 1 then .ok (weekYear 0 date)
    else do
      let jan1 ← newYear (yearOfDay date)
      let first ← firstWeekStart weekStart jan1
      return if date < first then yearOfDay date - 1 else yearOfDay date
  | 1 => .ok (yearOfDay date)
  | _ => .ok (weekYear 0 date)

def numberOfWeek (weekStart : ℕ) (date : ℤ) : Option (ℤ × ℤ) := do
  let year ← (calculateYearOfWeek date weekStart 0).toOption
  let week ← (calculateWeekOfYear date weekStart 0).toOption
  return (year, week)

def InCommonYears (date : ℤ) : Prop := 1 ≤ yearOfDay date ∧ yearOfDay date ≤ 9999

instance (date : ℤ) : Decidable (InCommonYears date) := inferInstanceAs (Decidable (_ ∧ _))

/-! ### The first week of a year -/

variable {weekday : ℕ} {date year : ℤ}

/-- The days of a year before the first that is on a weekday. -/
def weekdayOffset (weekday : ℕ) (year : ℤ) : ℤ := (weekday - (yearStart year + 3)) % 7

/-- The loop ends at the weekday: each step comes one day closer. -/
lemma advanceTo_eq (hweekday : weekday < 7) :
    ∀ (fuel : ℕ) (day : ℤ), (weekday - (day + 3)) % 7 < fuel →
      advanceTo weekday fuel day = .ok (day + (weekday - (day + 3)) % 7) := by
  intro fuel
  induction fuel with
  | zero =>
    intro day hfuel
    omega
  | succ fuel ih =>
    intro day hfuel
    rw [advanceTo]
    split
    case isTrue hday =>
      rw [daysFromMonday] at hday
      congr 1
      omega
    case isFalse hday =>
      rw [daysFromMonday] at hday
      rw [ih (day + 1) (by omega)]
      congr 1
      omega

lemma weekStartToWeekday_lt (ws : ℕ) : weekStartToWeekday ws < 7 := by
  unfold weekStartToWeekday
  split <;> omega

/-- The first day of the first week, as the code has it. -/
def codeFirstWeek (weekStart : ℕ) (year : ℤ) : ℤ :=
  yearStart year + weekdayOffset (weekStartToWeekday weekStart) year +
    if 3 < weekdayOffset (weekStartToWeekday weekStart) year then 7 else 0

/-- The first day of the first week with at least four days in the year. -/
def majorityFirstWeek (weekday : ℕ) (year : ℤ) : ℤ :=
  yearStart year + weekdayOffset weekday year - if 3 < weekdayOffset weekday year then 7 else 0

/-- The loop and the correction. -/
lemma firstWeekStart_eq (weekStart : ℕ) (year : ℤ) :
    firstWeekStart weekStart (yearStart year) = .ok (codeFirstWeek weekStart year) := by
  have hoffset := advanceTo_eq (weekStartToWeekday_lt weekStart) 7 (yearStart year) (by omega)
  rw [firstWeekStart, hoffset, codeFirstWeek, weekdayOffset]
  show Except.ok _ = _
  congr 1
  split <;> split <;> omega

/-- A date is in its year. -/
lemma yearOfDay_eq_iff :
    yearOfDay date = year ↔ yearStart year ≤ date ∧ date < yearStart (year + 1) :=
  CivilDate.year_ofDayNumber_eq_iff

/-- A year is longer than the days before its first week. -/
lemma codeFirstWeek_lt (weekStart : ℕ) (year : ℤ) :
    codeFirstWeek weekStart year < yearStart (year + 1) := by
  have hsucc := yearStart_succ year
  have hlength := daysInYear_bounds year
  rw [codeFirstWeek, weekdayOffset]
  split <;> omega

/-- One call of `calculate_week_of_year`: the days before the first week are numbered as the last
day of the year before. -/
lemma weekFromStart_succ (weekStart fuel : ℕ) (hyear : yearOfDay date = year)
    (hrange : -262143 < year ∧ year ≤ 262142) :
    weekFromStart weekStart (fuel + 1) date =
      if date < codeFirstWeek weekStart year then
        weekFromStart weekStart fuel (yearStart year - 1)
      else .ok ((date - codeFirstWeek weekStart year) / 7 + 1) := by
  have hjan1 : newYear year = .ok (yearStart year) := if_pos ⟨by omega, by omega⟩
  have hdec31 : newYearsEve (year - 1) = .ok (yearStart year - 1) := by
    rw [newYearsEve, if_pos ⟨by omega, by omega⟩, Int.sub_add_cancel]
  simp only [weekFromStart, hyear, hjan1, hdec31, bind, Except.bind, firstWeekStart_eq]

/-- The number of the week of a date: the last day of a year is never before its first week. -/
lemma weekFromStart_eq (weekStart fuel : ℕ) (hyear : yearOfDay date = year)
    (hrange : -262142 < year ∧ year ≤ 262142) :
    weekFromStart weekStart (fuel + 2) date =
      .ok (if date < codeFirstWeek weekStart year then
          (yearStart year - 1 - codeFirstWeek weekStart (year - 1)) / 7 + 1
        else (date - codeFirstWeek weekStart year) / 7 + 1) := by
  have hfirst := codeFirstWeek_lt weekStart (year - 1)
  have hsucc := yearStart_succ (year - 1)
  have hlength := daysInYear_bounds (year - 1)
  rw [Int.sub_add_cancel] at hfirst hsucc
  have hprev : yearOfDay (yearStart year - 1) = year - 1 :=
    yearOfDay_eq_iff.mpr ⟨by omega, by rw [Int.sub_add_cancel]; omega⟩
  rw [weekFromStart_succ weekStart (fuel + 1) hyear ⟨by omega, hrange.2⟩,
    weekFromStart_succ weekStart fuel hprev ⟨by omega, by omega⟩]
  rw [if_neg (show ¬yearStart year - 1 < codeFirstWeek weekStart (year - 1) by omega)]
  split <;> rfl

/-- A date is not before the first week exactly when the fourth day of its week is not before the
year. -/
lemma majorityFirstWeek_le_iff :
    majorityFirstWeek weekday year ≤ date ↔ yearStart year ≤ weekMiddle weekday date := by
  rw [weekMiddle, weekFirstDay, daysIntoWeek, majorityFirstWeek, weekdayOffset]
  split <;> omega

/-- The year of most days of a week, by the first weeks of two years. -/
lemma weekYear_eq_iff :
    weekYear weekday date = year ↔
      majorityFirstWeek weekday year ≤ date ∧ date < majorityFirstWeek weekday (year + 1) := by
  rw [majorityFirstWeek_le_iff, ← not_le, majorityFirstWeek_le_iff, not_le]
  exact CivilDate.year_ofDayNumber_eq_iff

/-- Weeks are counted from the first week of the year. -/
lemma weekNumber_eq (hyear : weekYear weekday date = year) :
    weekNumber weekday date = (date - majorityFirstWeek weekday year) / 7 + 1 := by
  rw [weekNumber, hyear, weekMiddle, weekFirstDay, daysIntoWeek, majorityFirstWeek, weekdayOffset]
  split <;> omega

/-! ### Consistent numbers -/

variable {weekStart ws : ℕ}

lemma numberOfWeek_monday (h : ws ≤ 1) :
    numberOfWeek ws = fun d => some (weekYear 0 d, weekNumber 0 d) := by
  have hm : ws = 0 ∨ ws = 1 := by omega
  funext d
  simp only [numberOfWeek, calculateYearOfWeek, calculateWeekOfYear, if_pos hm]
  rfl

/-- The year of a week that does not start on Monday. -/
lemma calculateYearOfWeek_eq (h : 1 < weekStart)
    (hyear : yearOfDay date = year) (hrange : 1 ≤ year ∧ year ≤ 9999) :
    calculateYearOfWeek date weekStart 0 =
      .ok (if date < codeFirstWeek weekStart year then year - 1 else year) := by
  have hmonday : ¬(weekStart = 0 ∨ weekStart = 1) := by omega
  have hjan1 : newYear year = .ok (yearStart year) := if_pos ⟨by omega, by omega⟩
  simp only [calculateYearOfWeek, if_neg hmonday, hyear, hjan1, bind, Except.bind,
    firstWeekStart_eq]
  rfl

/-- The number of a week that does not start on Monday. -/
lemma calculateWeekOfYear_eq (h : 1 < weekStart)
    (hyear : yearOfDay date = year) (hrange : 1 ≤ year ∧ year ≤ 9999) :
    calculateWeekOfYear date weekStart 0 =
      .ok (if date < codeFirstWeek weekStart year then
          (yearStart year - 1 - codeFirstWeek weekStart (year - 1)) / 7 + 1
        else (date - codeFirstWeek weekStart year) / 7 + 1) := by
  have hmonday : ¬(weekStart = 0 ∨ weekStart = 1) := by omega
  rw [calculateWeekOfYear, if_neg hmonday]
  exact weekFromStart_eq weekStart 0 hyear ⟨by omega, by omega⟩

/-- The year and the number of a week that does not start on Monday. -/
lemma numberOfWeek_eq (h : 1 < weekStart)
    (hyear : yearOfDay date = year) (hrange : 1 ≤ year ∧ year ≤ 9999) :
    numberOfWeek weekStart date =
      some (if date < codeFirstWeek weekStart year then year - 1 else year,
        if date < codeFirstWeek weekStart year then
          (yearStart year - 1 - codeFirstWeek weekStart (year - 1)) / 7 + 1
        else (date - codeFirstWeek weekStart year) / 7 + 1) := by
  rw [numberOfWeek, calculateYearOfWeek_eq h hyear hrange, calculateWeekOfYear_eq h hyear hrange]
  rfl

/-- The first week starts within three days of the new year; the code has it right if it starts in
the year, and is two weeks late otherwise. -/
lemma firstWeek_cases (weekStart : ℕ) (year : ℤ) :
    (∃ k : ℤ, majorityFirstWeek (weekStartToWeekday weekStart) year =
        7 * k + weekStartToWeekday weekStart - 3) ∧
      yearStart year - 3 ≤ majorityFirstWeek (weekStartToWeekday weekStart) year ∧
      majorityFirstWeek (weekStartToWeekday weekStart) year ≤ yearStart year + 3 ∧
      ((yearStart year ≤ majorityFirstWeek (weekStartToWeekday weekStart) year ∧
          codeFirstWeek weekStart year =
            majorityFirstWeek (weekStartToWeekday weekStart) year) ∨
        (majorityFirstWeek (weekStartToWeekday weekStart) year < yearStart year ∧
          codeFirstWeek weekStart year =
            majorityFirstWeek (weekStartToWeekday weekStart) year + 14)) := by
  generalize hweekday : weekStartToWeekday weekStart = weekday
  have hoffset : ∃ k : ℤ, yearStart year + weekdayOffset weekday year = 7 * k + weekday - 3 :=
    ⟨(yearStart year + weekdayOffset weekday year + 3 - weekday) / 7, by
      rw [weekdayOffset]
      omega⟩
  have hbounds : 0 ≤ weekdayOffset weekday year ∧ weekdayOffset weekday year < 7 := by
    rw [weekdayOffset]
    omega
  obtain ⟨k, hk⟩ := hoffset
  rw [majorityFirstWeek, codeFirstWeek, hweekday]
  split
  case isTrue hlate => exact ⟨⟨k - 1, by omega⟩, by omega, by omega, .inr ⟨by omega, by omega⟩⟩
  case isFalse hearly => exact ⟨⟨k, by omega⟩, by omega, by omega, .inl ⟨by omega, by omega⟩⟩

/-- **A date of a common year has the year and the number of most days of its week** exactly when
the first week of its year starts in the year, it is not before the first week unless that of the
year before starts there too, and it is not in the first week of the next year. -/
lemma numberOfWeek_eq_majority_iff (h : 1 < weekStart)
    (hyear : yearOfDay date = year) (hrange : 1 ≤ year ∧ year ≤ 9999) :
    numberOfWeek weekStart date =
        some (weekYear (weekStartToWeekday weekStart) date,
          weekNumber (weekStartToWeekday weekStart) date) ↔
      yearStart year ≤ majorityFirstWeek (weekStartToWeekday weekStart) year ∧
        (date < majorityFirstWeek (weekStartToWeekday weekStart) year →
          yearStart (year - 1) ≤ majorityFirstWeek (weekStartToWeekday weekStart) (year - 1)) ∧
        date < majorityFirstWeek (weekStartToWeekday weekStart) (year + 1) := by
  obtain ⟨hle, hlt⟩ := yearOfDay_eq_iff.mp hyear
  have hprev := yearStart_succ (year - 1)
  have hsucc := yearStart_succ year
  have hnext := yearStart_succ (year + 1)
  have hprevLength := daysInYear_bounds (year - 1)
  have hlength := daysInYear_bounds year
  have hnextLength := daysInYear_bounds (year + 1)
  rw [Int.sub_add_cancel] at hprev
  obtain ⟨⟨k₀, hk₀⟩, hlow₀, hhigh₀, hcase₀⟩ := firstWeek_cases weekStart (year - 1)
  obtain ⟨⟨k₁, hk₁⟩, hlow₁, hhigh₁, hcase₁⟩ := firstWeek_cases weekStart year
  obtain ⟨⟨k₂, hk₂⟩, hlow₂, hhigh₂, hcase₂⟩ := firstWeek_cases weekStart (year + 1)
  obtain ⟨-, hlow₃, -, -⟩ := firstWeek_cases weekStart (year + 1 + 1)
  rw [numberOfWeek_eq h hyear hrange, Option.some.injEq, Prod.mk.injEq]
  generalize weekStartToWeekday weekStart = weekday at *
  rcases lt_or_ge date (majorityFirstWeek weekday year) with hbefore | hafter
  · have hweekYear : weekYear weekday date = year - 1 :=
      weekYear_eq_iff.mpr ⟨by omega, by rw [Int.sub_add_cancel]; exact hbefore⟩
    have hcode : codeFirstWeek weekStart year = majorityFirstWeek weekday year := by omega
    rw [weekNumber_eq hweekYear, hweekYear, hcode, if_pos hbefore, if_pos hbefore]
    rcases hcase₀ with ⟨hstart₀, hcode₀⟩ | ⟨hstart₀, hcode₀⟩
    · refine iff_of_true ⟨rfl, ?_⟩ ⟨by omega, fun _ => hstart₀, by omega⟩
      omega
    · refine iff_of_false (fun heq => ?_) fun hcond => absurd (hcond.2.1 hbefore) (by omega)
      omega
  · rcases lt_or_ge date (majorityFirstWeek weekday (year + 1)) with hin | hlast
    · have hweekYear : weekYear weekday date = year := weekYear_eq_iff.mpr ⟨hafter, hin⟩
      rw [weekNumber_eq hweekYear, hweekYear]
      rcases hcase₁ with ⟨hstart₁, hcode₁⟩ | ⟨hstart₁, hcode₁⟩
      · rw [hcode₁, if_neg (not_lt.mpr hafter), if_neg (not_lt.mpr hafter)]
        exact iff_of_true ⟨rfl, rfl⟩ ⟨hstart₁, fun hbefore => absurd hbefore (by omega), hin⟩
      · refine iff_of_false (fun heq => ?_) fun hcond => absurd hcond.1 (by omega)
        split at heq <;> omega
    · have hweekYear : weekYear weekday date = year + 1 :=
        weekYear_eq_iff.mpr ⟨hlast, by omega⟩
      rw [hweekYear]
      refine iff_of_false (fun heq => ?_) fun hcond => absurd hcond.2.2 (by omega)
      split at heq <;> omega

/-- The dates of common years are numbered by weeks from the configured weekday. -/
def ConsistentWeeks (weekStart : ℕ) : Prop :=
  IsWeekNumbering (weekStartToWeekday weekStart) InCommonYears (numberOfWeek weekStart)

lemma not_consistentWeeks_of_repeat {weekStart : ℕ} {n y w : ℤ} (hn : InCommonYears n)
    (hnex : InCommonYears (n + 7)) (hnum : numberOfWeek weekStart n = some (y, w))
    (hr : numberOfWeek weekStart (n + 7) = some (y, w)) : ¬ConsistentWeeks weekStart := by
  intro hw
  have hs := hw.next_week n y w hn hnex hnum
  rw [hr] at hs
  simp only [Option.some.injEq, Prod.mk.injEq] at hs
  omega

/-- The year with most days of the week of a date, and the number of the week in it. -/
def majorityWeek (weekStart : ℕ) (date : ℤ) : Option (ℤ × ℤ) :=
  some
    (weekYear (weekStartToWeekday weekStart) date, weekNumber (weekStartToWeekday weekStart) date)

/-- The first week starts in the year, the date is not before it unless that of the year before
starts there too, and it is not in the first week of the next year. -/
def RightWeek (weekStart : ℕ) (date : ℤ) : Prop :=
  let weekday := weekStartToWeekday weekStart
  let year := yearOfDay date
  yearStart year ≤ majorityFirstWeek weekday year ∧
    (date < majorityFirstWeek weekday year →
      yearStart (year - 1) ≤ majorityFirstWeek weekday (year - 1)) ∧
    date < majorityFirstWeek weekday (year + 1)

/-! ### Main results -/

/-- **The numbers of weeks.** Counting the weeks by most of their days is a consistent numbering,
and a date has its numbers exactly if weeks start on Monday or the date is in a right week. -/
theorem numberOfWeek_eq_majorityWeek_iff {weekStart : ℕ} {date : ℤ} (hd : InCommonYears date) :
    IsWeekNumbering (weekStartToWeekday weekStart) InCommonYears (majorityWeek weekStart) ∧
      (numberOfWeek weekStart date = majorityWeek weekStart date ↔
        weekStart ≤ 1 ∨ RightWeek weekStart date) := by
  refine ⟨isWeekNumbering_majority _ _, ?_⟩
  obtain hm | hs : weekStart ≤ 1 ∨ 1 < weekStart := by omega
  · have hw : weekStartToWeekday weekStart = 0 := by
      obtain rfl | rfl : weekStart = 0 ∨ weekStart = 1 := by omega
      · rfl
      · rfl
    refine iff_of_true ?_ (.inl hm)
    rw [numberOfWeek_monday hm, majorityWeek, hw]
  · rw [or_iff_right (by omega)]
    exact numberOfWeek_eq_majority_iff hs rfl hd

theorem numberOfWeek_sunday :
    numberOfWeek 7 19541 = majorityWeek 7 19541 ∧ ¬numberOfWeek 7 19723 = majorityWeek 7 19723 := by
  have hn : 19541 < majorityFirstWeek 6 2024 ∧ yearStart 2023 ≤ majorityFirstWeek 6 2023 ∧
      ¬19541 < majorityFirstWeek 6 2023 ∧ ¬yearStart 2024 ≤ majorityFirstWeek 6 2024 := by decide
  constructor
  · refine (@numberOfWeek_eq_majorityWeek_iff 7 19541 (by decide)).2.mpr (.inr ?_)
    exact ⟨hn.2.1, fun h => absurd h hn.2.2.1, hn.1⟩
  · intro h
    obtain hm | ⟨hr, -⟩ := (@numberOfWeek_eq_majorityWeek_iff 7 19723 (by decide)).2.mp h
    · omega
    · exact hn.2.2.2 hr

theorem consistentWeeks_sunday_fails :
    numberOfWeek 7 19723 = some (2023, 53) ∧ numberOfWeek 7 19730 = some (2023, 53) ∧
      ¬ConsistentWeeks 7 :=
  ⟨by decide, by decide,
    @not_consistentWeeks_of_repeat 7 19723 2023 53 (by decide) (by decide) (by decide)
      (by decide)⟩

variable {date d : ℤ}

/-- Each step of the search is one day closer to the bound, so the fuel suffices. -/
lemma exists_retreatTo {w f : ℕ} {j1 d : ℤ} (hj : yearStart (-262143) ≤ j1 - 7)
    (hd : j1 - 7 ≤ d) (hf : d - (j1 - 7) < f) : ∃ first, retreatTo w j1 f d = .ok first := by
  induction f generalizing d with
  | zero => omega
  | succ f ih =>
    rw [retreatTo]
    split
    case isTrue h =>
      rw [predOrFail, if_pos (by omega)]
      exact ih (by omega) (by omega)
    case isFalse => exact ⟨d, rfl⟩

lemma newYear_of_inCommonYears (hd : InCommonYears d) :
    newYear (yearOfDay d) = .ok (yearStart (yearOfDay d)) := by
  rw [InCommonYears] at hd
  exact if_pos (by omega)

lemma weekOfPolicyOne_eq (hd : InCommonYears d) :
    weekOfPolicyOne d ws = .ok ((d - weekOfJan1Start ws (yearStart (yearOfDay d))) / 7 + 1) := by
  have hl := yearStart_lt (show -262143 < yearOfDay d by rw [InCommonYears] at hd; omega)
  have hs := yearStart_succ (-262143)
  have hb := daysInYear_bounds (-262143)
  obtain ⟨first, hf⟩ := @exists_retreatTo (weekStartToWeekday ws) 8
    (yearStart (yearOfDay d)) (yearStart (yearOfDay d)) (by omega) (by omega) (by omega)
  rw [weekOfPolicyOne, newYear_of_inCommonYears hd]
  show (retreatTo _ _ 8 _).bind _ = _
  rw [hf]
  rfl

lemma weekOfJan1Start_eq (ws : ℕ) (jan1 : ℤ) :
    weekOfJan1Start ws jan1 = weekFirstDay (weekStartToWeekday ws) jan1 := by
  have hw := weekStartToWeekday_lt ws
  rw [weekOfJan1Start, weekFirstDay, daysIntoWeek, daysFromMonday]
  split <;> omega

/-- **With policy 1, January 1 is in week 1, and a new week starts on each first weekday.** -/
theorem weekOfPolicyOne_steps (weekStart : ℕ) (hd : InCommonYears date) :
    weekOfPolicyOne date weekStart = calculateWeekOfYear date weekStart 1 ∧
      weekOfPolicyOne (yearStart (yearOfDay date)) weekStart = .ok 1 ∧
      (yearOfDay (date + 1) = yearOfDay date → ∃ week, weekOfPolicyOne date weekStart = .ok week ∧
          weekOfPolicyOne (date + 1) weekStart =
            .ok (if daysFromMonday (date + 1) = weekStartToWeekday weekStart then week + 1
              else week)) := by
  have hy : yearOfDay (yearStart (yearOfDay date)) = yearOfDay date :=
    CivilDate.year_ofDayNumber_eq_iff.mpr ⟨le_rfl, by
      have hs := yearStart_succ (yearOfDay date)
      have hb := daysInYear_bounds (yearOfDay date)
      omega⟩
  refine ⟨?_, ?_, fun hn => ⟨_, weekOfPolicyOne_eq hd, ?_⟩⟩
  · rfl
  · rw [weekOfPolicyOne_eq (by rwa [InCommonYears, hy]), hy, weekOfJan1Start_eq, weekFirstDay,
      daysIntoWeek]
    congr 1
    omega
  · rw [weekOfPolicyOne_eq (by rwa [InCommonYears, hn]), hn, weekOfJan1Start_eq, weekFirstDay,
      daysIntoWeek, daysFromMonday]
    have hw := weekStartToWeekday_lt weekStart
    congr 1
    split <;> omega

theorem weekOfPolicyOne_steps_sunday : weekOfPolicyOne 19723 7 = .ok 1 ∧
    ∃ week, weekOfPolicyOne 19728 7 = .ok week ∧ weekOfPolicyOne 19729 7 = .ok (week + 1) := by
  obtain ⟨-, hj, hs⟩ := @weekOfPolicyOne_steps 19728 7 (by decide)
  exact ⟨hj, hs (by decide)⟩

end Rustice
