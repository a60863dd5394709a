import Rustice.Columnar
import Rustice.ToVarchar
import Rustice.Weeks

/-!
# `DATEDIFF` and `LAST_DAY`

`DATEDIFF` takes a part and two timestamps in nanoseconds, or two times of the day.
-/

namespace Rustice

open TimeEnv (IsI64)

inductive DatePart where
  | year
  | month
  | day
  | week
  | quarter
  | hour
  | minute
  | second
  | millisecond
  | microsecond
  | nanosecond
  deriving DecidableEq

def datePart? : String → Option DatePart
  | "year" | "y" | "yy" | "yyy" | "yyyy" | "yr" | "years" => some .year
  | "month" | "mm" | "mon" | "mons" | "months" => some .month
  | "day" | "d" | "dd" | "days" | "dayofmonth" => some .day
  | "week" | "w" | "wk" | "weekofyear" | "woy" | "wy" => some .week
  | "quarter" | "q" | "qtr" | "qtrs" | "quarters" => some .quarter
  | "hour" | "h" | "hh" | "hr" | "hours" | "hrs" => some .hour
  | "minute" | "m" | "mi" | "min" | "minutes" | "mins" => some .minute
  | "second" | "s" | "sec" | "seconds" | "secs" => some .second
  | "millisecond" | "ms" | "msec" | "milliseconds" => some .millisecond
  | "microsecond" | "us" | "usec" | "microseconds" => some .microsecond
  | "nanosecond" | "ns" | "nsec" | "nanosec" | "nsecond" | "nanoseconds" | "nanosecs" =>
    some .nanosecond
  | _ => none

def DatePart.debug : DatePart → String
  | year => "Year"
  | month => "Month"
  | day => "Day"
  | week => "Week"
  | quarter => "Quarter"
  | hour => "Hour"
  | minute => "Minute"
  | second => "Second"
  | millisecond => "Millisecond"
  | microsecond => "Microsecond"
  | nanosecond => "Nanosecond"

inductive DiffError where
  | arithmeticOverflow
  | dateOutOfRange (days : ℤ)
  | invalidUnitFormat
  | invalidComponentForTime (component : String)
  | invalidPartType
  deriving DecidableEq

def IsI32 (n : ℤ) : Prop := -2 ^ 31 ≤ n ∧ n < 2 ^ 31

instance (n : ℤ) : Decidable (IsI32 n) := inferInstanceAs (Decidable (_ ∧ _))

def dayOfNanos (ns : ℤ) : ℤ := ns / nanosInDay

def dateOfNanos (ns : ℤ) : CivilDate := CivilDate.ofDayNumber (dayOfNanos ns)

def CivilDate.quarter (d : CivilDate) : ℕ := (d.month - 1) / 3 + 1

def subI32 (x y : ℤ) : Except DiffError ℤ :=
  if IsI32 (x - y) then .ok (x - y) else .error .arithmeticOverflow

def subI64 (x y : ℤ) : Except DiffError ℤ :=
  if IsI64 (x - y) then .ok (x - y) else .error .arithmeticOverflow

structure DateDiffFunc where
  weekStartProperty : Option String

inductive DiffType where
  | timestamp
  | time64

namespace DateDiffFunc

def weekStart (f : DateDiffFunc) : ℤ :=
  (f.weekStartProperty.bind fun v => parseI64 v.toList).getD 0

def weeksDiff (f : DateDiffFunc) (ns : ℤ) : ℤ :=
  let days := ns / nanosInDay
  if days < 0 then 0
  else if (f.weekStart = 0 ∧ 0 < days % 7) ∨ (f.weekStart ≠ 0 ∧ f.weekStart ≤ days % 7) then
    days / 7 + 1
  else days / 7

def boundaryDiff (coef a b : ℤ) : ℤ := wrapI64 (b / coef - a / coef)

def timeCoef? : DatePart → Option ℤ
  | .hour => some (3600 * 1000000000)
  | .minute => some (60 * 1000000000)
  | .second => some 1000000000
  | .millisecond => some 1000000
  | .microsecond => some 1000
  | .nanosecond => some 1
  | _ => none

def timeOnlyDiff (unit : DatePart) (a b : ℤ) : Except DiffError ℤ :=
  match timeCoef? unit with
  | some coef => .ok (boundaryDiff coef a b)
  | none => .error (.invalidComponentForTime unit.debug)

def monthsDiff (a b : ℤ) : Except DiffError ℤ := do
  let month ← subI32 (dateOfNanos b).month (dateOfNanos a).month
  let year ← subI32 (dateOfNanos b).year (dateOfNanos a).year
  return wrapI32 (wrapI32 (year * 12) + month)

def timestampDiff (f : DateDiffFunc) (unit : DatePart) (a b : ℤ) : Except DiffError ℤ :=
  match unit with
  | .year => subI32 (dateOfNanos b).year (dateOfNanos a).year
  | .quarter => subI32 (dateOfNanos b).quarter (dateOfNanos a).quarter
  | .month => monthsDiff a b
  | .week => (subI64 b a).map f.weeksDiff
  | .day => .ok (boundaryDiff (86400 * 1000000000) a b)
  | .hour => .ok (boundaryDiff (3600 * 1000000000) a b)
  | .minute => .ok (boundaryDiff (60 * 1000000000) a b)
  | .second => .ok (boundaryDiff 1000000000 a b)
  | .millisecond => .ok (boundaryDiff 1000000 a b)
  | .microsecond => .ok (boundaryDiff 1000 a b)
  | .nanosecond => .ok (boundaryDiff 1 a b)

def dateDiffFunc (f : DateDiffFunc) (type : DiffType) (unit : DatePart) (a b : ℤ) :
    Except DiffError ℤ :=
  match type with
  | .timestamp => f.timestampDiff unit a b
  | .time64 => timeOnlyDiff unit a b

def batchLen (expr1 expr2 : Columnar (Option ℤ)) : ℕ := (expr1.len?.or expr2.len?).getD 1

def invoke (f : DateDiffFunc) (type : DiffType) (part : Columnar (Option String))
    (expr1 expr2 : Columnar (Option ℤ)) : Except DiffError (List (Option ℤ)) :=
  match part with
  | .scalar (some part) =>
    match datePart? (toAsciiLowercase part) with
    | some unit =>
      zipRows (f.dateDiffFunc type unit) (expr1.intoArray (batchLen expr1 expr2))
        (expr2.intoArray (batchLen expr1 expr2))
    | none => .error .invalidPartType
  | _ => .error .invalidUnitFormat

def call (f : DateDiffFunc) (part : String) (a b : ℤ) : Except DiffError (List (Option ℤ)) :=
  f.invoke .timestamp (.scalar (some part)) (.scalar (some a)) (.scalar (some b))

lemma call_eq (f : DateDiffFunc) {p : String} {u : DatePart}
    (hp : datePart? (toAsciiLowercase p) = some u) (a b : ℤ) :
    f.call p a b = (f.timestampDiff u a b).map fun n => [some n] := by
  have hr : f.call p a b = zipRows (f.timestampDiff u) [some a] [some b] := by
    simp only [call, invoke, hp]
    rfl
  rw [hr]
  simp only [zipRows, List.zip_cons_cons, List.zip_nil_right, List.mapM_cons, List.mapM_nil, bothM]
  cases f.timestampDiff u a b <;> rfl

end DateDiffFunc

inductive CalendarUnit where
  | year
  | quarter
  | month

def CalendarUnit.part : CalendarUnit → DatePart
  | year => .year
  | quarter => .quarter
  | month => .month

def CalendarUnit.index (unit : CalendarUnit) (d : CivilDate) : ℤ :=
  match unit with
  | year => d.year
  | quarter => 4 * d.year + d.quarter - 1
  | month => 12 * d.year + d.month - 1

def CalendarUnit.field (unit : CalendarUnit) (d : CivilDate) : ℤ :=
  match unit with
  | year => d.year
  | quarter => d.quarter
  | month => 12 * d.year + d.month

open CivilDate

lemma year_dateOfNanos_bounds {ns : ℤ} (h : IsI64 ns) :
    1677 ≤ (dateOfNanos ns).year ∧ (dateOfNanos ns).year ≤ 2262 := by
  have hd : -106752 ≤ dayOfNanos ns ∧ dayOfNanos ns ≤ 106751 := by
    rw [IsI64] at h
    rw [dayOfNanos, nanosInDay]
    omega
  constructor
  · refine le_year_ofDayNumber_iff.mpr (le_trans ?_ hd.1)
    decide
  · by_contra hlt
    have hs := le_year_ofDayNumber_iff.mp (show 2263 ≤ (dateOfNanos ns).year by omega)
    have hf : yearStart 2263 = 107016 := by decide
    omega

open CalendarUnit

namespace DateDiffFunc

lemma subI32_eq_ok {x y : ℤ} (h : IsI32 (x - y)) : subI32 x y = .ok (x - y) := if_pos h

lemma timestampDiff_calendar (f : DateDiffFunc) (u : CalendarUnit) {a b : ℤ} (ha : IsI64 a)
    (hb : IsI64 b) :
    f.timestampDiff u.part a b = .ok (u.field (dateOfNanos b) - u.field (dateOfNanos a)) := by
  have hya := year_dateOfNanos_bounds ha
  have hyb := year_dateOfNanos_bounds hb
  have hma := (dateOfNanos a).month_bounds
  have hmb := (dateOfNanos b).month_bounds
  have hy : IsI32 ((dateOfNanos b).year - (dateOfNanos a).year) := ⟨by omega, by omega⟩
  have hm : IsI32 (((dateOfNanos b).month : ℤ) - (dateOfNanos a).month) :=
    ⟨by omega, by omega⟩
  cases u with
  | year => exact subI32_eq_ok hy
  | quarter =>
    refine subI32_eq_ok ?_
    rw [IsI32, CivilDate.quarter, CivilDate.quarter]
    omega
  | month =>
    have ht : wrapI32 (((dateOfNanos b).year - (dateOfNanos a).year) * 12) =
        ((dateOfNanos b).year - (dateOfNanos a).year) * 12 :=
      Int.bmod_eq_of_le (by omega) (by omega)
    have hsum : wrapI32 (((dateOfNanos b).year - (dateOfNanos a).year) * 12 +
          (((dateOfNanos b).month : ℤ) - (dateOfNanos a).month)) =
        ((dateOfNanos b).year - (dateOfNanos a).year) * 12 +
          (((dateOfNanos b).month : ℤ) - (dateOfNanos a).month) :=
      Int.bmod_eq_of_le (by omega) (by omega)
    show monthsDiff a b = _
    rw [monthsDiff, subI32_eq_ok hm, subI32_eq_ok hy]
    show Except.ok _ = _
    rw [ht, hsum, field, field]
    congr 1
    omega

/-- The differences are those of the numbers of the periods. -/
def IsPeriodDifference (f : DateDiffFunc) (part : String) (unit : CalendarUnit) (a b c : ℤ) :
    Prop :=
  ∃ ab bc ac ba : ℤ, f.call part a b = .ok [some ab] ∧ f.call part b c = .ok [some bc] ∧
    f.call part a c = .ok [some ac] ∧ f.call part b a = .ok [some ba] ∧
    ab = unit.index (dateOfNanos b) - unit.index (dateOfNanos a) ∧
    bc = unit.index (dateOfNanos c) - unit.index (dateOfNanos b) ∧
    ac = unit.index (dateOfNanos c) - unit.index (dateOfNanos a) ∧
    ab + bc = ac ∧ ab = -ba

lemma call_calendar (f : DateDiffFunc) {p : String} {u : CalendarUnit}
    (hp : datePart? (toAsciiLowercase p) = some u.part) {a b : ℤ} (ha : IsI64 a) (hb : IsI64 b) :
    f.call p a b = .ok [some (u.field (dateOfNanos b) - u.field (dateOfNanos a))] := by
  rw [f.call_eq hp, timestampDiff_calendar f u ha hb]
  rfl

lemma field_sub_eq_iff (u : CalendarUnit) (d e : CivilDate) :
    u.field e - u.field d = u.index e - u.index d ↔ (u = .quarter → d.year = e.year) := by
  cases u with
  | year => exact iff_of_true rfl fun h => by cases h
  | month =>
    refine iff_of_true ?_ fun h => by cases h
    rw [field, field, index, index]
    omega
  | quarter =>
    rw [field, field, index, index]
    constructor
    · intro h _
      omega
    · intro h
      have hy := h rfl
      omega

/-! ### Main results -/

/-- **Years and months are differences of period numbers; quarters are only within one year.** -/
theorem calendarDiff_iff (f : DateDiffFunc) {part : String} {unit : CalendarUnit}
    (hpart : datePart? (toAsciiLowercase part) = some unit.part) {a b c : ℤ} (ha : IsI64 a)
    (hb : IsI64 b) (hc : IsI64 c) :
    f.IsPeriodDifference part unit a b c ↔
      (unit = .quarter → (dateOfNanos a).year = (dateOfNanos b).year ∧
        (dateOfNanos b).year = (dateOfNanos c).year) := by
  rw [IsPeriodDifference, call_calendar f hpart ha hb, call_calendar f hpart hb hc,
    call_calendar f hpart ha hc, call_calendar f hpart hb ha]
  constructor
  · rintro ⟨ab, bc, ac, ba, hab, hbc, -, -, hi, hi', -⟩ hu
    cases hab
    cases hbc
    exact ⟨(field_sub_eq_iff unit _ _).mp hi hu, (field_sub_eq_iff unit _ _).mp hi' hu⟩
  · intro hy
    refine ⟨_, _, _, _, rfl, rfl, rfl, rfl, ?_, ?_, ?_, by omega, by omega⟩
    · exact (field_sub_eq_iff unit _ _).mpr fun hu => (hy hu).1
    · exact (field_sub_eq_iff unit _ _).mpr fun hu => (hy hu).2
    · exact (field_sub_eq_iff unit _ _).mpr fun hu =>
        (hy hu).1.trans (hy hu).2

theorem calendarDiff_months :
    (⟨none⟩ : DateDiffFunc).IsPeriodDifference "MONTH" .month 1703980800000000000
      1706745600000000000 1735689600000000000 := by
  have hp : datePart? (toAsciiLowercase "MONTH") = some CalendarUnit.month.part := by decide
  exact (calendarDiff_iff ⟨none⟩ hp (by decide) (by decide) (by decide)).mpr
    fun h => by cases h

theorem calendarDiff_quarter_fails :
    (⟨none⟩ : DateDiffFunc).call "quarter" 1703980800000000000 1704067200000000000 =
      .ok [some (-3)] ∧
      ¬(⟨none⟩ : DateDiffFunc).IsPeriodDifference "quarter" .quarter 1703980800000000000
        1704067200000000000 1704067200000000000 := by
  constructor
  · decide
  · rintro ⟨ab, bc, ac, ba, hab, -, -, -, hi, -⟩
    have hc : (⟨none⟩ : DateDiffFunc).call "quarter" 1703980800000000000 1704067200000000000 =
        .ok [some (-3)] := by decide
    rw [hc] at hab
    cases hab
    exact absurd hi (by decide)

end DateDiffFunc

structure LastDayFunc where
  weekStartProperty : Option String

inductive LastDayError where
  | cantCastTo (v : String)
  | unsupportedDatePart (part : String)
  deriving DecidableEq

def readU32 (cs : List Char) : Option ℕ :=
  match cs with
  | '+' :: ds => (readDigits ds).filter (· < 4294967296)
  | ds => (readDigits ds).filter (· < 4294967296)

namespace LastDayFunc

def weekStart (f : LastDayFunc) : ℕ := (f.weekStartProperty.bind fun v => readU32 v.toList).getD 0

def weekStartNorm (weekStart : ℕ) : ℕ := if weekStart = 0 then 0 else (weekStart - 1) % 7

def daysUntilWeekEnd (weekStart : ℕ) (day : ℤ) : ℕ :=
  ((weekStartNorm weekStart + 6) % 7 + 7 - daysFromMonday day) % 7

def nextMonth? (date : CivilDate) : Option CivilDate :=
  if date.month = 12 then ofYmd? (date.year + 1) 1 1
  else ofYmd? date.year (date.month + 1) 1

def castDate (date : Option CivilDate) : Except LastDayError ℤ :=
  match date with
  | some date => .ok date.dayNumber
  | none => .error (.cantCastTo "native_datetime")

def lastDay (env : DateEnv) (f : LastDayFunc) (date : CivilDate) (datePart : String) :
    Except LastDayError ℤ :=
  match datePart? (env.toLowercase datePart) with
  | some .day => .ok date.dayNumber
  | some .week => .ok (date.dayNumber + daysUntilWeekEnd f.weekStart date.dayNumber)
  | some .month => (castDate (nextMonth? date)).map (· - 1)
  | some .year => castDate (ofYmd? date.year 12 31)
  | _ => .error (.unsupportedDatePart datePart)

def invoke (env : DateEnv) (f : LastDayFunc) (arr : Columnar (Option ℤ))
    (datePart : Option String) : Except LastDayError (List (Option ℤ)) :=
  arr.toArray.mapM fun row =>
    match row with
    | some ts => (f.lastDay env (dateOfNanos ts) (datePart.getD "month")).map some
    | none => .ok none

lemma add_daysUntilWeekEnd (ws : ℕ) (d : ℤ) :
    d + daysUntilWeekEnd ws d = 7 * weekIndex (weekStartNorm ws) d + weekStartNorm ws + 3 := by
  have hn : weekStartNorm ws < 7 := by
    rw [weekStartNorm]
    split <;> omega
  rw [daysUntilWeekEnd, weekIndex, daysFromMonday]
  omega

lemma invoke_week (en : DateEnv) (f : LastDayFunc) (ts : ℤ) :
    f.invoke en (.scalar (some ts)) (some "week") =
      .ok [some (dayOfNanos ts + daysUntilWeekEnd f.weekStart (dayOfNanos ts))] := by
  have hl : en.toLowercase "week" = "week" := by
    refine en.toLowercase_of_fixed _ fun c hc => ?_
    have hc' : c = 'w' ∨ c = 'e' ∨ c = 'e' ∨ c = 'k' := by simpa using hc
    rcases hc' with rfl | rfl | rfl | rfl <;> exact en.fixed_of_ascii _ (by decide) (by decide)
  have hp : datePart? "week" = some .week := by decide
  have hd : (dateOfNanos ts).dayNumber = dayOfNanos ts := dayNumber_ofDayNumber _
  have hlas : f.lastDay en (dateOfNanos ts) "week" =
      .ok (dayOfNanos ts + daysUntilWeekEnd f.weekStart (dayOfNanos ts)) := by
    simp only [lastDay, hl, hp, hd]
  simp only [invoke, Columnar.toArray, List.mapM_cons, List.mapM_nil, Option.getD_some, hlas]
  rfl

end LastDayFunc

variable {weekStart ws : ℕ}

structure DateCast where
  toNanos : ℤ → Option ℤ
  toNanos_eq : ∀ day, IsI64 (day * nanosInDay) → toNanos day = some (day * nanosInDay)

def coerceDate (day : ℤ) : Except DiffError ℤ :=
  if IsI64 (day * nanosInDay) then .ok (day * nanosInDay) else .error (.dateOutOfRange day)

def DateDiffFunc.callDates (f : DateDiffFunc) (part : String) (a b : ℤ) :
    Except DiffError (List (Option ℤ)) := do
  let a ← coerceDate a
  let b ← coerceDate b
  f.call part a b

def LastDayFunc.callDate (env : DateEnv) (cast : DateCast) (f : LastDayFunc) (day : ℤ)
    (part : String) : Except LastDayError (List (Option ℤ)) :=
  f.invoke env (.scalar (cast.toNanos day)) (some part)

open LastDayFunc DateDiffFunc

def WeekDiffAgrees (env : DateEnv) (cast : DateCast) (weekStart : ℕ) (a b : ℤ) : Prop :=
  ∃ wks la lb : ℤ, callDates ⟨some (toString weekStart)⟩ "week" a b = .ok [some wks] ∧
    callDate env cast ⟨some (toString weekStart)⟩ a "week" = .ok [some la] ∧
    callDate env cast ⟨some (toString weekStart)⟩ b "week" = .ok [some lb] ∧
    wks = (lb - la) / 7

def CountsRemainder (weekStart : ℕ) (remainder : ℤ) : Prop :=
  (weekStart = 0 ∧ 0 < remainder) ∨ (weekStart ≠ 0 ∧ weekStart ≤ remainder)

instance (weekStart : ℕ) (remainder : ℤ) : Decidable (CountsRemainder weekStart remainder) :=
  inferInstanceAs (Decidable (_ ∨ _))

lemma weekStart_toString (h : weekStart ≤ 7) :
    DateDiffFunc.weekStart ⟨some (toString weekStart)⟩ = weekStart ∧
      LastDayFunc.weekStart ⟨some (toString weekStart)⟩ = weekStart := by
  interval_cases weekStart <;> decide

lemma dayOfNanos_mul (day : ℤ) : dayOfNanos (day * nanosInDay) = day :=
  Int.mul_ediv_cancel _ (by decide)

lemma weeksDiff_days (h : ws ≤ 7) (days : ℤ) :
    DateDiffFunc.weeksDiff ⟨some (toString ws)⟩ (days * nanosInDay) = if days < 0 then 0
      else if CountsRemainder ws (days % 7) then days / 7 + 1 else days / 7 := by
  have hd : days * nanosInDay / nanosInDay = days := dayOfNanos_mul days
  simp only [DateDiffFunc.weeksDiff, (weekStart_toString h).1, hd]
  refine if_congr Iff.rfl rfl (if_congr ?_ rfl rfl)
  rw [CountsRemainder, Ne, Ne, Int.natCast_eq_zero]

lemma countedWeeks_eq_iff (ws : ℕ) {i days : ℤ} (hi : 0 ≤ i ∧ i < 7) : (if days < 0 then 0
    else if CountsRemainder ws (days % 7) then days / 7 + 1 else days / 7) = (i + days) / 7 ↔
    if 0 ≤ days then CountsRemainder ws (days % 7) ↔ 7 ≤ i + days % 7 else (i + days) / 7 = 0 := by
  by_cases hd : days < 0
  · rw [if_pos hd, if_neg (not_le.mpr hd)]
    exact eq_comm
  · have hle : 0 ≤ days := not_lt.mp hd
    rw [if_neg hd, if_pos hle]
    by_cases hc : CountsRemainder ws (days % 7)
    · rw [if_pos hc, iff_true_left hc]
      omega
    · rw [if_neg hc, iff_false_left hc]
      omega

lemma callDates_week (f : DateDiffFunc) (a b weeks : ℤ) :
    f.callDates "week" a b = .ok [some weeks] ↔
      IsI64 (a * nanosInDay) ∧ IsI64 (b * nanosInDay) ∧ IsI64 ((b - a) * nanosInDay) ∧
        f.weeksDiff ((b - a) * nanosInDay) = weeks := by
  have hp : datePart? (toAsciiLowercase "week") = some .week := by decide
  have hsub : b * nanosInDay - a * nanosInDay = (b - a) * nanosInDay := (Int.sub_mul _ _ _).symm
  simp only [callDates, bind_eq_ok, coerceDate, f.call_eq hp, DateDiffFunc.timestampDiff, subI64]
  constructor
  · rintro ⟨s, hs, t, ht, hc⟩
    split at hs
    case isFalse => cases hs
    case isTrue ha =>
      split at ht
      case isFalse => cases ht
      case isTrue hb =>
        cases hs
        cases ht
        rw [hsub] at hc
        split at hc
        case isFalse => cases hc
        case isTrue hd =>
          cases hc
          exact ⟨ha, hb, hd, rfl⟩
  · rintro ⟨ha, hb, hd, rfl⟩
    refine ⟨_, if_pos ha, _, if_pos hb, ?_⟩
    rw [hsub, if_pos hd]
    rfl

lemma callDate_week (e : DateEnv) (c : DateCast) (h : ws ≤ 7)
    {d : ℤ} (hd : IsI64 (d * nanosInDay)) : callDate e c ⟨some (toString ws)⟩ d "week" =
      .ok [some (7 * weekIndex (LastDayFunc.weekStartNorm ws) d +
        LastDayFunc.weekStartNorm ws + 3)] := by
  rw [callDate, c.toNanos_eq d hd, LastDayFunc.invoke_week, dayOfNanos_mul,
    (weekStart_toString h).2, LastDayFunc.add_daysUntilWeekEnd]

lemma weeksDiff_eq_lastDays_iff (h : ws ≤ 7) (s : ℕ) (a b : ℤ) :
    DateDiffFunc.weeksDiff ⟨some (toString ws)⟩ ((b - a) * nanosInDay) =
        (7 * weekIndex s b + s + 3 - (7 * weekIndex s a + s + 3)) / 7 ↔ if a ≤ b then
        CountsRemainder ws ((b - a) % 7) ↔ 7 ≤ daysIntoWeek s a + (b - a) % 7
      else weekIndex s a = weekIndex s b := by
  have hi : 0 ≤ daysIntoWeek s a ∧ daysIntoWeek s a < 7 := by
    rw [daysIntoWeek]
    omega
  have hc : weekIndex s b = weekIndex s a + (daysIntoWeek s a + (b - a)) / 7 := by
    rw [← weekIndex_add, Int.add_comm, Int.sub_add_cancel]
  have hd : (7 * weekIndex s b + s + 3 - (7 * weekIndex s a + s + 3)) / 7 =
      (daysIntoWeek s a + (b - a)) / 7 := by omega
  rw [hd, weeksDiff_days h, countedWeeks_eq_iff ws hi]
  split
  case isTrue hle => rw [if_pos (by omega)]
  case isFalse hlt =>
    rw [if_neg (by omega)]
    omega

/-- **Weeks between two dates** agree with the week starts exactly under a test on the days modulo
7. -/
theorem weekDiff_agrees_iff (env : DateEnv) (cast : DateCast) {weekStart : ℕ} (h : weekStart ≤ 7)
    {a b : ℤ} :
    WeekDiffAgrees env cast weekStart a b ↔
      IsI64 (a * nanosInDay) ∧ IsI64 (b * nanosInDay) ∧ IsI64 ((b - a) * nanosInDay) ∧ if a ≤ b then
          CountsRemainder weekStart ((b - a) % 7) ↔
            7 ≤ daysIntoWeek (LastDayFunc.weekStartNorm weekStart) a + (b - a) % 7
        else
          weekIndex (LastDayFunc.weekStartNorm weekStart) a =
            weekIndex (LastDayFunc.weekStartNorm weekStart) b := by
  rw [← weeksDiff_eq_lastDays_iff h]
  constructor
  · rintro ⟨weeks, lastA, lastB, hw, hla, hlb, hag⟩
    obtain ⟨ha, hb, hd, rfl⟩ := (callDates_week _ _ _ _).mp hw
    rw [callDate_week env cast h ha] at hla
    rw [callDate_week env cast h hb] at hlb
    cases hla
    cases hlb
    exact ⟨ha, hb, hd, hag⟩
  · rintro ⟨ha, hb, hd, hag⟩
    exact ⟨_, _, _, (callDates_week _ _ _ _).mpr ⟨ha, hb, hd, rfl⟩,
      callDate_week env cast h ha, callDate_week env cast h hb, hag⟩

def sampleDateCast : DateCast where
  toNanos day := if IsI64 (day * nanosInDay) then some (day * nanosInDay) else none
  toNanos_eq _ h := if_pos h

theorem weekDiff_agrees_mondays : WeekDiffAgrees sampleDateEnv sampleDateCast 1 19723 19730 :=
  (weekDiff_agrees_iff sampleDateEnv sampleDateCast (by decide)).mpr
    ⟨by decide, by decide, by decide, by decide⟩

theorem weekDiff_tuesday_fails :
    callDates ⟨some "0"⟩ "week" 19723 19724 = .ok [some 1] ∧
      callDate sampleDateEnv sampleDateCast ⟨some "0"⟩ 19723 "week" = .ok [some 19729] ∧
      callDate sampleDateEnv sampleDateCast ⟨some "0"⟩ 19724 "week" = .ok [some 19729] ∧
      callDates ⟨some "0"⟩ "week" 19737 19723 = .ok [some 0] ∧
      ¬WeekDiffAgrees sampleDateEnv sampleDateCast 0 19723 19724 := by
  have hd : callDates ⟨some "0"⟩ "week" 19723 19724 = .ok [some 1] := by decide
  have hm : callDate sampleDateEnv sampleDateCast ⟨some "0"⟩ 19723 "week" =
      .ok [some 19729] := by decide
  have ht : callDate sampleDateEnv sampleDateCast ⟨some "0"⟩ 19724 "week" =
      .ok [some 19729] := by decide
  refine ⟨hd, hm, ht, by decide, ?_⟩
  rintro ⟨weeks, lastA, lastB, hw, hla, hlb, ha⟩
  have hz : toString 0 = "0" := rfl
  rw [hz] at hw hla hlb
  rw [hd] at hw
  rw [hm] at hla
  rw [ht] at hlb
  cases hw
  cases hla
  cases hlb
  exact absurd ha (by decide)

end Rustice
