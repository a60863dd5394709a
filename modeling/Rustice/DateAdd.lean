import Rustice.DateDiff

/-!
# `DATEADD`

`DATEADD` turns each value into an Arrow interval, of months, of days or of nanoseconds, and adds it
to the date or timestamp of its row.
-/

namespace Rustice

open TimeEnv (IsI64 wrapI64_of_isI64)

variable {time t : ℤ}

structure Zone where
  toLocal : ℤ → ℤ
  fromLocal : ℤ → Option ℤ
  toLocal_of_fromLocal : ∀ local' time, fromLocal local' = some time → toLocal time = local'

def Zone.utc : Zone where
  toLocal time := time
  fromLocal := some
  toLocal_of_fromLocal _ _ h := (Option.some.inj h).symm

inductive TemporalType where
  | date32
  | date64
  | timestamp (unit : TimeUnit) (zone : Zone)

def TemporalType.nanos : TemporalType → ℤ
  | date32 => nanosInDay
  | date64 => 1000000
  | timestamp unit _ => unit.nanos

def TemporalType.zone : TemporalType → Zone
  | timestamp _ zone => zone
  | _ => .utc

def TemporalType.isDate : TemporalType → Bool
  | timestamp _ _ => false
  | _ => true

inductive IntervalUnit where
  | months
  | days
  | nanoseconds
  deriving DecidableEq

open CivilDate

def shiftLocal : IntervalUnit → ℤ → ℤ → ℤ
  | .months, count, time =>
    (addMonths (dateOfNanos time) count).dayNumber * nanosInDay + time % nanosInDay
  | .days, count, time => time + count * nanosInDay
  | .nanoseconds, count, time => time + count

lemma dateOfNanos_add (date : CivilDate) (t : ℤ) :
    dateOfNanos (date.dayNumber * nanosInDay + t % nanosInDay) = date := by
  have hd : dayOfNanos (date.dayNumber * nanosInDay + t % nanosInDay) = date.dayNumber := by
    rw [dayOfNanos, nanosInDay]
    omega
  rw [dateOfNanos, hd, ofDayNumber_dayNumber]

def shift (zone : Zone) (unit : IntervalUnit) (count time : ℤ) : Option ℤ :=
  match unit with
  | .nanoseconds => some (time + count)
  | unit => zone.fromLocal (shiftLocal unit count (zone.toLocal time))

variable {unit u : IntervalUnit} {z : Zone}

lemma shiftLocal_inj {a b : ℤ} (h : shiftLocal u a t = shiftLocal u b t) : a = b := by
  cases u with
  | months =>
    simp only [shiftLocal] at h
    have hday : ((dateOfNanos t).addMonths a).dayNumber =
        ((dateOfNanos t).addMonths b).dayNumber := by
      rw [nanosInDay] at h
      omega
    have hd : (dateOfNanos t).addMonths a = (dateOfNanos t).addMonths b := by
      rw [← ofDayNumber_dayNumber ((dateOfNanos t).addMonths a), hday, ofDayNumber_dayNumber]
    have hi := congrArg monthIndex hd
    rw [monthIndex_addMonths, monthIndex_addMonths] at hi
    exact Int.add_left_cancel hi
  | days =>
    simp only [shiftLocal, nanosInDay] at h
    omega
  | nanoseconds => exact Int.add_left_cancel h

lemma shiftLocal_zero (u : IntervalUnit) (time : ℤ) : shiftLocal u 0 time = time := by
  cases u with
  | months =>
    rw [shiftLocal, addMonths_zero, dateOfNanos, dayNumber_ofDayNumber, dayOfNanos]
    exact Int.ediv_mul_add_emod time nanosInDay
  | days =>
    rw [shiftLocal]
    omega
  | nanoseconds => exact Int.add_zero time

lemma toLocal_shift {c time' : ℤ} (hu : u ≠ .nanoseconds) (h : shift z u c t = some time') :
    z.toLocal time' = shiftLocal u c (z.toLocal t) := by
  cases u with
  | nanoseconds => exact absurd rfl hu
  | months => exact z.toLocal_of_fromLocal _ _ h
  | days => exact z.toLocal_of_fromLocal _ _ h

lemma shift_inj {a b time' : ℤ}
    (ha : shift z u a t = some time') (hb : shift z u b t = some time') : a = b := by
  by_cases hu : u = .nanoseconds
  · subst hu
    cases ha
    exact (Int.add_left_cancel (Option.some.inj hb)).symm
  · exact shiftLocal_inj ((toLocal_shift hu ha).symm.trans (toLocal_shift hu hb))

lemma count_eq_zero_of_shift {c : ℤ} (h : shift z u c t = some t) : c = 0 := by
  by_cases hu : u = .nanoseconds
  · subst hu
    have hsum := Option.some.inj h
    omega
  · refine shiftLocal_inj (((toLocal_shift hu h).symm).trans ?_)
    exact (shiftLocal_zero u _).symm

structure ArrowInterval where
  unit : IntervalUnit
  count : ℤ

def toI32OrZero (n : ℤ) : ℤ := if IsI32 n then n else 0

def yearsInterval (value : Option ℤ) : ArrowInterval :=
  ⟨.months, wrapI32 (toI32OrZero (value.getD 0) * 12)⟩

def monthsInterval (multiplier : ℤ) (value : Option ℤ) : ArrowInterval :=
  ⟨.months, toI32OrZero (wrapI64 (value.getD 0 * multiplier))⟩

def daysInterval (multiplier : ℤ) (value : Option ℤ) : ArrowInterval :=
  ⟨.days, toI32OrZero (wrapI64 (value.getD 0 * multiplier))⟩

def nanosInterval (multiplier : ℤ) (value : Option ℤ) : ArrowInterval :=
  ⟨.nanoseconds, wrapI64 (value.getD 0 * multiplier)⟩

def partInterval : DatePart → Option ℤ → ArrowInterval
  | .year => yearsInterval
  | .month => monthsInterval 1
  | .day => daysInterval 1
  | .week => daysInterval 7
  | .quarter => monthsInterval 3
  | .hour => nanosInterval 3600000000000
  | .minute => nanosInterval 60000000000
  | .second => nanosInterval 1000000000
  | .millisecond => nanosInterval 1000000
  | .microsecond => nanosInterval 1000
  | .nanosecond => nanosInterval 1

def DatePart.intervalUnit : DatePart → IntervalUnit
  | year | quarter | month => .months
  | week | day => .days
  | _ => .nanoseconds

def DatePart.factor : DatePart → ℤ
  | year => 12
  | quarter => 3
  | month => 1
  | week => 7
  | day => 1
  | hour => 3600000000000
  | minute => 60000000000
  | second => 1000000000
  | millisecond => 1000000
  | microsecond => 1000
  | nanosecond => 1

def DatePart.Fits (unit : DatePart) (n : ℤ) : Prop :=
  match unit.intervalUnit with
  | .nanoseconds => IsI64 (n * unit.factor)
  | _ => IsI32 (n * unit.factor)

lemma unit_partInterval (u : DatePart) (v : Option ℤ) :
    (partInterval u v).unit = u.intervalUnit := by
  cases u <;> rfl

lemma DatePart.factor_pos (u : DatePart) : 0 < u.factor := by
  cases u <;> decide

lemma isI32_wrapI32 (n : ℤ) : IsI32 (wrapI32 n) := by
  have hle := @Int.le_bmod n (2 ^ 32) (by decide)
  have hlt := @Int.bmod_lt n (2 ^ 32) (by decide)
  rw [IsI32, wrapI32]
  omega

lemma isI32_toI32OrZero (n : ℤ) : IsI32 (toI32OrZero n) := by
  rw [toI32OrZero]
  split
  case isTrue h => exact h
  case isFalse h => exact ⟨by decide, by decide⟩

lemma toI32OrZero_wrapI64_eq_iff {n : ℤ} : toI32OrZero (wrapI64 n) = n ↔ IsI32 n := by
  constructor
  · intro h
    exact h ▸ isI32_toI32OrZero (wrapI64 n)
  · intro h
    have hw : IsI64 n := by
      rw [IsI32] at h
      exact ⟨by omega, by omega⟩
    rw [wrapI64_of_isI64 hw, toI32OrZero, if_pos h]

lemma count_partInterval_eq_iff (u : DatePart) (n : ℤ) :
    (partInterval u (some n)).count = n * u.factor ↔ u.Fits n := by
  cases u with
  | year =>
    show wrapI32 (toI32OrZero n * 12) = n * 12 ↔ IsI32 (n * 12)
    constructor
    · intro h
      exact h ▸ isI32_wrapI32 _
    · intro h
      have hs : IsI32 n := by
        rw [IsI32] at h ⊢
        omega
      rw [toI32OrZero, if_pos hs]
      rw [IsI32] at h
      exact Int.bmod_eq_of_le (by omega) (by omega)
  | month => exact toI32OrZero_wrapI64_eq_iff
  | quarter => exact toI32OrZero_wrapI64_eq_iff
  | day => exact toI32OrZero_wrapI64_eq_iff
  | week => exact toI32OrZero_wrapI64_eq_iff
  | hour => exact wrapI64_eq_iff
  | minute => exact wrapI64_eq_iff
  | second => exact wrapI64_eq_iff
  | millisecond => exact wrapI64_eq_iff
  | microsecond => exact wrapI64_eq_iff
  | nanosecond => exact wrapI64_eq_iff

inductive AddValues (φ : Type) where
  | int64 (values : Columnar (Option ℤ))
  | float64 (values : Columnar (ArrowEntry φ))

def AddValues.HasRows {φ : Type} (n : ℕ) : AddValues φ → Prop
  | int64 values => values.HasRows n
  | float64 values => values.HasRows n

/-- What is taken from the libraries; the addition of an interval is exact if it succeeds. -/
structure AddEnv (φ : Type) extends DateEnv where
  round : φ → Option ℤ
  castToNanos : TemporalType → ℤ → Option ℤ
  add : TemporalType → ArrowInterval → ℤ → Option ℤ
  shift_of_add : ∀ type interval value value', add type interval value = some value' →
    shift type.zone interval.unit interval.count (value * type.nanos) = some (value' * type.nanos)

inductive AddError where
  | invalidArgument (description : String)
  | arithmeticOverflow
  deriving DecidableEq

def addPart? (text : String) : Option DatePart :=
  if text = "nseconds" then some .nanosecond else datePart? text

def isLowerText (s : String) : Bool := s.toList.all fun c => c.toNat < 128 && c.isUpper = false

lemma isLowerText_of_addPart {t : String} {u : DatePart} (h : addPart? t = some u) :
    isLowerText t = true := by
  rw [addPart?] at h
  split at h
  case isTrue heq =>
    subst heq
    rfl
  case isFalse =>
    rw [datePart?.eq_def] at h
    split at h <;> first | rfl | cases h

def DatePart.isTime (unit : DatePart) : Bool := unit.intervalUnit = .nanoseconds

open Columnar

namespace AddEnv

variable {φ : Type} (env : AddEnv φ)

def values (numberRows : ℕ) : AddValues φ → List (Option ℤ)
  | .int64 values => values.intoArray numberRows
  | .float64 values =>
    (values.intoArray numberRows).map fun entry => (env.round entry.value).filter (IsI64 ·)

def becomesTimestamp (part : String) (type : TemporalType) : Bool :=
  type.isDate && (addPart? (env.toLowercase part)).any DatePart.isTime

def checkReturnType (part : String) (type : TemporalType) : TemporalType :=
  if env.becomesTimestamp part type then .timestamp .nanosecond .utc else type

def castExpr (part : String) (type : TemporalType) (date : Option ℤ) : Option ℤ :=
  if env.becomesTimestamp part type then date.bind (env.castToNanos type) else date

def addRow (type : TemporalType) (interval : ArrowInterval) :
    Option ℤ → Except AddError (Option ℤ)
  | some date =>
    match env.add type interval date with
    | some result => .ok (some result)
    | none => .error .arithmeticOverflow
  | none => .ok none

def addIntervals (type : TemporalType) (unit : DatePart) (dates values : List (Option ℤ)) :
    Except AddError (List (Option ℤ)) :=
  if dates.isEmpty then .ok []
  else (dates.zip values).mapM fun row => env.addRow type (partInterval unit row.2) row.1

def invoke (numberRows : ℕ) (part : Columnar (Option String)) (values : AddValues φ)
    (type : TemporalType) (expr : Columnar (Option ℤ)) : Except AddError (List (Option ℤ)) :=
  match part with
  | .scalar (some part) =>
    match addPart? part with
    | some unit =>
      env.addIntervals (env.checkReturnType part type) unit
        ((expr.intoArray numberRows).map (env.castExpr part type))
        (env.values numberRows values)
    | none => .error (.invalidArgument "Invalid date_or_time_part type")
  | _ => .error (.invalidArgument "Invalid unit type format")

variable {n : ℤ} {values vs : AddValues φ} {code c date d row : Option ℤ} {unit u : DatePart}
  {type ty : TemporalType} {i : ArrowInterval} {part p : String} {e : Columnar (Option ℤ)}
  {rs : List (Option ℤ)}

inductive RowValue where
  | null
  | number (n : ℤ)
  | notANumber

def RowValue.ofInt : Option ℤ → RowValue
  | some n => number n
  | none => null

def RowValue.ofEntry (entry : ArrowEntry φ) : RowValue :=
  if entry.isValid then
    match env.round entry.value with
    | some n => .number n
    | none => .notANumber
  else .null

def rowValue? (values : AddValues φ) (i : ℕ) : Option RowValue :=
  match values with
  | .int64 values => (values.row? i).map RowValue.ofInt
  | .float64 values => (values.row? i).map (RowValue.ofEntry env)

/-- NULL, or the date shifted by exactly the value. -/
def RowShifted (part : String) (unit : DatePart) (type : TemporalType) :
    RowValue → Option ℤ → Option ℤ → Prop
  | .number n, some date, row => ∃ result, row = some result ∧
      shift type.zone unit.intervalUnit (n * unit.factor) (date * type.nanos) =
        some (result * (env.checkReturnType part type).nanos) ∧
      (n ≠ 0 → result * (env.checkReturnType part type).nanos ≠ date * type.nanos)
  | .notANumber, some _, _ => False
  | _, _, row => row = none

/-- The values that the code shifts a date by exactly. -/
def RowFits (part : String) (unit : DatePart) (type : TemporalType) (code : Option ℤ) :
    RowValue → Option ℤ → Prop
  | _, none => True
  | .null, some date => env.castExpr part type (some date) = none
  | .notANumber, some _ => False
  | .number n, some date =>
    if env.becomesTimestamp part type then
      ∃ time, env.castToNanos type date = some time ∧
        time + (partInterval unit code).count = date * type.nanos + n * unit.factor
    else unit.Fits n

def IsCodeOf (code : Option ℤ) : RowValue → Prop
  | .number n => code = some n ∨ (code = none ∧ ¬IsI64 n)
  | _ => True

lemma isCodeOf_values {n i : ℕ} {value : RowValue}
    (hi : i < n) (hc : (env.values n vs)[i]? = some c)
    (hv : env.rowValue? vs i = some value) : IsCodeOf c value := by
  cases vs with
  | int64 vs =>
    rw [AddEnv.values, getElem?_intoArray _ hi] at hc
    rw [rowValue?, hc] at hv
    cases hv
    cases c with
    | none => trivial
    | some n => exact .inl rfl
  | float64 vs =>
    rw [rowValue?] at hv
    rw [AddEnv.values, List.getElem?_map, getElem?_intoArray _ hi] at hc
    cases he : vs.row? i with
    | none => rw [he] at hv; cases hv
    | some e =>
      rw [he] at hv hc
      cases hv
      cases hc
      rw [RowValue.ofEntry]
      split
      case isFalse => trivial
      case isTrue =>
        cases hr : env.round e.value with
        | none => trivial
        | some n =>
          by_cases hn : IsI64 n
          · refine .inl ?_
            show (env.round e.value).filter (IsI64 ·) = some n
            rw [hr]
            exact Option.filter_some_pos (decide_eq_true hn)
          · refine .inr ⟨?_, hn⟩
            show (env.round e.value).filter (IsI64 ·) = none
            rw [hr]
            exact Option.filter_some_neg (decide_eq_false hn)

lemma count_partInterval_none (u : DatePart) : (partInterval u none).count = 0 := by
  cases u <;> decide

lemma not_fits_of_not_isI64 (h : ¬IsI64 n) : ¬u.Fits n := by
  intro hf
  refine h ?_
  cases u <;> simp only [DatePart.Fits, DatePart.intervalUnit, DatePart.factor] at hf <;>
    simp only [IsI32, IsI64] at hf ⊢ <;> omega

lemma count_code_eq_iff (h : IsCodeOf c (.number n)) :
    (partInterval u c).count = n * u.factor ↔ u.Fits n := by
  obtain rfl | ⟨rfl, hn⟩ := h
  · exact count_partInterval_eq_iff u n
  · refine iff_of_false (fun heq => ?_) (not_fits_of_not_isI64 hn)
    rw [count_partInterval_none] at heq
    have hz : n = 0 := by
      rcases Int.mul_eq_zero.mp heq.symm with hz | hf
      · exact hz
      · exact absurd hf u.factor_pos.ne'
    exact hn (hz ▸ ⟨by decide, by decide⟩)

lemma addRow_eq_ok_iff : env.addRow ty i d = .ok row ↔ (d = none ∧ row = none) ∨
      ∃ t result, d = some t ∧ row = some result ∧ env.add ty i t = some result := by
  cases d with
  | none =>
    constructor
    · intro h
      cases h
      exact .inl ⟨rfl, rfl⟩
    · rintro (⟨-, rfl⟩ | ⟨_, _, h, -⟩)
      · rfl
      · cases h
  | some t =>
    rw [addRow]
    constructor
    · intro h
      split at h
      case h_1 result hr =>
        cases h
        exact .inr ⟨t, result, rfl, rfl, hr⟩
      case h_2 => cases h
    · rintro (⟨h, -⟩ | ⟨_, result, h, rfl, hr⟩)
      · cases h
      · cases h
        rw [hr]

lemma rowShifted_number_iff {d r : ℤ} : env.RowShifted p u ty (.number n) (some d) (some r) ↔
    shift ty.zone u.intervalUnit (n * u.factor) (d * ty.nanos) =
      some (r * (env.checkReturnType p ty).nanos) := by
  constructor
  · rintro ⟨r', hr, hs, -⟩
    cases hr
    exact hs
  · intro hs
    refine ⟨r, rfl, hs, fun hn heq => hn ?_⟩
    rw [heq] at hs
    rcases Int.mul_eq_zero.mp (count_eq_zero_of_shift hs) with hz | hf
    · exact hz
    · exact absurd hf u.factor_pos.ne'

lemma rowShifted_timestamp_iff {d : ℤ} {t r : ℤ} (hn : u.intervalUnit = .nanoseconds)
    (hb : env.becomesTimestamp p ty = true) (hi : i.unit = .nanoseconds)
    (ha : env.add (env.checkReturnType p ty) i t = some r) :
    env.RowShifted p u ty (.number n) (some d) (some r) ↔
      t + i.count = d * ty.nanos + n * u.factor := by
  have ht : env.checkReturnType p ty = .timestamp .nanosecond .utc := if_pos hb
  have hs := env.shift_of_add _ _ _ _ ha
  rw [ht, hi] at hs
  have hsum : t * 1 + i.count = r * 1 := Option.some.inj hs
  have he : shift ty.zone .nanoseconds (n * u.factor) (d * ty.nanos) =
      some (d * ty.nanos + n * u.factor) := rfl
  have ho : (TemporalType.timestamp .nanosecond .utc).nanos = 1 := rfl
  rw [rowShifted_number_iff, ht, hn, he, ho, Option.some.injEq]
  omega

lemma rowShifted_same_iff {d : ℤ} {r : ℤ} (hb : env.becomesTimestamp p type = false)
    (hi : i.unit = u.intervalUnit) (ha : env.add (env.checkReturnType p type) i d = some r) :
    env.RowShifted p u type (.number n) (some d) (some r) ↔ i.count = n * u.factor := by
  have ht : env.checkReturnType p type = type := if_neg (ne_true_of_eq_false hb)
  have hs := env.shift_of_add _ _ _ _ ha
  rw [ht, hi] at hs
  rw [rowShifted_number_iff, ht]
  constructor
  · intro he
    exact shift_inj hs he
  · intro hc
    rw [← hc]
    exact hs

lemma rowShifted_becomes_iff {date : ℤ} (hb : env.becomesTimestamp p ty = true)
    (hu : u.intervalUnit = .nanoseconds)
    (hr : env.addRow (env.checkReturnType p ty) (partInterval u c)
      (env.castExpr p ty (some date)) = .ok row) :
    env.RowShifted p u ty (.number n) (some date) row ↔
      env.RowFits p u ty c (.number n) (some date) := by
  have hc : env.castExpr p ty (some date) = env.castToNanos ty date := if_pos hb
  rw [hc, addRow_eq_ok_iff] at hr
  rw [RowFits, if_pos hb]
  obtain ⟨hd, rfl⟩ | ⟨t, result, hd, rfl, ha⟩ := hr
  · refine iff_of_false ?_ ?_
    · rintro ⟨_, hn, -⟩
      cases hn
    · rintro ⟨t, ht, -⟩
      rw [hd] at ht
      cases ht
  · have hi := (unit_partInterval u c).trans hu
    rw [env.rowShifted_timestamp_iff hu hb hi ha]
    constructor
    · intro hsum
      exact ⟨t, hd, hsum⟩
    · rintro ⟨time', ht, hsum⟩
      rw [hd] at ht
      cases ht
      exact hsum

lemma rowShifted_stays_iff {date : ℤ} (hb : ¬env.becomesTimestamp p ty = true)
    (hcod : IsCodeOf c (.number n)) (hr : env.addRow (env.checkReturnType p ty) (partInterval u c)
      (env.castExpr p ty (some date)) = .ok row) :
    env.RowShifted p u ty (.number n) (some date) row ↔
      env.RowFits p u ty c (.number n) (some date) := by
  have hc : env.castExpr p ty (some date) = some date := if_neg hb
  rw [hc, addRow_eq_ok_iff] at hr
  rw [RowFits, if_neg hb]
  obtain ⟨hd, -⟩ | ⟨t, result, hd, rfl, ha⟩ := hr
  · cases hd
  · cases hd
    rw [env.rowShifted_same_iff (eq_false_of_ne_true hb) (unit_partInterval u c) ha]
    exact count_code_eq_iff hcod

lemma rowShifted_iff {v : RowValue}
    (hu : env.becomesTimestamp p ty = true → u.intervalUnit = .nanoseconds) (hcod : IsCodeOf c v)
    (hr : env.addRow (env.checkReturnType p ty) (partInterval u c)
      (env.castExpr p ty date) = .ok row) :
    env.RowShifted p u ty v date row ↔ env.RowFits p u ty c v date := by
  cases date with
  | none =>
    have hc : env.castExpr p ty none = none := by
      rw [castExpr]
      split <;> rfl
    obtain ⟨-, rfl⟩ | ⟨t, result, hd, -⟩ := env.addRow_eq_ok_iff.mp hr
    · cases v <;> exact iff_of_true rfl trivial
    · rw [hc] at hd
      cases hd
  | some date =>
    cases v with
    | notANumber => exact Iff.rfl
    | null =>
      obtain ⟨hd, rfl⟩ | ⟨t, result, hd, rfl, -⟩ := env.addRow_eq_ok_iff.mp hr
      · exact iff_of_true rfl hd
      · refine iff_of_false (fun h => by cases h) fun h => ?_
        rw [RowFits, hd] at h
        cases h
    | number n =>
      by_cases hb : env.becomesTimestamp p ty = true
      · exact env.rowShifted_becomes_iff hb (hu hb) hr
      · exact env.rowShifted_stays_iff hb hcod hr

lemma length_values {n : ℕ} (h : vs.HasRows n) : (env.values n vs).length = n := by
  cases vs with
  | int64 vs => exact length_intoArray h
  | float64 vs =>
    rw [AddEnv.values, List.length_map]
    exact length_intoArray h

lemma addIntervals_eq_mapM (ty : TemporalType) (u : DatePart) (ds vs : List (Option ℤ)) :
    env.addIntervals ty u ds vs =
      (ds.zip vs).mapM fun row => env.addRow ty (partInterval u row.2) row.1 := by
  cases ds with
  | nil => rfl
  | cons d ds => rfl

lemma invoke_eq_mapM {n : ℕ} (vs : AddValues φ)
    (ty : TemporalType) (e : Columnar (Option ℤ)) (hp : addPart? p = some u) :
    env.invoke n (.scalar (some p)) vs ty e =
      (((e.intoArray n).map (env.castExpr p ty)).zip (env.values n vs)).mapM fun row =>
        env.addRow (env.checkReturnType p ty) (partInterval u row.2) row.1 := by
  simp only [invoke, hp, addIntervals_eq_mapM]

lemma row_of_invoke {n i : ℕ}
    (hp : addPart? p = some u) (hc : env.invoke n (.scalar (some p)) vs ty e = .ok rs) (hi : i < n)
    (hcod : (env.values n vs)[i]? = some c) (hd : e.row? i = some d) : ∃ row, rs[i]? = some row ∧
      env.addRow (env.checkReturnType p ty) (partInterval u c) (env.castExpr p ty d) = .ok row := by
  rw [env.invoke_eq_mapM vs ty e hp] at hc
  have he : ((e.intoArray n).map (env.castExpr p ty))[i]? = some (env.castExpr p ty d) := by
    rw [List.getElem?_map, getElem?_intoArray _ hi, hd, Option.map_some]
  have hr : (((e.intoArray n).map (env.castExpr p ty)).zip (env.values n vs))[i]? =
      some (env.castExpr p ty d, c) :=
    List.getElem?_zip_eq_some.mpr ⟨he, hcod⟩
  exact getElem?_of_mapM_eq_ok hc hr

lemma length_of_invoke {n : ℕ} (hp : addPart? p = some u) (hv : vs.HasRows n) (he : e.HasRows n)
    (hc : env.invoke n (.scalar (some p)) vs ty e = .ok rs) : rs.length = n := by
  rw [env.invoke_eq_mapM vs ty e hp] at hc
  rw [length_of_mapM_eq_ok hc, List.length_zip, List.length_map,
    env.length_values hv, length_intoArray he, Nat.min_self]

lemma intervalUnit_of_becomesTimestamp {part : String} {u : DatePart} {ty : TemporalType}
    (hp : addPart? part = some u) (h : env.becomesTimestamp part ty = true) :
    u.intervalUnit = .nanoseconds := by
  have hf : env.toLowercase part = part := by
    refine env.toLowercase_of_fixed _ fun c hc => ?_
    have hl := List.all_eq_true.mp (isLowerText_of_addPart hp) c hc
    rw [Bool.and_eq_true, decide_eq_true_eq, decide_eq_true_eq] at hl
    exact env.fixed_of_ascii c hl.1 hl.2
  rw [becomesTimestamp, hf, hp, Bool.and_eq_true] at h
  exact of_decide_eq_true h.2

def ShiftsExactly (n : ℕ) (part : String) (unit : DatePart) (values : AddValues φ)
    (type : TemporalType) (expr : Columnar (Option ℤ)) : Prop :=
  ∀ rows, env.invoke n (.scalar (some part)) values type expr = .ok rows →
    rows.length = n ∧ ∀ i value date, i < n → env.rowValue? values i = some value →
      expr.row? i = some date →
        ∃ row, rows[i]? = some row ∧ env.RowShifted part unit type value date row

/-! ### Main result -/

/-- **Rows are shifted exactly or the call fails** if and only if every value is a number in range.
-/
theorem shiftsExactly_iff {n : ℕ} {part : String} {unit : DatePart} {values : AddValues φ}
    {type : TemporalType} {expr : Columnar (Option ℤ)} (hpart : addPart? part = some unit)
    (hvalues : values.HasRows n) (hexpr : expr.HasRows n) :
    env.ShiftsExactly n part unit values type expr ↔
      (∃ e, env.invoke n (.scalar (some part)) values type expr = .error e) ∨
        ∀ i code value date, i < n → (env.values n values)[i]? = some code →
          env.rowValue? values i = some value → expr.row? i = some date →
            env.RowFits part unit type code value date := by
  have hu := fun h => @intervalUnit_of_becomesTimestamp φ env part unit type hpart h
  constructor
  · intro hex
    cases hc : env.invoke n (.scalar (some part)) values type expr with
    | error e => exact .inl ⟨e, rfl⟩
    | ok rows =>
      refine .inr fun i code value date hi hcod hv hd => ?_
      obtain ⟨row, hr, hs⟩ := (hex rows hc).2 i value date hi hv hd
      obtain ⟨row', hr', ha⟩ := env.row_of_invoke hpart hc hi hcod hd
      cases hr.symm.trans hr'
      exact (env.rowShifted_iff hu (env.isCodeOf_values hi hcod hv) ha).mp hs
  · rintro (⟨e, he⟩ | hf) rows hc
    · rw [he] at hc
      cases hc
    · refine ⟨env.length_of_invoke hpart hvalues hexpr hc, fun i value date hi hv hd => ?_⟩
      have hlen := env.length_values hvalues
      obtain ⟨code, hcod⟩ : ∃ code, (env.values n values)[i]? = some code :=
        ⟨_, List.getElem?_eq_getElem (hlen.symm ▸ hi)⟩
      obtain ⟨row, hr, ha⟩ := env.row_of_invoke hpart hc hi hcod hd
      refine ⟨row, hr, ?_⟩
      exact (env.rowShifted_iff hu (env.isCodeOf_values hi hcod hv) ha).mpr
        (hf i code value date hi hcod hv hd)

end AddEnv

def TemporalType.InRange (type : TemporalType) (value : ℤ) : Prop :=
  match type with
  | date32 => IsI32 value
  | _ => IsI64 value

instance (type : TemporalType) (value : ℤ) : Decidable (type.InRange value) :=
  match type with
  | .date32 => inferInstanceAs (Decidable (IsI32 value))
  | .date64 => inferInstanceAs (Decidable (IsI64 value))
  | .timestamp _ _ => inferInstanceAs (Decidable (IsI64 value))

def TemporalType.ofNanos? (type : TemporalType) (time : ℤ) : Option ℤ :=
  if type.InRange (time / type.nanos) ∧ time / type.nanos * type.nanos = time then
    some (time / type.nanos)
  else none

lemma TemporalType.mul_nanos_of_ofNanos? {ty : TemporalType} {v : ℤ}
    (h : ty.ofNanos? t = some v) : t = v * ty.nanos := by
  rw [ofNanos?] at h
  split at h
  case isTrue he =>
    cases h
    exact he.2.symm
  case isFalse => cases h

def sampleAddEnv : AddEnv (Option ℤ) where
  toDateEnv := sampleDateEnv
  round f := f
  castToNanos type value :=
    if IsI64 (value * type.nanos) then some (value * type.nanos) else none
  add type interval value :=
    (shift type.zone interval.unit interval.count (value * type.nanos)).bind type.ofNanos?
  shift_of_add type interval value value' h := by
    obtain ⟨time, htime, hvalue⟩ := Option.bind_eq_some_iff.mp h
    rw [htime, TemporalType.mul_nanos_of_ofNanos? hvalue]

namespace AddEnv

theorem shiftsExactly_month :
    sampleAddEnv.ShiftsExactly 2 "month" .month (.int64 (.scalar (some 1))) .date32
      (.array [some 19753, none]) := by
  have hv : (AddValues.int64 (.scalar (some 1)) : AddValues (Option ℤ)).HasRows 2 := trivial
  have he : (array [some (19753 : ℤ), none]).HasRows 2 := rfl
  refine (sampleAddEnv.shiftsExactly_iff (by decide) hv he).mpr (.inr ?_)
  intro i code value date hi hc hval hd
  have hf : DatePart.month.Fits 1 := ⟨by decide, by decide⟩
  cases hval
  obtain rfl | rfl : i = 0 ∨ i = 1 := by omega
  · cases hd
    exact hf
  · cases hd
    trivial

theorem shiftsExactly_fails :
    sampleAddEnv.invoke 1 (.scalar (some "day")) (.int64 (.scalar none)) .date32
        (.scalar (some 19723)) = .ok [some 19723] ∧
      sampleAddEnv.invoke 1 (.scalar (some "day")) (.int64 (.scalar (some 3000000000))) .date32
        (.scalar (some 19723)) = .ok [some 19723] ∧
      sampleAddEnv.invoke 1 (.scalar (some "year")) (.int64 (.scalar (some 357913942))) .date32
        (.scalar (some 19723)) = .ok [some 19967] ∧
      ¬sampleAddEnv.ShiftsExactly 1 "day" .day (.int64 (.scalar (some 3000000000))) .date32
        (.scalar (some 19723)) := by
  have hc : sampleAddEnv.invoke 1 (.scalar (some "day"))
      (.int64 (.scalar (some 3000000000))) .date32 (.scalar (some 19723)) =
        .ok [some 19723] := by decide
  refine ⟨by decide, hc, by decide, fun he => ?_⟩
  obtain ⟨row, hrw, result, hr, -, hne⟩ :=
    (he _ hc).2 0 (.number 3000000000) (some 19723) (by decide) rfl rfl
  cases hrw
  cases hr
  exact hne (by decide) rfl

end AddEnv

end Rustice
