import Rustice.DateAdd

/-!
# `ADD_MONTHS`

`ADD_MONTHS` casts a date or timestamp to a timestamp in nanoseconds without a zone, adds the
months, which are cut to 32 bits, and casts the result back.
-/

namespace Rustice

open CivilDate Option

open TimeEnv (IsI64)

def fromYmdOpt (year : ℤ) (month day : ℕ) : Option CivilDate :=
  if -262143 ≤ year ∧ year ≤ 262142 then ofYmd? year month day else none

def predOpt (d : CivilDate) : Option CivilDate :=
  let date := ofDayNumber (d.dayNumber - 1)
  if -262143 ≤ date.year then some date else none

def lastDayOfMonth (year : ℤ) (month : ℕ) : Option ℕ := do
  let firstOfNextMonth ←
    if month = 12 then fromYmdOpt (year + 1) 1 1 else fromYmdOpt year ((month + 1) % 2 ^ 32) 1
  let date ← predOpt firstOfNextMonth
  return date.day

def addMonthsOpt (date : CivilDate) (months : ℤ) : Option CivilDate := do
  let totalMonths := wrapI32 (wrapI32 (date.year * 12) + (date.month - 1) + months)
  let newYear := totalMonths.tdiv 12
  let newMonth := asU32 (totalMonths.tmod 12 + 1)
  let lastDay ← lastDayOfMonth date.year date.month
  let newLastDay ← lastDayOfMonth newYear newMonth
  let newDay := if date.day = lastDay then newLastDay else min date.day newLastDay
  fromYmdOpt newYear newMonth newDay

/-- The month is shifted, and the day is the same or the last. -/
structure CivilDate.ShiftedBy (d d' : CivilDate) (n : ℤ) : Prop where
  monthIndex : d'.monthIndex = d.monthIndex + n
  day : d'.day = if d.day = daysInMonth d.year d.month then daysInMonth d'.year d'.month
    else min d.day (daysInMonth d'.year d'.month)

lemma dayNumber_first {d e : CivilDate} (hd : d.day = daysInMonth d.year d.month)
    (he : e.day = 1) (h : e.monthIndex = d.monthIndex + 1) : e.dayNumber = d.dayNumber + 1 := by
  obtain ⟨ho, ht⟩ := d.month_bounds
  obtain ⟨ho', ht'⟩ := e.month_bounds
  rw [monthIndex, monthIndex] at h
  have hn : e.month = d.month % 12 + 1 ∧ e.year = d.year + d.month / 12 := by omega
  have hm := daysBeforeMarchYear_succ (d.year - 1)
  simp only [dayNumber, CivilDate.marchYear, dayOfMarchYear, he, hd, hn.1,
    hn.2, daysBeforeMarchMonth, marchMonthOfMonth]
  generalize d.month = m at *
  interval_cases m <;> simp [daysInMonth, daysInMarchYear] at * <;>
    (try split_ifs at *) <;> omega

lemma lastDayOfMonth_eq {yr : ℤ} {mn : ℕ} (hyea : -262143 ≤ yr ∧ yr < 262142)
    (hmon : 1 ≤ mn ∧ mn ≤ 12) : lastDayOfMonth yr mn = some (daysInMonth yr mn) := by
  let d : CivilDate := ⟨yr, mn, _, one_le_daysInMonth hmon.1 hmon.2, le_rfl⟩
  have hp : ∀ e : CivilDate, e.day = 1 → e.monthIndex = d.monthIndex + 1 →
      predOpt e = some d := fun e hdy hi => by
    have hd : ofDayNumber (e.dayNumber - 1) = d := by
      rw [dayNumber_first rfl hdy hi, Int.add_sub_cancel, ofDayNumber_dayNumber]
    simp only [predOpt, hd]
    exact if_pos hyea.1
  have hf : ∀ (y : ℤ) (m : ℕ), -262143 ≤ y ∧ y ≤ 262142 → 1 ≤ m ∧ m ≤ 12 →
      12 * y + (m - 1) = 12 * yr + (mn - 1) + 1 →
      (fromYmdOpt y m 1).bind (fun e => (predOpt e).bind fun dt => some dt.day) =
        some (daysInMonth yr mn) := fun y m hy hm hi => by
    rw [fromYmdOpt, if_pos hy, ofYmd?, dif_pos ⟨le_rfl, one_le_daysInMonth hm.1 hm.2⟩,
      bind_some, hp ⟨y, m, 1, le_rfl, one_le_daysInMonth hm.1 hm.2⟩ rfl hi]
    rfl
  rw [lastDayOfMonth]
  split_ifs with ht
  · exact hf (yr + 1) 1 ⟨by omega, by omega⟩ ⟨by omega, by omega⟩ (by omega)
  · rw [Nat.mod_eq_of_lt (by omega)]
    exact hf yr (mn + 1) ⟨by omega, by omega⟩ ⟨by omega, by omega⟩ (by omega)

variable {d d' : CivilDate}

lemma shiftedBy_of_addMonthsOpt {months : ℤ}
    (hd : 1677 ≤ d.year ∧ d.year ≤ 2262) (hd' : 1677 ≤ d'.year ∧ d'.year ≤ 2262)
    (hm : IsI32 months) (h : addMonthsOpt d months = some d') : d.ShiftedBy d' months := by
  have hmon := d.month_bounds
  obtain ⟨lastDay, hl, h⟩ := bind_eq_some_iff.mp h
  obtain ⟨newLastDay, hn, h⟩ := bind_eq_some_iff.mp h
  obtain ⟨-, h⟩ := ite_none_right_eq_some.mp h
  obtain ⟨hy, hm', hdy⟩ := ofYmd?_eq_some_iff.mp h
  -- The year of the result is positive, so the total is too and has not wrapped.
  have hi : wrapI32 (d.year * 12) = d.year * 12 := Int.bmod_eq_of_le (by omega) (by omega)
  have hpos : 0 ≤ wrapI32 (wrapI32 (d.year * 12) + (d.month - 1) + months) := by
    have hp := Int.mul_tdiv_add_tmod (wrapI32 (wrapI32 (d.year * 12) + (d.month - 1) + months)) 12
    have hr := Int.lt_tmod_of_pos
      (wrapI32 (wrapI32 (d.year * 12) + (d.month - 1) + months)) (show (0 : ℤ) < 12 by decide)
    omega
  have ht : wrapI32 (wrapI32 (d.year * 12) + (d.month - 1) + months) = d.monthIndex + months := by
    rw [hi, wrapI32, Int.bmod_def] at hpos ⊢
    rw [IsI32] at hm
    rw [monthIndex]
    split_ifs at hpos ⊢ <;> omega
  rw [ht] at hpos hy hm' hn
  rw [Int.tdiv_eq_ediv_of_nonneg hpos] at hy hn
  rw [Int.tmod_eq_emod_of_nonneg hpos] at hm' hn
  rw [← hy, ← hm', lastDayOfMonth_eq ⟨by omega, by omega⟩ d'.month_bounds, some.injEq] at hn
  rw [lastDayOfMonth_eq ⟨by omega, by omega⟩ hmon, some.injEq] at hl
  refine ⟨?_, ?_⟩
  · rw [asU32] at hm'
    rw [monthIndex]
    omega
  · rw [hdy, hl, hn]

lemma CivilDate.ShiftedBy.eq_of_zero (h : d.ShiftedBy d' 0) : d' = d := by
  have hi := h.monthIndex
  have hd := h.day
  have hm := d.month_bounds
  have hm' := d'.month_bounds
  rw [CivilDate.monthIndex, CivilDate.monthIndex] at hi
  have hy : d'.year = d.year := by omega
  have hme : d'.month = d.month := by omega
  refine CivilDate.ext hy hme ?_
  rw [hy, hme, min_eq_left d.day_le] at hd
  split_ifs at hd with hl
  · rw [hd, hl]
  · exact hd

/-- The casts keep the time in UTC, and take a local time that occurs once. -/
structure AddMonthsEnv (type : TemporalType) where
  toNanos : ℤ → Option ℤ
  fromNanos : ℤ → Option ℤ
  toNanos_exact : ∀ v ts, toNanos v = some ts → ts = v * type.nanos ∧ IsI64 ts
  fromNanos_exact : ∀ ts v, type.nanos ∣ ts → fromNanos ts = some v →
    ∀ time, type.zone.toLocal time = ts ↔ time = v * type.nanos

inductive AddMonthsError where
  | notATimestamp
  | cantCast
  | cantParseDate
  | timestampIsOutOfRange
  deriving DecidableEq

namespace AddMonthsEnv

variable {type : TemporalType} (env : AddMonthsEnv type) (toAdd : ℤ)

def addRow (row : Option ℤ) : Except AddMonthsError (Option ℤ) :=
  match row with
  | none => .error .notATimestamp
  | some v =>
    match env.toNanos v with
    | none => .error .cantCast
    | some ts =>
      match addMonthsOpt (dateOfNanos ts) (wrapI32 toAdd) with
      | none => .error .cantParseDate
      | some date =>
        if IsI64 (date.dayNumber * nanosInDay + ts % nanosInDay) then
          match env.fromNanos (date.dayNumber * nanosInDay + ts % nanosInDay) with
          | none => .error .cantCast
          | some result => .ok (some result)
        else .error .timestampIsOutOfRange

def invoke (rows : List (Option ℤ)) : Except AddMonthsError (List (Option ℤ)) :=
  rows.mapM (env.addRow toAdd)

variable (type) in
/-- The local date is shifted by the months, and the local time of day is the same. -/
def RowLaw : Option ℤ → Option ℤ → Prop
  | none, result => result = none
  | some v, result => ∃ v', result = some v' ∧
      (dateOfNanos (type.zone.toLocal (v * type.nanos))).ShiftedBy
        (dateOfNanos (type.zone.toLocal (v' * type.nanos))) toAdd ∧
      type.zone.toLocal (v' * type.nanos) % nanosInDay =
        type.zone.toLocal (v * type.nanos) % nanosInDay ∧ (toAdd = 0 → v' = v)

def FollowsLaw (rows : List (Option ℤ)) : Prop :=
  (∃ values, env.invoke toAdd rows = .ok values ∧ List.Forall₂ (RowLaw type toAdd) rows values) ∨
    none ∉ rows ∧ ∃ e, env.invoke toAdd rows = .error e

variable {env toAdd} {row r : Option ℤ}

lemma nanos_dvd (type : TemporalType) : type.nanos ∣ nanosInDay := by
  cases type with
  | date32 => exact dvd_rfl
  | date64 => decide
  | timestamp u zone =>
    have hu : u.nanos ∣ nanosInDay := by cases u <;> decide
    exact hu

lemma addRow_eq_ok (h : env.addRow toAdd row = .ok r) : ∃ v v' d, row = some v ∧ r = some v' ∧
    (dateOfNanos (v * type.nanos)).ShiftedBy d (wrapI32 toAdd) ∧ ∀ t, type.zone.toLocal t =
      d.dayNumber * nanosInDay + v * type.nanos % nanosInDay ↔ t = v' * type.nanos := by
  rw [addRow.eq_def] at h
  split at h
  · cases h
  rename_i v
  split at h
  · cases h
  rename_i ts ht
  obtain ⟨rfl, hf⟩ := env.toNanos_exact _ _ ht
  split at h
  · cases h
  rename_i d hd
  split_ifs at h with hr
  split at h
  · cases h
  rename_i v' hv'
  cases h
  have hdvd : type.nanos ∣ d.dayNumber * nanosInDay + v * type.nanos % nanosInDay :=
    dvd_add ((nanos_dvd type).mul_left _) (Int.emod_def _ _ ▸
      dvd_sub (Dvd.intro_left v rfl) ((nanos_dvd type).mul_right _))
  refine ⟨v, v', d, rfl, rfl, ?_, env.fromNanos_exact _ _ hdvd hv'⟩
  exact shiftedBy_of_addMonthsOpt (year_dateOfNanos_bounds hf)
    (dateOfNanos_add d _ ▸ year_dateOfNanos_bounds hr) (isI32_wrapI32 _) hd

lemma rowLaw_iff (hzon : ∀ t, |type.zone.toLocal t - t| < nanosInDay)
    (h : env.addRow toAdd row = .ok r) : RowLaw type toAdd row r ↔
    ∀ v, row = some v → type.zone.toLocal (v * type.nanos) = v * type.nanos ∧ IsI32 toAdd := by
  obtain ⟨v, v', date, rfl, rfl, hs, hl⟩ := addRow_eq_ok h
  have hr := (hl _).mpr rfl
  have hn := abs_lt.mp (hzon (v * type.nanos))
  simp only [RowLaw, some.injEq, exists_eq_left', forall_eq', hr, dateOfNanos_add]
  constructor
  · rintro ⟨hlw, ht, -⟩
    have hu : type.zone.toLocal (v * type.nanos) = v * type.nanos := by
      rw [nanosInDay] at ht hn
      omega
    have hi := hlw.monthIndex
    rw [hu, hs.monthIndex] at hi
    exact ⟨hu, Int.add_left_cancel hi ▸ isI32_wrapI32 toAdd⟩
  · rintro ⟨hu, hi3⟩
    have hw : wrapI32 toAdd = toAdd := by
      rw [IsI32] at hi3
      exact Int.bmod_eq_of_le (by omega) (by omega)
    rw [hw] at hs
    rw [hu]
    refine ⟨hs, by rw [nanosInDay]; omega, ?_⟩
    rintro rfl
    have ht := (hl (v * type.nanos)).mp (by
      rw [hu, hs.eq_of_zero, dateOfNanos, dayNumber_ofDayNumber, dayOfNanos]
      exact (Int.ediv_mul_add_emod _ nanosInDay).symm)
    have hpos : type.nanos ≠ 0 := fun hz => by
      have hdvd := nanos_dvd type
      rw [hz, zero_dvd_iff] at hdvd
      exact absurd hdvd (by decide)
    exact (Int.eq_of_mul_eq_mul_right hpos ht).symm

/-! ### Main result -/

/-- **The month-index law** holds exactly if no row is NULL and, unless the call fails, local times
are UTC and the months an `i32`. -/
theorem followsLaw_iff (hzone : ∀ time, |type.zone.toLocal time - time| < nanosInDay)
    {rows : List (Option ℤ)} : env.FollowsLaw toAdd rows ↔
      none ∉ rows ∧ ((∃ e, env.invoke toAdd rows = .error e) ∨ ∀ v, some v ∈ rows →
          type.zone.toLocal (v * type.nanos) = v * type.nanos ∧ IsI32 toAdd) := by
  rw [FollowsLaw]
  cases hc : env.invoke toAdd rows with
  | error e => simp
  | ok values =>
    have hrw : ∀ row ∈ rows, ∃ result, env.addRow toAdd row = .ok result := fun row =>
      exists_of_mapM_eq_ok hc
    have hn : none ∉ rows := fun hm => by
      obtain ⟨result, ⟨⟩⟩ := hrw none hm
    have ho : ¬∃ e, (Except.ok values : Except AddMonthsError _) = .error e := nofun
    rw [or_iff_left fun h => ho h.2, and_iff_right hn, or_iff_right ho, ← hc, invoke,
      exists_mapM_eq_ok_iff]
    constructor
    · intro ha v hv
      obtain ⟨result, hr, hl⟩ := ha _ hv
      exact (rowLaw_iff hzone hr).mp hl v rfl
    · intro ha row hm
      obtain ⟨result, hr⟩ := hrw row hm
      exact ⟨result, hr, (rowLaw_iff hzone hr).mpr fun v hv => ha v (hv ▸ hm)⟩

def fixedType (offset : ℤ) : TemporalType :=
  .timestamp .nanosecond ⟨(· + offset), fun time => some (time - offset), fun _ _ h => by
    cases h
    exact Int.sub_add_cancel _ _⟩

def fixedEnv (offset : ℤ) : AddMonthsEnv (fixedType offset) where
  toNanos v := if IsI64 v then some v else none
  fromNanos ts := some (ts - offset)
  toNanos_exact v ts h := by
    obtain ⟨hv, ⟨⟩⟩ := ite_none_right_eq_some.mp h
    exact ⟨(Int.mul_one v).symm, hv⟩
  fromNanos_exact ts v _ h time := by
    cases h
    simp only [fixedType, TemporalType.zone, TemporalType.nanos, TimeUnit.nanos]
    omega

theorem followsLaw_january : (fixedEnv 0).FollowsLaw 1 [some 1706659200000000000] := by
  refine (followsLaw_iff fun time => ?_).mpr ⟨by decide, .inr fun v _ => ⟨?_, by decide⟩⟩
  · simp [fixedType, TemporalType.zone, nanosInDay]
  · simp [fixedType, TemporalType.zone]

theorem not_followsLaw :
    (fixedEnv 3600000000000).invoke 0 [some 0] = .ok [some (-3600000000000)] ∧
      ¬(fixedEnv 3600000000000).FollowsLaw 0 [some 0] ∧
      (fixedEnv 0).invoke 4294967296 [some 0] = .ok [some 0] ∧
      (fixedEnv 0).invoke 1 [none] = .error .notATimestamp := by
  have hc : (fixedEnv 3600000000000).invoke 0 [some 0] = .ok [some (-3600000000000)] := by
    decide +kernel
  refine ⟨hc, ?_, by decide +kernel, by decide⟩
  rintro (⟨values, hv, hl⟩ | ⟨-, e, he⟩)
  · rw [hc] at hv
    cases hv
    obtain ⟨v', ⟨⟩, -, -, hz⟩ := (List.forall₂_cons.mp hl).1
    exact absurd (hz rfl) (by decide)
  · rw [hc] at he
    cases he

end AddMonthsEnv

end Rustice
