import Rustice.FromParts

/-!
# Exact Timestamps from Parts

The parts may be out of range and roll over.
-/

namespace Rustice

open CivilDate
open TimeEnv (IsI64 wrapI64_of_isI64)

/-- The years of chrono's dates. -/
def InChrono (year : ℤ) : Prop := -262143 ≤ year ∧ year ≤ 262142

structure Parts where
  year : ℤ
  month : ℤ
  day : ℤ
  hour : ℤ
  minute : ℤ
  second : ℤ
  nanosecond : ℤ
  timezone : Option String

namespace Parts

variable (parts ps : Parts)

def timestamp (env : PartsEnv) : Except PartsError ℤ :=
  makeTimestamp env parts.year parts.month parts.day parts.hour parts.minute parts.second
    parts.nanosecond parts.timezone

def time : ℤ :=
  parts.hour * 3600000000000 + parts.minute * 60000000000 + parts.second * 1000000000 +
    parts.nanosecond

/-- The first of the month with index `12 * year + month - 1`. -/
def IsFirst (a : CivilDate) : Prop :=
  a.day = 1 ∧ a.monthIndex = 12 * parts.year + parts.month - 1

def IsWallClock (clock : ℤ) : Prop :=
  ∃ a, parts.IsFirst a ∧ clock = (a.dayNumber + (parts.day - 1)) * nanosInDay + parts.time

/-- The year, the first of the month and the date are ones that chrono has. -/
def Dated : Prop :=
  InChrono parts.year ∧ ∃ a, parts.IsFirst a ∧ InChrono a.year ∧
    InChrono (ofDayNumber (a.dayNumber + (parts.day - 1))).year

/-- No step of `make_time` overflows. -/
structure TimeFits : Prop where
  hours : IsI64 (parts.hour * 3600000000000)
  minutes : IsI64 (parts.minute * 60000000000)
  seconds : IsI64 (parts.second * 1000000000)
  hoursMinutes : IsI64 (parts.hour * 3600000000000 + parts.minute * 60000000000)
  hoursSeconds : IsI64
    (parts.hour * 3600000000000 + parts.minute * 60000000000 + parts.second * 1000000000)
  time : IsI64 parts.time

/-- No step of `make_timestamp` that is taken overflows. -/
structure NoOverflow : Prop where
  month : parts.month < 0 → IsI32 (1 - parts.month)
  day : InChrono parts.year → IsI32 (parts.day - 1)
  time : parts.Dated → parts.TimeFits
  total : parts.Dated → ∀ clock, parts.IsWallClock clock → IsI64 (clock - parts.time) ∧ IsI64 clock

def HasZone (env : PartsEnv) : Prop := ∀ tz ∈ parts.timezone, env.isTimezone tz = true

def offsetAt (offset : String → ℤ → ℤ) (instant : ℤ) : ℤ :=
  parts.timezone.elim 0 fun tz => offset tz instant

/-- `TIMESTAMP_FROM_PARTS` is exact or fails, and no step overflows. -/
def TimestampExact (env : PartsEnv) (offset : String → ℤ → ℤ) : Prop :=
  (∀ v, parts.timestamp env = .ok v → parts.IsWallClock (v + parts.offsetAt offset v)) ∧
    parts.NoOverflow

/-- `TIME_FROM_PARTS` gives the time of a day or fails, and no step overflows. -/
def TimeExact : Prop :=
  (∀ v, timeValue [.int parts.hour, .int parts.minute, .int parts.second, .int parts.nanosecond] =
    .ok v → 0 ≤ v ∧ v < nanosInDay ∧ nanosInDay ∣ v - parts.time) ∧ parts.TimeFits

variable {parts ps : Parts} {env : PartsEnv} {offset : String → ℤ → ℤ} {d e : CivilDate}

lemma TimeFits.makeTime_eq (h : ps.TimeFits) :
    makeTime ps.hour ps.minute ps.second ps.nanosecond = ps.time := by
  rw [makeTime, wrapI64_of_isI64 h.hours, wrapI64_of_isI64 h.minutes, wrapI64_of_isI64 h.seconds,
    wrapI64_of_isI64 h.hoursMinutes, wrapI64_of_isI64 h.hoursSeconds]
  exact wrapI64_of_isI64 h.time

lemma wrapI32_of_isI32 {n : ℤ} (h : IsI32 n) : wrapI32 n = n := by
  rw [IsI32] at h
  exact Int.bmod_eq_of_le (by omega) (by omega)

lemma NoOverflow.monthDistance_eq (h : ps.NoOverflow) :
    (if ps.month ≤ 0 then -monthDistance ps.month else monthDistance ps.month) = ps.month - 1 := by
  have hm := h.month
  rw [monthDistance]
  split_ifs
  · omega
  · rw [wrapI32_of_isI32 (hm (by omega))]
    omega
  all_goals omega

lemma NoOverflow.monthDistance_nonneg (h : ps.NoOverflow) : ¬monthDistance ps.month < 0 := by
  have hm := h.month
  rw [monthDistance]
  split_ifs
  · omega
  · rw [wrapI32_of_isI32 (hm (by omega))]
    omega
  · omega

lemma IsFirst.unique (hd : ps.IsFirst d) (he : ps.IsFirst e) : d = e := by
  have := d.month_bounds
  have := e.month_bounds
  have h := hd.2.trans he.2.symm
  rw [monthIndex, monthIndex] at h
  ext
  all_goals have := hd.1; have := he.1; omega

lemma IsWallClock.unique {a b : ℤ} (ha : ps.IsWallClock a) (hb : ps.IsWallClock b) : a = b := by
  obtain ⟨fi, hf, rfl⟩ := ha
  obtain ⟨fi', hf', rfl⟩ := hb
  rw [hf.unique hf']

lemma chronoDate?_eq_some_iff : chronoDate? d = some e ↔ e = d ∧ InChrono d.year := by
  rw [chronoDate?, InChrono]
  split_ifs with h <;> simp [h, eq_comm]

lemma isFirst_addMonths (hy : d.year = ps.year) (hm : d.month = 1) (hd : d.day = 1) :
    ps.IsFirst (d.addMonths (ps.month - 1)) := by
  constructor
  · have := (d.addMonths (ps.month - 1)).one_le_day
    have hle : (d.addMonths (ps.month - 1)).day ≤ d.day := min_le_left _ _
    omega
  · rw [monthIndex_addMonths, monthIndex, hy, hm]
    omega

lemma NoOverflow.shiftedDate?_eq_some_iff (h : ps.NoOverflow) (hc : InChrono ps.year)
    (hf : ps.IsFirst (d.addMonths (ps.month - 1))) :
    shiftedDate? d ps.month ps.day = some e ↔ ps.Dated ∧
      e = ofDayNumber ((d.addMonths (ps.month - 1)).dayNumber + (ps.day - 1)) := by
  rw [shiftedDate?, h.monthDistance_eq, wrapI32_of_isI32 (h.day hc)]
  simp only [bind, Option.bind_eq_some_iff, chronoDate?_eq_some_iff]
  constructor
  · rintro ⟨_, ⟨rfl, ha⟩, rfl, he⟩
    exact ⟨⟨hc, _, hf, ha, he⟩, rfl⟩
  · rintro ⟨⟨-, a, hfa, ha, he⟩, rfl⟩
    obtain rfl := hf.unique hfa
    exact ⟨_, ⟨rfl, ha⟩, rfl, he⟩

lemma NoOverflow.makeDate_eq_ok_iff (h : ps.NoOverflow) {days : ℤ} :
    makeDate ps.year ps.month ps.day = .ok days ↔
      ps.Dated ∧ ∃ a, ps.IsFirst a ∧ days = a.dayNumber + (ps.day - 1) := by
  let jan : CivilDate := ⟨ps.year, 1, 1, le_rfl, by simp [daysInMonth]⟩
  have hj : ofYmd? ps.year 1 1 = some jan := ofYmd?_eq_some_iff.mpr ⟨rfl, rfl, rfl⟩
  have hf : ps.IsFirst (jan.addMonths (ps.month - 1)) := isFirst_addMonths rfl rfl rfl
  rw [makeDate, if_neg h.monthDistance_nonneg, hj, Option.bind_some]
  by_cases hc : InChrono ps.year
  · rw [chronoDate?_eq_some_iff.mpr ⟨rfl, hc⟩]
    constructor
    · intro hd
      dsimp only at hd
      split at hd
      case h_1 => cases hd
      case h_2 date hs =>
        obtain ⟨hdt, rfl⟩ := (h.shiftedDate?_eq_some_iff hc hf).mp hs
        rw [← Except.ok.inj hd, dayNumber_ofDayNumber]
        exact ⟨hdt, _, hf, rfl⟩
    · rintro ⟨hdt, a, ha, rfl⟩
      obtain rfl := hf.unique ha
      simp only [(h.shiftedDate?_eq_some_iff hc hf).mpr ⟨hdt, rfl⟩, dayNumber_ofDayNumber]
  · have hn : chronoDate? jan = none := if_neg hc
    simp only [hn, reduceCtorEq, false_iff]
    exact fun hd => hc hd.1.1

lemma makeTimestampFromNanoseconds_eq_ok_iff {n v : ℤ} :
    makeTimestampFromNanoseconds env n ps.timezone = .ok v ↔ ps.HasZone env ∧ n = v := by
  rw [makeTimestampFromNanoseconds.eq_def, HasZone]
  cases ps.timezone with
  | none => simp
  | some tz => cases ht : env.isTimezone tz <;> simp [ht]

lemma NoOverflow.timestamp_eq_ok_iff (h : ps.NoOverflow) {v : ℤ} :
    ps.timestamp env = .ok v ↔ ps.Dated ∧ ps.HasZone env ∧ ps.IsWallClock v := by
  have hw (a) (ha : ps.IsFirst a) (hd : ps.Dated) :
      wrapI64 (wrapI64 ((a.dayNumber + (ps.day - 1)) * nanosInDay) +
        makeTime ps.hour ps.minute ps.second ps.nanosecond) =
      (a.dayNumber + (ps.day - 1)) * nanosInDay + ps.time := by
    obtain ⟨hs, ht⟩ := h.total hd _ ⟨a, ha, rfl⟩
    rw [add_sub_cancel_right] at hs
    rw [(h.time hd).makeTime_eq, wrapI64_of_isI64 hs, wrapI64_of_isI64 ht]
  rw [timestamp, makeTimestamp, bind_eq_ok]
  simp only [h.makeDate_eq_ok_iff, makeTimestampFromNanoseconds_eq_ok_iff]
  constructor
  · rintro ⟨days, ⟨hd, a, ha, rfl⟩, hz, rfl⟩
    exact ⟨hd, hz, a, ha, hw a ha hd⟩
  · rintro ⟨hd, hz, a, ha, rfl⟩
    exact ⟨_, ⟨hd, a, ha, rfl⟩, hz, hw a ha hd⟩

/-! ### Main result -/

/-- **`TIMESTAMP_FROM_PARTS` is exact exactly if no step overflows and, where the date and the zone
exist, the zone has no offset at the wall clock of the parts; `TIME_FROM_PARTS` exactly if no step
overflows and the time is one of a day.** -/
theorem partsExact_iff (parts : Parts) (env : PartsEnv) (offset : String → ℤ → ℤ) :
    (parts.TimestampExact env offset ↔ parts.NoOverflow ∧ (parts.Dated → parts.HasZone env →
      ∀ clock, parts.IsWallClock clock → parts.offsetAt offset clock = 0)) ∧
    (parts.TimeExact ↔ parts.TimeFits ∧ 0 ≤ parts.time ∧ parts.time < nanosInDay) := by
  refine ⟨?_, ?_⟩
  · rw [TimestampExact, and_comm]
    refine and_congr_right fun h => ?_
    simp only [h.timestamp_eq_ok_iff, and_imp]
    constructor
    · intro hx hd hz clock hc
      have := (hx clock hd hz hc).unique hc
      omega
    · intro hx v hd hz hc
      rwa [hx hd hz v hc, add_zero]
  · rw [TimeExact, and_comm]
    refine and_congr_right fun h => ?_
    simp only [timeValue, Except.ok.injEq, forall_eq', h.makeTime_eq, sub_self, dvd_zero, and_true]

theorem not_exact :
    ¬TimestampExact ⟨2024, 1, 1, 11, 0, 0, 0, some "Etc/GMT-1"⟩
      { PartsFunc.samplePartsEnv with isTimezone := fun _ => true } (fun _ _ => 3600000000000) ∧
    ¬TimeExact ⟨2024, 1, 1, 24, 0, 0, 0, none⟩ := by
  constructor
  · rintro ⟨h, hs⟩
    have hw v hv := (h v hv).unique (hs.timestamp_eq_ok_iff.mp hv).2.2
    exact absurd (hw _ rfl) (by decide)
  · rintro ⟨h, -⟩
    exact absurd (h _ rfl).2.1 (by decide)

end Parts

end Rustice
