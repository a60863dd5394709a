import Rustice.DateAdd

/-!
# `DATEDIFF` after `DATEADD`

`DATEADD` adds years, months and days to the local time of a timestamp with a time zone.
-/

namespace Rustice

open TimeEnv (IsI64 wrapI64_of_isI64)

def DatePart.periodIndex (unit : DatePart) (time : ℤ) : ℤ :=
  match unit with
  | .year => (dateOfNanos time).year
  | .month => (dateOfNanos time).monthIndex
  | .day => dayOfNanos time
  | _ => 0

def DatePart.ahead (unit : DatePart) (zone : Zone) (time : ℤ) : ℤ :=
  unit.periodIndex (zone.toLocal time) - unit.periodIndex time

def DatePart.IsPeriod (unit : DatePart) : Prop := unit = .year ∨ unit = .month ∨ unit = .day

open DatePart

section Periods

variable {u : DatePart} {z : Zone} {n t time' : ℤ}

lemma dateOfNanos_shiftLocal (count t : ℤ) :
    dateOfNanos (shiftLocal .months count t) = (dateOfNanos t).addMonths count :=
  dateOfNanos_add _ t

lemma periodIndex_shift (hu : u.IsPeriod)
    (h : shift z u.intervalUnit (n * u.factor) t = some time') :
    u.periodIndex (z.toLocal time') = u.periodIndex (z.toLocal t) + n := by
  have hl := toLocal_shift (by rcases hu with rfl | rfl | rfl <;> decide) h
  rw [hl]
  rcases hu with rfl | rfl | rfl
  · have hi := (dateOfNanos (z.toLocal t)).monthIndex_addMonths (n * 12)
    have hm := ((dateOfNanos (z.toLocal t)).addMonths (n * 12)).month_bounds
    have hm' := (dateOfNanos (z.toLocal t)).month_bounds
    simp only [periodIndex, intervalUnit, factor,
      dateOfNanos_shiftLocal, CivilDate.monthIndex] at hi ⊢
    omega
  · simp only [periodIndex, intervalUnit, dateOfNanos_shiftLocal,
      factor, Int.mul_one, CivilDate.monthIndex_addMonths]
  · simp only [periodIndex, intervalUnit, factor, shiftLocal,
      dayOfNanos, nanosInDay]
    omega

lemma timestampDiff_period (f : DateDiffFunc) (hu : u.IsPeriod) (ha : IsI64 t) (hb : IsI64 time') :
    f.timestampDiff u t time' = .ok (u.periodIndex time' - u.periodIndex t) := by
  rcases hu with rfl | rfl | rfl
  · exact f.timestampDiff_calendar .year ha hb
  · rw [show month = CalendarUnit.month.part from rfl,
      f.timestampDiff_calendar .month ha hb]
    simp only [CalendarUnit.field, periodIndex, CivilDate.monthIndex, CalendarUnit.part]
    congr 1
    omega
  · have hf : IsI64 (time' / (86400 * 1000000000) - t / (86400 * 1000000000)) := by
      rw [IsI64] at *
      omega
    exact congrArg Except.ok (wrapI64_of_isI64 hf)

lemma timestampDiff_time (f : DateDiffFunc) (hu : u.isTime = true) (hn : IsI64 (n * u.factor)) :
    f.timestampDiff u t (t + n * u.factor) = .ok n := by
  have hd : ∀ c : ℤ, 0 < c → IsI64 (n * c) →
      DateDiffFunc.boundaryDiff c t (t + n * c) = n := fun c hpos hf => by
    have hn : IsI64 n := by
      rw [IsI64] at *
      constructor <;> nlinarith
    rw [DateDiffFunc.boundaryDiff, Int.add_mul_ediv_right _ _ hpos.ne', add_sub_cancel_left,
      wrapI64_of_isI64 hn]
  have hc := hd u.factor u.factor_pos hn
  cases u with
  | year | month | day | week | quarter => cases hu
  | hour | minute | second | millisecond | microsecond | nanosecond => exact congrArg Except.ok hc

end Periods

namespace AddEnv

variable {φ : Type} (env : AddEnv φ) (f : DateDiffFunc)

def DiffInverts (part : String) (unit : TimeUnit) (n date result : ℤ) : Prop :=
  f.call part (date * unit.nanos) (result * unit.nanos) = .ok [some n]

/-! ### Main result -/

/-- **`DATEDIFF` inverts `DATEADD`** exactly if both local dates are equally far ahead of UTC. -/
theorem diffInverts_iff {part : String} {unit : DatePart} {timeUnit : TimeUnit} {zone : Zone}
    {n date result : ℤ} (hadd : addPart? part = some unit)
    (hdiff : datePart? (toAsciiLowercase part) = some unit)
    (hunit : unit.IsPeriod ∨ unit.isTime = true) (hn : unit.Fits n)
    (hdate : IsI64 (date * timeUnit.nanos)) (hresult : IsI64 (result * timeUnit.nanos))
    (hcall : env.invoke 1 (.scalar (some part)) (.int64 (.scalar (some n)))
      (.timestamp timeUnit zone) (.scalar (some date)) = .ok [some result]) :
    DiffInverts f part timeUnit n date result ↔
      unit.ahead zone (date * timeUnit.nanos) = unit.ahead zone (result * timeUnit.nanos) := by
  obtain ⟨row, hr, ho⟩ := env.row_of_invoke hadd hcall Nat.one_pos rfl rfl
  cases hr
  obtain ⟨-, hnon⟩ | ⟨time, _, ⟨⟩, ⟨⟩, he⟩ := env.addRow_eq_ok_iff.mp ho
  · cases hnon
  have hs := env.shift_of_add _ _ _ _ he
  rw [unit_partInterval, (count_partInterval_eq_iff unit n).mpr hn] at hs
  change shift zone unit.intervalUnit (n * unit.factor) (date * timeUnit.nanos) =
    some (result * timeUnit.nanos) at hs
  rw [DiffInverts, f.call_eq hdiff]
  rcases hunit with hp | ht
  · have hi := periodIndex_shift hp hs
    rw [timestampDiff_period f hp hdate hresult, ahead, ahead]
    simp only [Except.map, Except.ok.injEq, List.cons.injEq, Option.some.injEq, and_true]
    omega
  · have hnan : unit.intervalUnit = .nanoseconds := of_decide_eq_true ht
    rw [DatePart.Fits, hnan] at hn
    rw [hnan] at hs
    rw [← Option.some.inj hs, timestampDiff_time f ht hn]
    refine iff_of_true rfl ?_
    cases unit with
    | year | month | day | week | quarter => cases ht
    | hour | minute | second | millisecond | microsecond | nanosecond => rfl

theorem diffInverts_month :
    DiffInverts ⟨none⟩ "month" .nanosecond 1 1706659200000000000 1709164800000000000 :=
  (diffInverts_iff sampleAddEnv ⟨none⟩ (by decide) (by decide) (.inl (.inr (.inl rfl)))
    ⟨by decide, by decide⟩ (by decide) (by decide)
    (show sampleAddEnv.invoke 1 _ _ (.timestamp .nanosecond .utc) _ = _ by decide +kernel)).mpr rfl

def newYork : Zone where
  toLocal time :=
    if time < 1710054000000000000 then time - 18000000000000 else time - 14400000000000
  fromLocal local' :=
    if local' < 1710036000000000000 then some (local' + 18000000000000)
    else if local' < 1710039600000000000 then none
    else some (local' + 14400000000000)
  toLocal_of_fromLocal local' time h := by
    split_ifs at h <;> cases h <;> split_ifs <;> omega

theorem not_diffInverts :
    sampleAddEnv.invoke 1 (.scalar (some "day")) (.int64 (.scalar (some 1)))
        (.timestamp .nanosecond newYork) (.scalar (some 1710030600000000000)) =
      .ok [some 1710113400000000000] ∧
    ¬DiffInverts ⟨none⟩ "day" .nanosecond 1 1710030600000000000 1710113400000000000 := by
  refine ⟨by decide +kernel, fun h => ?_⟩
  have hc : (⟨none⟩ : DateDiffFunc).call "day" (1710030600000000000 * TimeUnit.nanosecond.nanos)
      (1710113400000000000 * TimeUnit.nanosecond.nanos) = .ok [some 0] := by decide +kernel
  rw [DiffInverts, hc] at h
  cases h

end AddEnv

end Rustice
