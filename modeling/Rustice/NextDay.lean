import Rustice.DateDiff

/-!
# `NEXT_DAY` and `PREVIOUS_DAY`

Both read a weekday off the first two letters of its name, each in a table of its own, and count the
days to or from it.
-/

namespace Rustice

open List
open TimeEnv (IsI64)

inductive Weekday where
  | mon | tue | wed | thu | fri | sat | sun
  deriving DecidableEq

namespace Weekday

def numDaysFromSunday : Weekday → ℕ
  | sun => 0
  | mon => 1
  | tue => 2
  | wed => 3
  | thu => 4
  | fri => 5
  | sat => 6

def name : Weekday → String
  | sun => "sunday"
  | mon => "monday"
  | tue => "tuesday"
  | wed => "wednesday"
  | thu => "thursday"
  | fri => "friday"
  | sat => "saturday"

def Names (w : Weekday) (text : String) : Prop :=
  2 ≤ text.toList.length ∧ (toAsciiLowercase text).toList <+: w.name.toList

def On (w : Weekday) (day : ℤ) : Prop := (daysFromMonday day + 1) % 7 = w.numDaysFromSunday

instance (w : Weekday) (day : ℤ) : Decidable (w.On day) := inferInstanceAs (Decidable (_ = _))

end Weekday

inductive WeekdayError where
  | invalidDayOfWeek (dow : String)
  | mustBeTimestamp
  | dateOutOfRange (day : ℤ)

structure LowercaseEnv where
  toLowercase : String → String
  toLowercase_ascii :
    ∀ s, (∀ c ∈ s.toList, c.toNat < 128) → toLowercase s = toAsciiLowercase s

def startsWith (s pat : String) : Bool := pat.toList.isPrefixOf s.toList

def nextTarget (dow : String) : Except WeekdayError Weekday :=
  if startsWith dow "su" then .ok .sun
  else if startsWith dow "mo" then .ok .mon
  else if startsWith dow "tu" then .ok .tue
  else if startsWith dow "we" then .ok .wed
  else if startsWith dow "th" then .ok .thu
  else if startsWith dow "fr" then .ok .fri
  else if startsWith dow "sa" then .ok .sat
  else .error (.invalidDayOfWeek dow)

def prevTarget (dow : String) : Except WeekdayError Weekday :=
  match String.ofList (dow.toList.take 2) with
  | "mo" => .ok .mon
  | "tu" => .ok .tue
  | "we" => .ok .wed
  | "th" => .ok .thu
  | "fr" => .ok .fri
  | "sa" => .ok .sat
  | _ => .error (.invalidDayOfWeek dow)

def currentDow (ts : ℤ) : ℕ := (daysFromMonday (ts / nanosInDay) + 1) % 7

def orWeek (days : ℕ) : ℕ := if days = 0 then 7 else days

def nextDay (ts : ℤ) (dow : String) : Except WeekdayError ℤ := do
  let target ← nextTarget dow
  return ts + orWeek ((target.numDaysFromSunday + 7 - currentDow ts) % 7) * nanosInDay

def prevDay (ts : ℤ) (dow : String) : Except WeekdayError ℤ := do
  let target ← prevTarget dow
  return ts - orWeek ((currentDow ts + 7 - target.numDaysFromSunday) % 7) * nanosInDay

def timestampMillis (ts : ℤ) : ℤ := ts / 1000000

namespace LowercaseEnv

variable (env : LowercaseEnv)

def nextRow (day : String) : Option ℤ → Except WeekdayError (Option ℤ)
  | some date =>
    if IsI64 (date * nanosInDay) then
      (nextDay (date * nanosInDay) (env.toLowercase day)).map fun next =>
        some (timestampMillis next)
    else .error (.dateOutOfRange date)
  | none => .error .mustBeTimestamp

def nextDayFunc (rows : List (Option ℤ)) (day : String) : Except WeekdayError (List (Option ℤ)) :=
  rows.mapM (env.nextRow day)

variable (cast : DateCast)

def prevRow (day : String) (row : Option ℤ) : Except WeekdayError (Option ℤ) :=
  match row.bind cast.toNanos with
  | some ts => (prevDay ts (env.toLowercase day)).map fun prev =>
      some ((timestampMillis prev).tdiv 86400000)
  | none => .ok none

def previousDayFunc (rows : List (Option ℤ)) (day : String) :
    Except WeekdayError (List (Option ℤ)) :=
  rows.mapM (env.prevRow cast day)

def NearestDays (w : Weekday) (day : String) : Option ℤ → Prop
  | some date => ∃ next prev : ℤ, env.nextDayFunc [some date] day = .ok [some (next * 86400000)] ∧
    env.previousDayFunc cast [some date] day = .ok [some prev] ∧
    IsLeast {n | date < n ∧ w.On n} next ∧ IsGreatest {n | n < date ∧ w.On n} prev ∧
    env.nextDayFunc [some prev] day = .ok [some ((if w.On date then date else next) * 86400000)]
  | none =>
    env.nextDayFunc [none] day = .ok [none] ∧ env.previousDayFunc cast [none] day = .ok [none]

end LowercaseEnv

namespace Weekday

variable {w : Weekday} {date d : ℤ} {text t : String}

lemma numDaysFromSunday_lt (w : Weekday) : w.numDaysFromSunday < 7 := by
  cases w <;> decide

lemma on_iff : w.On d ↔ (d + 4) % 7 = w.numDaysFromSunday := by
  rw [On, daysFromMonday]
  omega

lemma currentDow_midnight (d : ℤ) : (currentDow (d * nanosInDay) : ℤ) = (d + 4) % 7 := by
  rw [currentDow, Int.mul_ediv_cancel _ (by decide), daysFromMonday]
  omega

def after (w : Weekday) (date : ℤ) : ℤ := date + 7 - (date + 4 - w.numDaysFromSunday) % 7

def before (w : Weekday) (date : ℤ) : ℤ := date - 1 - (date + 3 - w.numDaysFromSunday) % 7

lemma isLeast_after (w : Weekday) (d : ℤ) : IsLeast {n | d < n ∧ w.On n} (w.after d) := by
  have := w.numDaysFromSunday_lt
  constructor
  · rw [Set.mem_ofPred, on_iff, after]
    omega
  · rintro n ⟨hlt, hn⟩
    rw [on_iff] at hn
    rw [after]
    omega

lemma isGreatest_before (w : Weekday) (d : ℤ) : IsGreatest {n | n < d ∧ w.On n} (w.before d) := by
  have := w.numDaysFromSunday_lt
  constructor
  · rw [Set.mem_ofPred, on_iff, before]
    omega
  · rintro n ⟨hlt, hn⟩
    rw [on_iff] at hn
    rw [before]
    omega

lemma after_before (w : Weekday) (date : ℤ) :
    w.after (w.before date) = if w.On date then date else w.after date := by
  have := w.numDaysFromSunday_lt
  rw [after, after, before]
  split_ifs with ho
  · rw [on_iff] at ho
    omega
  · rw [on_iff] at ho
    omega

lemma orWeek_after (w : Weekday) (date : ℤ) :
    date + orWeek ((w.numDaysFromSunday + 7 - currentDow (date * nanosInDay)) % 7) =
      w.after date := by
  have := w.numDaysFromSunday_lt
  have := currentDow_midnight date
  rw [after, orWeek]
  split_ifs <;> omega

lemma orWeek_before (w : Weekday) (date : ℤ) :
    date - orWeek ((currentDow (date * nanosInDay) + 7 - w.numDaysFromSunday) % 7) =
      w.before date := by
  have := w.numDaysFromSunday_lt
  have := currentDow_midnight date
  rw [before, orWeek]
  split_ifs <;> omega

lemma Names.toLowercase (env : LowercaseEnv) (h : w.Names text) :
    env.toLowercase text = toAsciiLowercase text := by
  refine env.toLowercase_ascii text fun c hc => ?_
  have hn : c.toLower ∈ w.name.toList :=
    h.2.subset (by simpa [toAsciiLowercase] using ⟨c, hc, rfl⟩)
  have ha : w.name.toList.all (·.toNat < 128) = true := by cases w <;> rfl
  have := of_decide_eq_true (all_eq_true.mp ha _ hn)
  rw [toNat_toLower] at this
  split_ifs at this <;> omega

lemma Names.take (h : w.Names t) : (toAsciiLowercase t).toList.take 2 = w.name.toList.take 2 := by
  have hlen : 2 ≤ (toAsciiLowercase t).toList.length := by simpa [toAsciiLowercase] using h.1
  rw [prefix_iff_eq_take.mp h.2, take_take, min_eq_left hlen]

lemma Names.nextTarget (h : w.Names t) : nextTarget (toAsciiLowercase t) = .ok w := by
  have hs (pat) : startsWith (toAsciiLowercase t) pat =
      pat.toList.isPrefixOf (w.name.toList.take 2 ++ (toAsciiLowercase t).toList.drop 2) := by
    rw [← h.take, take_append_drop, startsWith]
  simp only [Rustice.nextTarget, hs]
  cases w <;> rfl

lemma Names.prevTarget (h : w.Names t) : prevTarget (toAsciiLowercase t) =
    if w = .sun then .error (.invalidDayOfWeek (toAsciiLowercase t)) else .ok w := by
  rw [Rustice.prevTarget, h.take]
  cases w <;> rfl

end Weekday

namespace LowercaseEnv

variable {env : LowercaseEnv} {cast : DateCast} {w : Weekday} {text t : String} {date d : ℤ}

lemma timestampMillis_midnight (d : ℤ) : timestampMillis (d * nanosInDay) = d * 86400000 := by
  rw [timestampMillis, nanosInDay]
  omega

lemma nextDayFunc_eq (env : LowercaseEnv) (h : w.Names t) (d : ℤ) :
    env.nextDayFunc [some d] t = if IsI64 (d * nanosInDay) then .ok [some (w.after d * 86400000)]
      else .error (.dateOutOfRange d) := by
  simp only [nextDayFunc, mapM_cons, mapM_nil, nextRow]
  split_ifs with hc
  · have hn : nextDay (d * nanosInDay) (env.toLowercase t) = .ok (w.after d * nanosInDay) := by
      rw [nextDay, h.toLowercase, h.nextTarget, ← w.orWeek_after, add_mul]
      rfl
    rw [hn, ← timestampMillis_midnight]
    rfl
  · rfl

lemma previousDayFunc_eq (env : LowercaseEnv) (cast : DateCast) (h : w.Names t)
    (hc : IsI64 (date * nanosInDay)) : env.previousDayFunc cast [some date] t =
      if w = .sun then .error (.invalidDayOfWeek (toAsciiLowercase t))
      else .ok [some (w.before date)] := by
  simp only [previousDayFunc, mapM_cons, mapM_nil, prevRow, Option.bind_some,
    cast.toNanos_eq _ hc, prevDay, h.toLowercase, h.prevTarget]
  split_ifs with hs
  · rfl
  · have hm :
        (timestampMillis (w.before date * nanosInDay)).tdiv 86400000 = w.before date := by
      rw [timestampMillis_midnight, Int.mul_tdiv_cancel _ (by decide)]
    rw [← w.orWeek_before, sub_mul] at hm
    rw [← w.orWeek_before, ← hm]
    rfl

/-! ### Main result -/

/-- **The two functions find the nearest days exactly for a date that is not NULL and a weekday
other than Sunday, as long as the dates are timestamps.** -/
theorem nearestDays_iff (env : LowercaseEnv) (cast : DateCast) (h : w.Names text) (row : Option ℤ) :
    env.NearestDays cast w text row ↔
      ∃ date, row = some date ∧ w ≠ .sun ∧ IsI64 (date * nanosInDay) ∧
      ∀ n, n < date → date ≤ n + 7 → w.On n → IsI64 (n * nanosInDay) := by
  cases row with
  | none =>
    refine iff_of_false ?_ ?_
    · rintro ⟨hnex, -⟩
      cases hnex
    · rintro ⟨_, hr, -⟩
      cases hr
  | some date =>
    have hb := w.isGreatest_before date
    rw [NearestDays]
    constructor
    · rintro ⟨next, prev, hnex, hp, -, -, hbac⟩
      have hd : IsI64 (date * nanosInDay) := by
        by_contra hc
        rw [nextDayFunc_eq env h, if_neg hc] at hnex
        cases hnex
      have hs : w ≠ .sun := by
        intro hs
        rw [previousDayFunc_eq env cast h hd, if_pos hs] at hp
        cases hp
      rw [previousDayFunc_eq env cast h hd, if_neg hs] at hp
      cases hp
      refine ⟨date, rfl, hs, hd, fun n hlt hle hn => ?_⟩
      have hn' := hb.2 ⟨hlt, hn⟩
      have : n = w.before date := by
        rw [Weekday.on_iff] at hn
        rw [Weekday.before] at hn' ⊢
        omega
      subst this
      by_contra hc
      rw [nextDayFunc_eq env h, if_neg hc] at hbac
      cases hbac
    · rintro ⟨_, ⟨⟩, hs, hd, hc⟩
      have hp := hc _ hb.1.1 (by rw [Weekday.before]; omega) hb.1.2
      refine ⟨w.after date, w.before date, ?_, ?_, w.isLeast_after date, hb, ?_⟩
      · rw [nextDayFunc_eq env h, if_pos hd]
      · rw [previousDayFunc_eq env cast h hd, if_neg hs]
      · rw [nextDayFunc_eq env h, if_pos hp, w.after_before]

def sampleLowercaseEnv : LowercaseEnv where
  toLowercase := toAsciiLowercase
  toLowercase_ascii _ _ := rfl

theorem nearestDays_friday :
    sampleLowercaseEnv.NearestDays sampleDateCast .fri "Fri" (some 19723) :=
  (nearestDays_iff _ _ ⟨by decide, by decide⟩ _).mpr ⟨19723, rfl, by decide, by decide,
    fun n hlt hle _ => by rw [IsI64, nanosInDay]; omega⟩

theorem not_nearestDays_sunday :
    ¬sampleLowercaseEnv.NearestDays sampleDateCast .sun "Sunday" (some 19723) := by
  rintro ⟨_, _, -, h, -⟩
  cases h

end LowercaseEnv

end Rustice
