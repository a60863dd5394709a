import Rustice.Timestamp

/-!
# `CONVERT_TIMEZONE` with Three Arguments

A timestamp without a time zone is read as local time in one zone, and the result is the local time
in another.
-/

namespace Rustice

open List
open TimeEnv (IsI64)

/-- `chrono_tz::Tz` -/
structure NamedZone where
  offset : ℤ → ℤ
  single : ℤ → Option ℤ
  dvd_offset : ∀ instant, 1000000000 ∣ offset instant
  single_eq_iff : ∀ t instant, single t = some instant ↔
    instant + offset instant = t ∧ ∀ other, other + offset other = t → other = instant

def NamedZone.naiveLocal (zone : NamedZone) (instant : ℤ) : ℤ := instant + zone.offset instant

/-- The local time is that of one instant only. -/
def NamedZone.Denotes (zone : NamedZone) (t instant : ℤ) : Prop :=
  zone.naiveLocal instant = t ∧ ∀ o, zone.naiveLocal o = t → o = instant

inductive ConvertTimezoneError where
  | cantParseTimezone
  | invalidTimestamp
  | invalidDatetime
  | cantGetNanoseconds

namespace TimeEnv

variable (env : TimeEnv)

def convertTimezone (source target : NamedZone) (t : ℤ) : Except ConvertTimezoneError ℤ :=
  let secs := t.tdiv 1000000000
  let nanos := (t.tmod 1000000000 % 2 ^ 32).toNat
  match env.fromTimestamp secs nanos with
  | none => .error .invalidTimestamp
  | some naive =>
    match source.single (naive.timestamp * 1000000000 + naive.subsecNanos) with
    | none => .error .invalidDatetime
    | some instant =>
      if IsI64 (target.naiveLocal instant) then .ok (target.naiveLocal instant)
      else .error .cantGetNanoseconds

def parseZone (zones : String → Option NamedZone) (tz : String) :
    Except ConvertTimezoneError NamedZone :=
  match zones tz with
  | some zone => .ok zone
  | none => .error .cantParseTimezone

def buildArray (zones : String → Option NamedZone) (rows : List (Option ℤ))
    (sourceTz targetTz : String) : Except ConvertTimezoneError (List (Option ℤ)) := do
  let source ← parseZone zones sourceTz
  let target ← parseZone zones targetTz
  rows.mapM fun
    | some v => (env.convertTimezone source target v).map some
    | none => .ok none

/-- The wall clock moves by the difference of the offsets, and the way leads back. -/
def MovesClock (zones : String → Option NamedZone) (a b : String) (source target : NamedZone)
    (t instant : ℤ) : Prop :=
  let result := t - source.offset instant + target.offset instant
  IsI64 result → env.buildArray zones [some t] a b = .ok [some result] ∧
    ((∃ bc, target.Denotes result bc) → env.buildArray zones [some result] b a = .ok [some t])

variable {env : TimeEnv} {source s target tg : NamedZone} {t instant i : ℤ}

lemma fromTimestamp_tdiv (env : TimeEnv) (h : IsI64 t) :
    (env.fromTimestamp (t.tdiv 1000000000) (t.tmod 1000000000 % 2 ^ 32).toNat).map
        (fun n => n.timestamp * 1000000000 + (n.subsecNanos : ℤ)) =
      if 0 ≤ t ∨ 1000000000 ∣ t then some t else none := by
  have := env.min_le
  have := env.le_max
  rw [IsI64] at h
  have hp := Int.mul_tdiv_add_tmod t 1000000000
  have hlt := Int.tmod_lt_of_pos t (b := 1000000000) (by decide)
  have hgt := Int.lt_tmod_of_pos t (b := 1000000000) (by decide)
  rw [fromTimestamp]
  by_cases hs : 0 ≤ t ∨ 1000000000 ∣ t
  · have hr : 0 ≤ t.tmod 1000000000 := by
      obtain hpos | hdvd := hs
      · exact Int.tmod_nonneg _ hpos
      · exact (Int.tmod_eq_zero_of_dvd hdvd).ge
    rw [if_pos hs, dif_pos (by omega), if_pos (by omega), Option.map_some]
    congr 1
    dsimp only
    omega
  · have hz : t.tmod 1000000000 ≠ 0 := fun hz => hs (.inr (Int.dvd_of_tmod_eq_zero hz))
    have hneg := Int.tmod_nonneg 1000000000 (a := -t) (by omega)
    rw [Int.neg_tmod] at hneg
    rw [if_neg hs, dif_neg (by omega), Option.map_none]

lemma convertTimezone_eq (env : TimeEnv) (h : IsI64 t) (hi : s.Denotes t i) :
    env.convertTimezone s tg t = if 0 ≤ t ∨ 1000000000 ∣ t then
        if IsI64 (tg.naiveLocal i) then .ok (tg.naiveLocal i) else .error .cantGetNanoseconds
      else .error .invalidTimestamp := by
  have hs := fromTimestamp_tdiv env h
  have hsin := (s.single_eq_iff t i).mpr hi
  rw [convertTimezone]
  cases hn : env.fromTimestamp (t.tdiv 1000000000) (t.tmod 1000000000 % 2 ^ 32).toNat with
  | none =>
    rw [hn, Option.map_none] at hs
    split_ifs at hs with ht
    rw [if_neg ht]
  | some naive =>
    rw [hn, Option.map_some] at hs
    split_ifs at hs with ht
    simp only [Option.some.inj hs, hsin, if_pos ht]

lemma convertTimezone_eq_ok_iff (env : TimeEnv) (tg : NamedZone) (h : IsI64 t)
    (hi : s.Denotes t i) (hr : IsI64 (tg.naiveLocal i)) :
    env.convertTimezone s tg t = .ok (tg.naiveLocal i) ↔ 0 ≤ t ∨ 1000000000 ∣ t := by
  rw [convertTimezone_eq env h hi, if_pos hr]
  split_ifs with ht <;> simp [ht]

lemma buildArray_singleton {zs : String → Option NamedZone} {a b : String}
    (ha : zs a = some s) (hb : zs b = some tg) {result : ℤ} :
    env.buildArray zs [some t] a b = .ok [some result] ↔
      env.convertTimezone s tg t = .ok result := by
  simp only [buildArray, parseZone, ha, hb, mapM_cons, mapM_nil]
  cases hr : env.convertTimezone s tg t with
  | ok value => simp [hr, Except.map, bind, Except.bind, pure, Except.pure]
  | error e => simp [hr, Except.map, bind, Except.bind]

/-! ### Main result -/

/-- The clock is moved, and moved back, exactly for whole seconds, or where neither end is before
1970. -/
theorem movesClock_iff (env : TimeEnv) {zones : String → Option NamedZone} {a b : String}
    (ha : zones a = some source) (hb : zones b = some target) (h : IsI64 t)
    (hinstant : source.Denotes t instant) :
    env.MovesClock zones a b source target t instant ↔
      let result := t - source.offset instant + target.offset instant
      IsI64 result → 1000000000 ∣ t ∨ 0 ≤ t ∧ ((∃ bc, target.Denotes result bc) → 0 ≤ result) := by
  have hr : t - source.offset instant + target.offset instant = target.naiveLocal instant := by
    rw [← hinstant.1, NamedZone.naiveLocal, NamedZone.naiveLocal]
    omega
  simp only [MovesClock, hr]
  refine imp_congr_right fun hi6 => ?_
  rw [buildArray_singleton ha hb, buildArray_singleton hb ha,
    convertTimezone_eq_ok_iff env target h hinstant hi6]
  have hbac (hu : ∃ bc, target.Denotes (target.naiveLocal instant) bc) :
      env.convertTimezone target source (target.naiveLocal instant) = .ok t ↔
        0 ≤ target.naiveLocal instant ∨ 1000000000 ∣ target.naiveLocal instant := by
    obtain ⟨bc, hbac⟩ := hu
    obtain rfl := hbac.2 instant rfl
    have := convertTimezone_eq_ok_iff env source hi6 hbac (hinstant.1 ▸ h)
    rwa [hinstant.1] at this
  have hdvd : 1000000000 ∣ target.naiveLocal instant ↔ 1000000000 ∣ t := by
    have := source.dvd_offset instant
    have := target.dvd_offset instant
    omega
  rw [forall_congr' hbac, hdvd]
  tauto

end TimeEnv

def fixedZone (seconds : ℤ) : NamedZone where
  offset _ := seconds * 1000000000
  single t := some (t - seconds * 1000000000)
  dvd_offset _ := dvd_mul_left _ _
  single_eq_iff t instant := by
    rw [Option.some.injEq]
    constructor
    · rintro rfl
      exact ⟨sub_add_cancel _ _, fun other h => eq_sub_of_add_eq h⟩
    · exact fun h => (eq_sub_of_add_eq h.1).symm

def sampleZones : String → Option NamedZone
  | "UTC" => some (fixedZone 0)
  | "Etc/GMT-1" => some (fixedZone 3600)
  | _ => none

lemma fixedZone_denotes (ss t : ℤ) : (fixedZone ss).Denotes t (t - ss * 1000000000) :=
  ((fixedZone ss).single_eq_iff t _).mp rfl

theorem movesClock_afterEpoch :
    (TimeEnv.berlinEnv default).MovesClock sampleZones "UTC" "Etc/GMT-1" (fixedZone 0)
      (fixedZone 3600) 3600500000000 3600500000000 :=
  (TimeEnv.movesClock_iff _ rfl rfl (by decide) (fixedZone_denotes 0 3600500000000)).mpr
    fun _ => .inr ⟨by decide, fun _ => by decide⟩

theorem not_movesClock_beforeEpoch :
    ¬(TimeEnv.berlinEnv default).MovesClock sampleZones "UTC" "Etc/GMT-1" (fixedZone 0)
      (fixedZone 3600) (-500000000) (-500000000) := by
  intro h
  cases (h (by decide)).1

end Rustice
