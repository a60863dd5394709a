import Rustice.Fallible
import Rustice.Timestamp

/-!
# Timestamps with a Time Zone in Arrow

A timestamp with a time zone becomes three fields: the seconds, the nanoseconds and the offset
in minutes, plus 1440.
-/

namespace Rustice

namespace TimeEnv

variable (env : TimeEnv)

structure OffsetDateTime where
  utc : DateTime
  offset : ℤ

def eastOpt (secs : ℤ) : Option ℤ :=
  if -86400 < secs ∧ secs < 86400 then some secs else none

inductive CastError where
  | cantCastTo (v : String)

variable (toRfc3339 : OffsetDateTime → String)

def buildTimestampString (epoch fraction : Option ℤ) (tz : Option ℤ) :
    Except CastError (Option String) :=
  match epoch, fraction with
  | some epoch, some fraction =>
    let dt := fromTimestampNanos (wrapI64 (wrapI64 (epoch * 1000000000) + fraction))
    match tz with
    | some offsetMinutes =>
      match (eastOpt ((offsetMinutes - 1440) * 60)).or (eastOpt 0) with
      | some offset => .ok (some (toRfc3339 ⟨dt, offset⟩))
      | none => .error (.cantCastTo "fixed_offset")
    | none => .ok (some (toRfc3339 ⟨dt, 0⟩))
  | _, _ => .ok none

def buildTimestampStrings (epochs fractions : List (Option ℤ))
    (tzCol : Option (List (Option ℤ))) : Except CastError (List (Option String)) :=
  (List.range epochs.length).mapM fun i =>
    buildTimestampString toRfc3339 epochs[i]?.join fractions[i]?.join
      (tzCol.map fun tz => tz[i]?.join.getD 0)

lemma toNanoseconds_of_isI64 {u : TimeUnit} {v : ℤ} (h : IsI64 (v * u.nanos)) :
    toNanoseconds u v = v * u.nanos := by
  cases u with
  | second => exact wrapI64_of_isI64 h
  | millisecond => exact wrapI64_of_isI64 h
  | microsecond => exact wrapI64_of_isI64 h
  | nanosecond => exact (mul_one v).symm

section Lossless

variable (env : TimeEnv) (toRfc3339 : OffsetDateTime → String)

/-- The fields of a row make up its nanoseconds, its offset and its text. -/
def Lossless (column : TimestampColumn) (unit : TimeUnit) (zone : DateTime → ℤ) (i : ℕ)
    (value : ℤ) : Prop :=
  let time := fromTimestampNanos (value * unit.nanos)
  IsI64 (value * unit.nanos) ∧ ∃ es fs zs, env.convertTimestampToStruct column unit =
        .struct es fs zs ∧
      ∃ e fraction ms, es[i]? = some (some e) ∧
        fs[i]? = some (some fraction) ∧ zs[i]? = some (some ms) ∧
        e * 1000000000 + fraction = value * unit.nanos ∧
        (ms - 1440) * 60 = zone time ∧
        ∃ texts, buildTimestampStrings toRfc3339 es fs (some zs) = .ok texts ∧
          texts[i]? = some (some (toRfc3339 ⟨time, zone time⟩))

def OffsetExact (zone : DateTime → ℤ) (nanos : ℤ) : Prop :=
  if nanos = 0 then zone (fromTimestampNanos nanos) = 0
  else (zone (rowTime nanos)).tdiv 60 * 60 = zone (fromTimestampNanos nanos)

variable {env} {nanos : ℤ}

lemma tzToI32_exact_iff {nm : String} {z : DateTime → ℤ}
    (hz : env.arrowZone nm = some z) (h : IsI64 nanos) :
    (env.tzToI32 nm nanos - 1440) * 60 = z (fromTimestampNanos nanos) ↔ OffsetExact z nanos := by
  rw [tzToI32, OffsetExact]
  split_ifs with hzer
  · exact eq_comm
  · rw [fromTimestamp_rowTime h]
    simp only [hz, add_sub_cancel_right]

lemma convertTimestampToStruct_row {c : TimestampColumn} {u : TimeUnit}
    {nm : String} (ht : c.tz = some nm) : ∃ es fs zs, env.convertTimestampToStruct c u =
        .struct es fs zs ∧ es.length = c.values.length ∧
      ∀ i : ℕ, es[i]? = c.values[i]?.map (Option.map (epochOf ∘ toNanoseconds u)) ∧
        fs[i]? = c.values[i]?.map (Option.map (fractionOf ∘ toNanoseconds u)) ∧
        zs[i]? = c.values[i]?.map (Option.map (env.tzToI32 nm ∘ toNanoseconds u)) := by
  refine ⟨_, _, _, by rw [convertTimestampToStruct, ht], by simp, fun i => ?_⟩
  simp [Option.map_map, Function.comp_def]

lemma isI64_epochOf_mul (h : IsI64 nanos) : IsI64 (epochOf nanos * 1000000000) := by
  have hsum : epochOf nanos * 1000000000 + fractionOf nanos = nanos :=
    Int.tdiv_mul_add_tmod nanos 1000000000
  have hlt := Int.tmod_lt_of_pos nanos (b := 1000000000) (by decide)
  have hgt := Int.lt_tmod_of_pos nanos (b := 1000000000) (by decide)
  rw [fractionOf] at hsum
  rw [IsI64] at h ⊢
  rcases Int.le_total 0 nanos with hpos | hneg
  · have hr := Int.tmod_nonneg 1000000000 hpos
    omega
  · have hr := Int.tmod_nonneg 1000000000 (Int.neg_nonneg_of_nonpos hneg)
    rw [Int.neg_tmod] at hr
    omega

lemma buildTimestampString_exact {nanos ms o : ℤ} (h : IsI64 nanos)
    (hm : (ms - 1440) * 60 = o) (hr : -86400 < o ∧ o < 86400) :
    buildTimestampString toRfc3339 (some (epochOf nanos)) (some (fractionOf nanos))
        (some ms) = .ok (some (toRfc3339 ⟨fromTimestampNanos nanos, o⟩)) := by
  have hsum : epochOf nanos * 1000000000 + fractionOf nanos = nanos :=
    Int.tdiv_mul_add_tmod nanos 1000000000
  rw [buildTimestampString, wrapI64_of_isI64 (isI64_epochOf_mul h), hsum, wrapI64_of_isI64 h, hm]
  simp only [eastOpt, if_pos hr, Option.some_or]

lemma exists_buildTimestampString (e f tz : Option ℤ) :
    ∃ text, buildTimestampString toRfc3339 e f tz = .ok text := by
  cases e with
  | none => exact ⟨none, rfl⟩
  | some e =>
    cases f with
    | none => exact ⟨none, rfl⟩
    | some f =>
      cases tz with
      | none => exact ⟨_, rfl⟩
      | some ms =>
        have hz : eastOpt 0 = some 0 := rfl
        simp only [buildTimestampString, hz]
        cases eastOpt ((ms - 1440) * 60) with
        | none => exact ⟨_, rfl⟩
        | some offset => exact ⟨_, rfl⟩

/-! ### Main result -/

/-- **The Arrow encoding of a timestamp with a time zone is lossless** exactly if it fits `i64`
nanoseconds and the offset is exact. -/
theorem lossless_iff {column : TimestampColumn} {unit : TimeUnit} {name : String}
    {zone : DateTime → ℤ} {i : ℕ} {value : ℤ} (htz : column.tz = some name)
    (hzone : env.arrowZone name = some zone)
    (hoffset : ∀ t, -86400 < zone t ∧ zone t < 86400)
    (hrow : column.values[i]? = some (some value)) :
    env.Lossless toRfc3339 column unit zone i value ↔
      IsI64 (value * unit.nanos) ∧ OffsetExact zone (value * unit.nanos) := by
  rw [Lossless]
  refine and_congr_right fun hfit => ?_
  obtain ⟨es, fs, zs, hs, hlen, hr⟩ :=
    @convertTimestampToStruct_row env column unit name htz
  obtain ⟨he, hf, hz⟩ := hr i
  rw [hrow, Option.map_some, Option.map_some, Function.comp_apply,
    toNanoseconds_of_isI64 hfit] at he hf hz
  rw [← tzToI32_exact_iff hzone hfit]
  constructor
  · rintro ⟨es', fs', zs', hs', epoch, fraction, minutes, -, -, hz', -, hm, -⟩
    obtain ⟨rfl, rfl, rfl⟩ := ConvertedColumn.struct.inj (hs.symm.trans hs')
    obtain rfl : _ = minutes := Option.some.inj (Option.some.inj (hz.symm.trans hz'))
    exact hm
  · intro hm
    refine ⟨es, fs, zs, hs, _, _, _, he, hf, hz, Int.tdiv_mul_add_tmod _ _, hm, ?_⟩
    obtain ⟨texts, ht⟩ := exists_mapM_eq_ok fun i (_ : i ∈ List.range es.length) =>
      exists_buildTimestampString toRfc3339 es[i]?.join fs[i]?.join
        ((some zs).map fun tz => tz[i]?.join.getD 0)
    have hi : (List.range es.length)[i]? = some i := by
      rw [List.getElem?_range]
      rw [hlen]
      exact (List.getElem?_eq_some_iff.mp hrow).1
    obtain ⟨text, htex, hb⟩ := getElem?_of_mapM_eq_ok ht hi
    rw [he, hf, Option.map_some, hz] at hb
    have hex := buildTimestampString_exact toRfc3339 hfit hm (hoffset _)
    refine ⟨texts, ht, htex.trans ?_⟩
    exact congrArg some (Except.ok.inj (hb.symm.trans hex))

end Lossless

lemma berlin_offset_range (t : DateTime) :
    -86400 < berlinEnv.berlin t ∧ berlinEnv.berlin t < 86400 := by
  rw [berlinEnv.berlin]
  split_ifs <;> decide

theorem lossless_in_winter :
    winterEnv.Lossless (fun t => toString t.utc.timestamp)
      ⟨some "Europe/Berlin", [some 1706000000]⟩ .second berlinEnv.berlin 0 1706000000 :=
  (lossless_iff _ rfl rfl berlin_offset_range rfl).mpr
    ⟨by simp [IsI64, TimeUnit.nanos], rfl⟩

theorem lossless_fails :
    winterEnv.convertTimestampToStruct ⟨some "UTC", [some 9223372037]⟩ .second =
        .struct [some (-9223372036)] [some (-709551616)] [some 1440] ∧
    ¬ winterEnv.Lossless (fun t => toString t.utc.timestamp)
      ⟨some "UTC", [some 9223372037]⟩ .second (fun _ => 0) 0 9223372037 ∧
    winterEnv.convertTimestampToStruct ⟨some "+01:00", [some 0]⟩ .second =
        .struct [some 0] [some 0] [some 1440] ∧
    ¬ winterEnv.Lossless (fun t => toString t.utc.timestamp)
      ⟨some "+01:00", [some 0]⟩ .second (fun _ => 3600) 0 0 := by
  have he : winterEnv.convertTimestampToStruct ⟨some "+01:00", [some 0]⟩ .second =
      .struct [some 0] [some 0] [some 1440] := by decide
  refine ⟨by decide, fun h => ?_, he, fun h => ?_⟩
  · exact absurd h.1 (by simp [IsI64, TimeUnit.nanos])
  · obtain ⟨-, epochs, fractions, zones, hs, _, _, minutes, -, -, hz, -, hm, -⟩ := h
    obtain ⟨-, -, rfl⟩ := ConvertedColumn.struct.inj (he.symm.trans hs)
    obtain rfl : 1440 = minutes := Option.some.inj (Option.some.inj hz)
    exact absurd hm (by decide)

end TimeEnv

end Rustice
