import Rustice.DecimalText

/-!
# Timestamps in Query Results

`convert_timestamp` prepares a timestamp column for the client.
-/

namespace Rustice

open List Option String

inductive TimeUnit where
  | second
  | millisecond
  | microsecond
  | nanosecond
  deriving DecidableEq

def TimeUnit.scale : TimeUnit → ℕ
  | second => 0
  | millisecond => 3
  | microsecond => 6
  | nanosecond => 9

def TimeUnit.nanos : TimeUnit → ℤ
  | second => 1000000000
  | millisecond => 1000000
  | microsecond => 1000
  | nanosecond => 1

inductive DataSerializationFormat where
  | json
  | arrow

structure DateTime where
  timestamp : ℤ
  subsecNanos : ℕ
  subsecNanos_lt : subsecNanos < 1000000000
  deriving DecidableEq

instance : Inhabited DateTime := ⟨⟨0, 0, by decide⟩⟩

def DateTime.subsecMillis (t : DateTime) : ℕ := t.subsecNanos / 1000000

def DateTime.subsecMicros (t : DateTime) : ℕ := t.subsecNanos / 1000

/-- The libraries and the clock: `DateTime<Utc>` has room for every `i64` in nanoseconds. -/
structure TimeEnv where
  minTimestamp : ℤ
  maxTimestamp : ℤ
  min_le : minTimestamp ≤ -9223372037
  le_max : 9223372037 ≤ maxTimestamp
  toUppercase : String → String
  fixedOffset : String → Option ℤ
  namedZone : String → Option (DateTime → ℤ)
  arrowZone : String → Option (DateTime → ℤ)
  now : DateTime

structure TimestampColumn where
  tz : Option String
  values : List (Option ℤ)

inductive ConvertedColumn where
  | utf8 (values : List (Option String))
  | int64 (values : List (Option ℤ))
  | struct (epoch fraction timezone : List (Option ℤ))
  deriving DecidableEq

def ConvertedColumn.text? : ConvertedColumn → ℕ → Option String
  | utf8 values, i => values[i]?.join
  | _, _ => none

def ConvertedColumn.timezone? : ConvertedColumn → ℕ → Option ℤ
  | struct _ _ timezone, i => timezone[i]?.join
  | _, _ => none

def abbreviationOffset : String → Option ℤ
  | "Z" | "UTC" | "GMT" => some 0
  | "CET" => some 3600
  | "CEST" => some 7200
  | "EET" => some 7200
  | "EEST" => some 10800
  | "PST" => some (-(8 * 3600))
  | "PDT" => some (-(7 * 3600))
  | "EST" => some (-(5 * 3600))
  | "EDT" => some (-(4 * 3600))
  | "CST" => some (-(6 * 3600))
  | "CDT" => some (-(5 * 3600))
  | "MST" => some (-(7 * 3600))
  | "MDT" => some (-(6 * 3600))
  | "JST" => some (9 * 3600)
  | "MSD" => some 14400
  | _ => none

namespace TimeEnv

variable (env : TimeEnv)

def fromTimestamp (secs : ℤ) (nanos : ℕ) : Option DateTime :=
  if h : nanos < 1000000000 then
    if env.minTimestamp ≤ secs ∧ secs ≤ env.maxTimestamp then some ⟨secs, nanos, h⟩ else none
  else none

def fromTimestampMillis (millis : ℤ) : Option DateTime :=
  env.fromTimestamp (millis / 1000) ((millis % 1000).toNat * 1000000)

def fromTimestampMicros (micros : ℤ) : Option DateTime :=
  env.fromTimestamp (micros / 1000000) ((micros % 1000000).toNat * 1000)

def fromTimestampNanos (nanos : ℤ) : DateTime :=
  ⟨nanos / 1000000000, (nanos % 1000000000).toNat, by omega⟩

def parseTimezone (s : String) : Option ℤ :=
  match abbreviationOffset (env.toUppercase s) with
  | some offset => some offset
  | none =>
    match env.fixedOffset s with
    | some fixed => some fixed
    | none => (env.namedZone s).map fun tz => tz env.now

def encodeTz (tz : Option String) : Option ℤ :=
  (tz.bind env.parseTimezone).map fun offset => offset.tdiv 60 + 1440

def tzToI32 (tzStr : String) (nanos : ℤ) : ℤ :=
  if nanos = 0 then 1440
  else
    match env.fromTimestamp (nanos.tdiv 1000000000) (nanos.tmod 1000000000).toNat with
    | none => 1440
    | some dt =>
      match env.arrowZone tzStr with
      | none => 1440
      | some tz => (tz dt).tdiv 60 + 1440

def epochText : TimeUnit → ℤ → String
  | .second, ts =>
    let ts := (env.fromTimestamp ts 0).getD default
    toString ts.timestamp
  | .millisecond, ts =>
    let ts := (env.fromTimestampMillis ts).getD default
    toString ts.timestamp ++ "." ++ toString ts.subsecMillis
  | .microsecond, ts =>
    let ts := (env.fromTimestampMicros ts).getD default
    toString ts.timestamp ++ "." ++ toString ts.subsecMicros
  | .nanosecond, ts =>
    let ts := fromTimestampNanos ts
    toString ts.timestamp ++ "." ++ toString ts.subsecNanos

def jsonTimestamp (tzEncoded : Option ℤ) (unit : TimeUnit) (ts : ℤ) : String :=
  match tzEncoded with
  | some tz => env.epochText unit ts ++ " " ++ toString tz
  | none => env.epochText unit ts

end TimeEnv

def wrapI64 (n : ℤ) : ℤ := n.bmod (2 ^ 64)

def toNanoseconds : TimeUnit → ℤ → ℤ
  | .second, v => wrapI64 (v * 1000000000)
  | .millisecond, v => wrapI64 (v * 1000000)
  | .microsecond, v => wrapI64 (v * 1000)
  | .nanosecond, v => v

def epochOf (nanos : ℤ) : ℤ := nanos.tdiv 1000000000

def fractionOf (nanos : ℤ) : ℤ := nanos.tmod 1000000000

namespace TimeEnv

variable (env : TimeEnv)

def convertTimestampToStruct (column : TimestampColumn) (unit : TimeUnit) : ConvertedColumn :=
  match column.tz with
  | none => .int64 column.values
  | some tz =>
    let nanos := column.values.map (Option.map (toNanoseconds unit))
    .struct (nanos.map (Option.map epochOf)) (nanos.map (Option.map fractionOf))
      (nanos.map (Option.map (env.tzToI32 tz)))

def convertTimestamp (column : TimestampColumn) (unit : TimeUnit) (tz : Option String) :
    DataSerializationFormat → ConvertedColumn
  | .arrow => env.convertTimestampToStruct column unit
  | .json => .utf8 (column.values.map (Option.map (env.jsonTimestamp (env.encodeTz tz) unit)))

end TimeEnv

namespace TimeEnv

variable {env : TimeEnv}
  {column c : TimestampColumn} {unit u : TimeUnit} {tz : Option String} {name nm : String} {ts : ℤ}
  {te : Option ℤ} {v : ℤ} {ns : ℕ}

lemma text?_convertTimestamp : (env.convertTimestamp c u tz .json).text? ns =
    c.values[ns]?.join.map (env.jsonTimestamp (env.encodeTz tz) u) := by
  simp only [convertTimestamp, ConvertedColumn.text?, getElem?_map]
  cases c.values[ns]? with
  | none => rfl
  | some value => rfl

lemma timezone?_convertTimestamp (ht : c.tz = some nm) :
    (env.convertTimestamp c u tz .arrow).timezone? ns =
      c.values[ns]?.join.map fun v => env.tzToI32 nm (toNanoseconds u v) := by
  simp only [convertTimestamp, convertTimestampToStruct, ht, ConvertedColumn.timezone?,
    List.map_map, getElem?_map]
  cases c.values[ns]? with
  | none => rfl
  | some v => cases v <;> rfl

def decodeSeconds (text : String) : Option ℚ := readDecimal (text.toList.takeWhile (· ≠ ' '))

def tzField (text : String) : Option String :=
  match text.toList.dropWhile (· ≠ ' ') with
  | [] => none
  | _ :: field => some (String.ofList field)

lemma blank_notMem_epochText : ∀ c ∈ (env.epochText u ts).toList, decide (c ≠ ' ') = true := by
  intro c hc
  refine decide_eq_true ?_
  have hp : ∀ (z : ℤ) (f : ℕ), c ∈ (toString z ++ "." ++ toString f).toList → c ≠ ' ' := by
    intro z f hm
    rw [toList_append, toList_append, mem_append, mem_append, toList_toString_nat] at hm
    rcases hm with (hz | hd) | hf
    · exact ne_of_mem_toString_int (by decide) (by decide) hz
    · rw [mem_singleton.mp hd]
      decide
    · exact ne_of_mem_toDigits (by decide) hf
  cases u with
  | second => exact ne_of_mem_toString_int (by decide) (by decide) hc
  | millisecond => exact hp _ _ hc
  | microsecond => exact hp _ _ hc
  | nanosecond => exact hp _ _ hc

lemma decodeSeconds_jsonTimestamp :
    decodeSeconds (env.jsonTimestamp te u ts) = readDecimal (env.epochText u ts).toList := by
  cases te with
  | none => rw [jsonTimestamp, decodeSeconds, takeWhile_eq_self_iff.mpr blank_notMem_epochText]
  | some tz =>
    rw [jsonTimestamp, decodeSeconds, String.append_assoc, toList_append,
      takeWhile_append_of_pos blank_notMem_epochText, toList_append]
    simp

lemma tzField_jsonTimestamp : tzField (env.jsonTimestamp te u ts) = te.map toString := by
  cases te with
  | none =>
    simp only [jsonTimestamp, tzField, dropWhile_eq_nil_iff.mpr blank_notMem_epochText, map_none]
  | some tz =>
    have hd : (env.epochText u ts ++ " " ++ toString tz).toList.dropWhile (· ≠ ' ') =
        ' ' :: (toString tz).toList := by
      rw [String.append_assoc, toList_append, dropWhile_append_of_pos blank_notMem_epochText,
        toList_append]
      rfl
    simp only [jsonTimestamp, tzField, hd, ofList_toList, map_some]

def InRange (env : TimeEnv) (unit : TimeUnit) (value : ℤ) : Prop :=
  env.minTimestamp ≤ value / 10 ^ unit.scale ∧ value / 10 ^ unit.scale ≤ env.maxTimestamp

lemma fromTimestamp_eq (hn : ns < 1000000000) (h : env.minTimestamp ≤ v ∧ v ≤ env.maxTimestamp) :
    env.fromTimestamp v ns = some ⟨v, ns, hn⟩ := by
  rw [fromTimestamp, dif_pos hn, if_pos h]

lemma epochText_second {value : ℤ} (h : env.InRange .second value) :
    env.epochText .second value = toString value := by
  rw [InRange, TimeUnit.scale, pow_zero, Int.ediv_one] at h
  rw [epochText, fromTimestamp_eq (by decide) h]
  rfl

lemma epochText_eq (hu : u ≠ .second) (h : env.InRange u v) : env.epochText u v =
    toString (v / 10 ^ u.scale) ++ "." ++ toString (v % 10 ^ u.scale).toNat := by
  cases u with
  | second => exact absurd rfl hu
  | millisecond =>
    have hlt : (v % 1000).toNat * 1000000 < 1000000000 := by omega
    have hsub : (v % 1000).toNat * 1000000 / 1000000 = (v % 1000).toNat := by omega
    have hd : env.fromTimestampMillis v = some ⟨v / 1000, _, hlt⟩ :=
      fromTimestamp_eq hlt h
    simp only [epochText, hd, getD_some, DateTime.subsecMillis, hsub]
    rfl
  | microsecond =>
    have hlt : (v % 1000000).toNat * 1000 < 1000000000 := by omega
    have hsub : (v % 1000000).toNat * 1000 / 1000 = (v % 1000000).toNat := by omega
    have hd : env.fromTimestampMicros v = some ⟨v / 1000000, _, hlt⟩ :=
      fromTimestamp_eq hlt h
    simp only [epochText, hd, getD_some, DateTime.subsecMicros, hsub]
    rfl
  | nanosecond => rfl

/-! ### Main results -/

/-- **A timestamp is decoded** exactly if its fraction is zero, or has as many digits as the unit
and no sign. -/
theorem jsonTimestamp_decodes_iff {column : TimestampColumn} {unit : TimeUnit}
    {tz : Option String} {i : ℕ} {value : ℤ} (hrow : column.values[i]? = some (some value))
    (hrange : env.InRange unit value) :
    ((env.convertTimestamp column unit tz .json).text? i).bind decodeSeconds =
        some ((value : ℚ) / 10 ^ unit.scale) ↔
      10 ^ unit.scale ∣ value ∨ 0 ≤ value ∧ 10 ^ (unit.scale - 1) ≤ value % 10 ^ unit.scale := by
  rw [text?_convertTimestamp, hrow, join_some, map_some, bind_some, decodeSeconds_jsonTimestamp]
  by_cases hu : unit = .second
  · subst hu
    rw [epochText_second hrange, readDecimal_toString]
    simp [TimeUnit.scale]
  · rw [epochText_eq hu hrange]
    exact readDecimal_divMod_iff (by cases unit <;> simp_all [TimeUnit.scale])

def berlinEnv (now : DateTime) : TimeEnv where
  minTimestamp := -8334601228800
  maxTimestamp := 8210266876799
  min_le := by decide
  le_max := by decide
  toUppercase s := .ofList (s.toList.map Char.toUpper)
  fixedOffset s := if s = "+01:00" then some 3600 else none
  namedZone s := if s = "Europe/Berlin" then some berlin else none
  arrowZone s :=
    if s = "Europe/Berlin" then some berlin
    else if s = "+01:00" then some fun _ => 3600
    else if s = "UTC" then some fun _ => 0
    else none
  now := now
where
  berlin (t : DateTime) : ℤ :=
    if 1711846800 ≤ t.timestamp ∧ t.timestamp < 1729990800 then 7200 else 3600

theorem jsonTimestamp_decodes_233 :
    (((berlinEnv default).convertTimestamp ⟨none, [some 1627846261233]⟩ .millisecond none
      .json).text? 0).bind decodeSeconds = some (((1627846261233 : ℤ) : ℚ) / 10 ^ 3) :=
  (jsonTimestamp_decodes_iff rfl (by simp [InRange, TimeUnit.scale, berlinEnv])).mpr
    (.inr ⟨by decide, by decide⟩)

theorem jsonTimestamp_misread :
    (berlinEnv default).InRange .millisecond 1627846261005 ∧
    (berlinEnv default).InRange .millisecond (-1500) ∧
    (berlinEnv default).convertTimestamp ⟨none, [some 1627846261005, some (-1500)]⟩ .millisecond
      none .json = .utf8 [some "1627846261.5", some "-2.500"] ∧
    decodeSeconds "1627846261.5" ≠ some (1627846261005 / 10 ^ 3) ∧
    decodeSeconds "-2.500" ≠ some (-1500 / 10 ^ 3) := by
  refine
    ⟨by simp [InRange, TimeUnit.scale, berlinEnv], by simp [InRange, TimeUnit.scale, berlinEnv],
    by decide, by decide +kernel, by decide +kernel⟩

/-- The offset of a zone name at the time of the query. -/
def QueryOffset (env : TimeEnv) (name : String) (offset : ℤ) : Prop :=
  match abbreviationOffset (env.toUppercase name), env.fixedOffset name with
  | some a, _ => offset = a
  | none, some fixed => offset = fixed
  | none, none => ∃ zone, env.namedZone name = some zone ∧ offset = zone env.now

def rowTime (nanos : ℤ) : DateTime :=
  ⟨nanos.tdiv 1000000000, (nanos.tmod 1000000000).toNat, by
    have h := Int.tmod_lt_of_pos nanos (b := 1000000000) (by decide)
    omega⟩

def RowOffset (env : TimeEnv) (name : String) (nanos minutes : ℤ) : Prop :=
  if nanos = 0 then minutes = 0
  else
    match env.arrowZone name with
    | none => minutes = 0
    | some zone => minutes = (zone (rowTime nanos)).tdiv 60

def IsI64 (n : ℤ) : Prop := -2 ^ 63 ≤ n ∧ n < 2 ^ 63

lemma isI64_wrapI64 (n : ℤ) : IsI64 (wrapI64 n) := by
  have hle := @Int.le_bmod n (2 ^ 64) (by decide)
  have hlt := @Int.bmod_lt n (2 ^ 64) (by decide)
  rw [IsI64, wrapI64]
  omega

lemma wrapI64_of_isI64 {n : ℤ} (h : IsI64 n) : wrapI64 n = n := by
  rw [IsI64] at h
  exact Int.bmod_eq_of_le (by omega) (by omega)

lemma isI64_toNanoseconds (h : IsI64 v) : IsI64 (toNanoseconds u v) := by
  cases u with
  | second => exact isI64_wrapI64 _
  | millisecond => exact isI64_wrapI64 _
  | microsecond => exact isI64_wrapI64 _
  | nanosecond => exact h

lemma fromTimestamp_rowTime (h : IsI64 v) :
    env.fromTimestamp (v.tdiv 1000000000) (v.tmod 1000000000).toNat = some (rowTime v) := by
  have hmin := env.min_le
  have hmax := env.le_max
  have hsum := Int.tdiv_mul_add_tmod v 1000000000
  have hlt := Int.tmod_lt_of_pos v (b := 1000000000) (by decide)
  have hgt := Int.lt_tmod_of_pos v (b := 1000000000) (by decide)
  refine fromTimestamp_eq (rowTime v).subsecNanos_lt ?_
  rw [IsI64] at h
  omega

lemma parseTimezone_eq_some_iff {offset : ℤ} :
    env.parseTimezone nm = some offset ↔ env.QueryOffset nm offset := by
  rw [parseTimezone, QueryOffset]
  cases abbreviationOffset (env.toUppercase nm) with
  | some abbreviated => simp [eq_comm]
  | none =>
    cases env.fixedOffset nm with
    | some fixed => simp [eq_comm]
    | none => simp [eq_comm]

lemma tzToI32_eq_iff {ns minutes : ℤ} (h : IsI64 ns) :
    minutes + 1440 = env.tzToI32 nm ns ↔ env.RowOffset nm ns minutes := by
  rw [tzToI32, RowOffset]
  split_ifs with hz
  · omega
  · rw [fromTimestamp_rowTime h]
    cases env.arrowZone nm with
    | none => dsimp only; omega
    | some zone => dsimp only; omega

/-- **Both formats have one offset** exactly if that of the query's time is the row's. -/
theorem offsets_agree_iff {column : TimestampColumn} {unit : TimeUnit} {name : String} {i : ℕ}
    {value : ℤ} (htz : column.tz = some name) (hrow : column.values[i]? = some (some value))
    (hvalue : IsI64 value) :
    (∃ zone, (env.convertTimestamp column unit column.tz .arrow).timezone? i = some zone ∧
        ((env.convertTimestamp column unit column.tz .json).text? i).bind tzField =
          some (toString zone)) ↔
      ∃ offset, env.QueryOffset name offset ∧
        env.RowOffset name (toNanoseconds unit value) (offset.tdiv 60) := by
  rw [timezone?_convertTimestamp htz, text?_convertTimestamp, hrow, join_some,
    map_some, map_some, bind_some, tzField_jsonTimestamp, htz]
  simp only [← tzToI32_eq_iff (isI64_toNanoseconds hvalue), ← parseTimezone_eq_some_iff,
    some.injEq, exists_eq_left', encodeTz, bind_some, Option.map_map,
    map_eq_some_iff, Function.comp_apply, toString_int_inj]

def winterEnv : TimeEnv := berlinEnv ⟨1705276800, 0, by decide⟩

theorem offsets_agree_in_winter :
    ∃ zone, (winterEnv.convertTimestamp ⟨some "Europe/Berlin", [some 1706000000]⟩ .second
        (some "Europe/Berlin") .arrow).timezone? 0 = some zone ∧
      ((winterEnv.convertTimestamp ⟨some "Europe/Berlin", [some 1706000000]⟩ .second
        (some "Europe/Berlin") .json).text? 0).bind tzField = some (toString zone) := by
  refine (@offsets_agree_iff _ ⟨some "Europe/Berlin", [some 1706000000]⟩ _ _ _ _ rfl rfl
    ⟨by decide, by decide⟩).mpr ⟨3600, ?_, ?_⟩
  · exact ⟨_, rfl, rfl⟩
  · rfl

theorem offsets_differ :
    (winterEnv.convertTimestamp ⟨some "Europe/Berlin", [some 1719792000]⟩ .second
        (some "Europe/Berlin") .json = .utf8 [some "1719792000 1500"] ∧
      winterEnv.convertTimestamp ⟨some "Europe/Berlin", [some 1719792000]⟩ .second
        (some "Europe/Berlin") .arrow = .struct [some 1719792000] [some 0] [some 1560]) ∧
    (winterEnv.convertTimestamp ⟨some "+01:00", [some 0]⟩ .second (some "+01:00") .json =
        .utf8 [some "0 1500"] ∧
      winterEnv.convertTimestamp ⟨some "+01:00", [some 0]⟩ .second (some "+01:00") .arrow =
        .struct [some 0] [some 0] [some 1440]) ∧
    (winterEnv.convertTimestamp ⟨some "cest", [some 1719792000]⟩ .second (some "cest") .json =
        .utf8 [some "1719792000 1560"] ∧
      winterEnv.convertTimestamp ⟨some "cest", [some 1719792000]⟩ .second (some "cest") .arrow =
        .struct [some 1719792000] [some 0] [some 1440]) := by
  refine ⟨⟨?_, ?_⟩, ⟨?_, ?_⟩, ?_, ?_⟩ <;> decide

end TimeEnv

variable {cs : List Char} {i : ℤ}

open TimeEnv (IsI64)

instance (n : ℤ) : Decidable (IsI64 n) := inferInstanceAs (Decidable (_ ∧ _))

def parseI64 (cs : List Char) : Option ℤ :=
  match cs with
  | '-' :: ds => (readDigits ds).bind fun n => if IsI64 (-n) then some (-n : ℤ) else none
  | '+' :: ds => (readDigits ds).bind fun n => if IsI64 n then some (n : ℤ) else none
  | ds => (readDigits ds).bind fun n => if IsI64 n then some (n : ℤ) else none

lemma parseI64_of_digits (hcs : cs.all Char.isDigit = true) :
    parseI64 cs = (readDigits cs).bind fun n => if IsI64 n then some (n : ℤ) else none := by
  have hh : ∀ c ds, c.isDigit = false → cs ≠ c :: ds := by
    intro c ds hc heq
    rw [heq, all_cons, hc] at hcs
    cases hcs
  rw [parseI64]
  · exact fun ds => hh '-' ds rfl
  · exact fun ds => hh '+' ds rfl

lemma parseI64_cases (h : parseI64 cs = some i) : IsI64 i ∧ ∃ n : ℕ,
    (∃ ds, cs = '-' :: ds ∧ readDigits ds = some n ∧ i = -n) ∨
    (∃ ds, cs = '+' :: ds ∧ readDigits ds = some n ∧ i = n) ∨ readDigits cs = some n ∧ i = n := by
  have hd : ∀ {ds : List Char} {z : ℕ → ℤ},
      ((readDigits ds).bind fun n => if IsI64 (z n) then some (z n) else none) = some i →
        IsI64 i ∧ ∃ n, readDigits ds = some n ∧ i = z n := by
    intro ds z h
    obtain ⟨n, hn, hit⟩ := bind_eq_some_iff.mp h
    split_ifs at hit with hi
    obtain rfl := some.inj hit
    exact ⟨hi, n, hn, rfl⟩
  rw [parseI64.eq_def] at h
  split at h
  case _ ds =>
    obtain ⟨hi, n, hn, rfl⟩ := hd h
    exact ⟨hi, n, .inl ⟨ds, rfl, hn, rfl⟩⟩
  case _ ds =>
    obtain ⟨hi, n, hn, rfl⟩ := hd h
    exact ⟨hi, n, .inr (.inl ⟨ds, rfl, hn, rfl⟩)⟩
  case _ =>
    obtain ⟨hi, n, hn, rfl⟩ := hd h
    exact ⟨hi, n, .inr (.inr ⟨hn, rfl⟩)⟩

lemma readNumeral_of_parseI64 (h : parseI64 cs = some i) : readNumeral cs = some (i : ℚ) := by
  obtain ⟨-, n, ⟨ds, rfl, hn, rfl⟩ | ⟨ds, rfl, hn, rfl⟩ | ⟨hn, rfl⟩⟩ := parseI64_cases h
  · rw [readNumeral, readScientific_of_readDigits hn]
    simp
  · rw [readNumeral, readScientific_of_readDigits hn]
    simp
  · rw [readNumeral_of_readDigits hn]
    simp

lemma parseI64_append_eq_none {c : Char} (hc : c.isDigit = false) (cs : List Char)
    (hmin : c ≠ '-') (hp : c ≠ '+') : parseI64 (cs ++ [c]) = none := by
  have hd : ∀ {ds : List Char} {n : ℕ}, c ∈ ds → readDigits ds ≠ some n := by
    intro ds n hm h
    rw [isDigit_of_readDigits h c hm] at hc
    cases hc
  have hm : c ∈ cs ++ [c] := mem_append_right _ (mem_singleton_self c)
  rw [eq_none_iff_forall_ne_some]
  intro i h
  obtain ⟨-, n, ⟨ds, hcs, hn, -⟩ | ⟨ds, hcs, hn, -⟩ | ⟨hn, -⟩⟩ := parseI64_cases h
  · rw [hcs] at hm
    exact hd (mem_of_ne_of_mem hmin hm) hn
  · rw [hcs] at hm
    exact hd (mem_of_ne_of_mem hp hm) hn
  · exact hd hm hn

lemma parseI64_toString (hi : IsI64 i) : parseI64 (toString i).toList = some i := by
  rcases lt_or_ge i 0 with hneg | hn
  · obtain ⟨n, rfl⟩ := Int.exists_eq_neg_ofNat (Int.le_of_lt hneg)
    rw [toList_toString_neg (by omega), parseI64, readDigits_toDigits, bind_some, if_pos hi]
  · obtain ⟨n, rfl⟩ := Int.eq_ofNat_of_zero_le hn
    have hd : (Nat.toDigits 10 n).all Char.isDigit = true :=
      List.all_eq_true.mpr (isDigit_of_readDigits (readDigits_toDigits n))
    rw [toList_toString_natCast, parseI64_of_digits hd, readDigits_toDigits, bind_some, if_pos hi]

end Rustice
