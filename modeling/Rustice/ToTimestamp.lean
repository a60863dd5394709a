import Rustice.AsciiCase
import Rustice.Decimal128
import Rustice.Fallible
import Rustice.Strftime
import Rustice.TextReplace
import Rustice.Timestamp
import Rustice.Utf8

/-!
# `TO_TIMESTAMP`

`TO_TIMESTAMP` converts a column of texts or of decimals.
-/

namespace Rustice

open TimeEnv (IsI64 isI64_wrapI64 wrapI64_of_isI64)

lemma wrapI64_eq_iff {n : ℤ} : wrapI64 n = n ↔ IsI64 n := by
  refine ⟨fun h => ?_, wrapI64_of_isI64⟩
  have hw := isI64_wrapI64 n
  rwa [h] at hw

def DateTime.nanos (t : DateTime) : ℤ := t.timestamp * 1000000000 + t.subsecNanos

def DateTime.timestampNanosOpt (t : DateTime) : Option ℤ :=
  if IsI64 t.nanos then some t.nanos else none

def DateTime.timestampMicros (t : DateTime) : ℤ := t.nanos / 1000

structure TimestampCaptures where
  first : String
  second : String
  third : String
  time : Option (String × String)
  seconds : Option String
  fraction : Option String
  tz : Option String

/-- What is taken from the libraries: the groups of `TIMESTAMP_REGEX`, which does not match digits,
the text before `RE_TIMEZONE`, parsers, and time zones. -/
structure TimestampEnv extends TimeEnv where
  captures : String → Option TimestampCaptures
  captures_of_digits : ∀ s, s.toList.all Char.isDigit → captures s = none
  beforeTimezone : String → Option String
  toLowercase : String → String
  stringToTimestampNanos : String → Option ℤ
  parseDateTime : String → String → Option DateTime
  localZone : String → Option (DateTime → Option DateTime)

inductive TimestampError where
  | failedToParseInt (value : String)
  | cantGetTimestamp
  | cantParseTimezone
  | cantAddLocalTimezone
  | invalidValueForFunctionAtPositionTwo
  | panicked
  deriving DecidableEq

def monthFromStr (s : String) : Option ℕ :=
  match toAsciiLowercase s with
  | "jan" => some 1
  | "feb" => some 2
  | "mar" => some 3
  | "apr" => some 4
  | "may" => some 5
  | "jun" => some 6
  | "jul" => some 7
  | "aug" => some 8
  | "sep" => some 9
  | "oct" => some 10
  | "nov" => some 11
  | "dec" => some 12
  | _ => none

def parseCaptured (s : String) : Option ℕ := readDigits s.toList

/-- The slice of nine bytes panics inside a digit that is not ASCII. -/
def fractionNanos (fraction : String) : Except TimestampError ℕ :=
  match takeBytes (min 9 (byteLen fraction.toList)) fraction.toList with
  | some digits => .ok ((readDigits (digits.rightpad 9 '0')).getD 0)
  | none => .error .panicked

def timeOfDay (hour minute second nano : ℕ) : Option ℕ :=
  if hour < 24 ∧ minute < 60 ∧ second < 60 then
    some ((hour * 3600 + minute * 60 + second) * 1000000000 + nano)
  else none

def TimestampCaptures.timeOfDay (caps : TimestampCaptures) :
    Except TimestampError (Option ℕ) :=
  match caps.time with
  | none => .ok (some 0)
  | some (hour, minute) =>
    match parseCaptured hour, parseCaptured minute with
    | some hour, some minute => do
      let second := (caps.seconds.bind parseCaptured).getD 0
      let nano ← caps.fraction.elim (.ok 0) fractionNanos
      return Rustice.timeOfDay hour minute second nano
    | _, _ => .ok none

/-- The year is the field that cannot be a day. -/
def TimestampCaptures.yearMonthDay (caps : TimestampCaptures) : Option (ℕ × ℕ × ℕ) := do
  let first ← parseCaptured caps.first
  let second ← (monthFromStr caps.second).or (parseCaptured caps.second)
  let third ← parseCaptured caps.third
  if first > 31 then some (first, second, third)
  else if third > 31 then some (third, second, first)
  else none

namespace TimestampEnv

variable (env : TimestampEnv)

def captureTime (caps : TimestampCaptures) : Except TimestampError (Option DateTime) :=
  match caps.yearMonthDay with
  | none => .ok none
  | some (year, month, day) => do
    let offset := (caps.tz.bind fun tz => env.parseTimezone (trimText tz)).getD 0
    let time ← caps.timeOfDay
    return (CivilDate.ofYmd? year month day).bind fun date => time.map fun time =>
      TimeEnv.fromTimestampNanos ((date.dayNumber * 86400 - offset) * 1000000000 + time)

/-- The time that the groups of `TIMESTAMP_REGEX` denote. -/
def regexTime (s : String) : Except TimestampError (Option DateTime) :=
  (env.captures s).elim (.ok none) env.captureTime

def unitValue (unit : TimeUnit) (dt : DateTime) : Option ℤ :=
  match unit with
  | .microsecond => some dt.timestampMicros
  | _ => dt.timestampNanosOpt

def tryParseWithRegex (s : String) (unit : TimeUnit) : Except TimestampError (Option ℤ) :=
  (env.regexTime s).map (·.bind (unitValue unit))

def tryParseWithAuto (s : String) (tryMode : Bool) (unit : TimeUnit) :
    Except TimestampError (Option ℤ) :=
  match env.stringToTimestampNanos s with
  | some v => .ok (some v)
  | none =>
    match env.tryParseWithRegex s unit with
    | .error e => .error e
    | .ok (some ts) => .ok (some ts)
    | .ok none => if tryMode then .ok none else .error .cantGetTimestamp

def tryParseWithFormat (s format : String) (tryMode : Bool) :
    Except TimestampError (Option ℤ) :=
  match env.parseDateTime s format with
  | some v => .ok v.timestampNanosOpt
  | none => if tryMode then .ok none else .error .cantGetTimestamp

def localTime (ts : ℤ) : TimeUnit → Option DateTime
  | .microsecond => env.fromTimestampMicros ts
  | _ => some (TimeEnv.fromTimestampNanos ts)

def applyTimezone (ts : ℤ) (tz : String) (tryMode : Bool) (unit : TimeUnit) :
    Except TimestampError ℤ :=
  match env.localZone tz, env.localTime ts unit with
  | none, _ => .error .cantParseTimezone
  | some _, none => .error .cantGetTimestamp
  | some zone, some dt =>
    match zone dt with
    | some utc => (utc.timestampNanosOpt).elim (.error .cantGetTimestamp) .ok
    | none => if tryMode then .ok 0 else .error .cantAddLocalTimezone

def removeTimezone (s : String) : String :=
  if s.utf8ByteSize < 15 then s
  else
    match env.beforeTimezone s with
    | some before => trimText before
    | none => s

def replace (s pat rep : String) : String :=
  .ofList (replaceText pat.toList rep.toList s.toList)

def convertSnowflakeFormatToChrono (format : String) : String :=
  [("yyyy", "%Y"), ("yy", "%y"), ("mm", "%m"), ("mon", "%b"), ("month", "%B"), ("dd", "%d"),
    ("dy", "%a"), ("day", "%A"), ("hh24", "%H"), ("hh", "%I"), ("am", "%P"), ("pm", "%P"),
    ("mi", "%M"), ("ss", "%S"), (".ff9", "%.9f"), (".ff6", "%.6f"), (".ff3", "%.3f"),
    (".ff", "%.f"), ("tzh:tzm", "%z"), ("tzhtzm", "%Z"), ("t", "T")].foldl
    (fun s entry => replace s entry.1 entry.2) (env.toLowercase format)

end TimestampEnv

open TimestampEnv Option

def containsOnlyDigits (s : String) : Bool := s.toList.all Char.isDigit

def determineTimestampScale (value : ℤ) : ℕ :=
  if value.natAbs < 31536000000 then 0
  else if value.natAbs < 31536000000000 then 3
  else if value.natAbs < 31536000000000000 then 6
  else 9

def epochNanos (i : ℤ) : ℤ :=
  match determineTimestampScale i with
  | 0 => wrapI64 (i * 1000000000)
  | 3 => wrapI64 (i * 1000000)
  | 6 => wrapI64 (i * 1000)
  | _ => i

def decimalToI64 (s v : ℤ) : Except TimestampError ℤ :=
  if s = 0 then .error .panicked else .ok (wrapI64 (v.tdiv s))

def unitOfScale : ℤ → Except TimestampError TimeUnit
  | 0 => .ok .second
  | 3 => .ok .millisecond
  | 6 => .ok .microsecond
  | 9 => .ok .nanosecond
  | _ => .error .invalidValueForFunctionAtPositionTwo

def decimalRow (s : ℤ) : Option ℤ → Except TimestampError (Option ℤ)
  | none => .ok none
  | some v => (decimalToI64 s v).map some

def parseDecimal (column : DecimalColumn) (target : Option ℤ) :
    Except TimestampError (TimeUnit × List (Option ℤ)) := do
  let unit ← unitOfScale (target.getD 0)
  let values ← column.values.mapM (decimalRow (powTen column.scale))
  return (unit, values)

structure StringRow where
  text : String
  valid : Bool
  deriving DecidableEq

structure ToTimestampFunc where
  name : String
  tryMode : Bool
  getProperty : String → Option String

namespace ToTimestampFunc

variable (func : ToTimestampFunc) (env : TimestampEnv)

def inputFormat : String := (func.getProperty "timestamp_input_format").getD "auto"

def timezone : Option String :=
  let timezone := (func.getProperty "timezone").getD "America/Los_Angeles"
  match func.name with
  | "to_timestamp_ntz" | "try_to_timestamp_ntz" => none
  | "to_timestamp" | "try_to_timestamp" =>
    if (func.getProperty "timestamp_input_mapping").getD "timestamp_ntz" = "timestamp_ntz" then
      none
    else some timezone
  | _ => some timezone

def format : String :=
  if toAsciiLowercase func.inputFormat ≠ "auto" then
    env.convertSnowflakeFormatToChrono func.inputFormat
  else "auto"

/-- `is_ok` of a call, which passes a panic on. -/
def callIsOk {α : Type} : Except TimestampError α → Except TimestampError Bool
  | .ok _ => .ok true
  | .error .panicked => .error .panicked
  | .error _ => .ok false

def unitForStringInput (v : String) : Except TimestampError TimeUnit := do
  if ← callIsOk (env.tryParseWithAuto v func.tryMode .nanosecond) then return .nanosecond
  else if ← callIsOk (env.tryParseWithAuto v func.tryMode .microsecond) then return .microsecond
  else return .nanosecond

def parseText (unit : TimeUnit) (s : String) : Except TimestampError (Option ℤ) :=
  if eqIgnoreAsciiCase (func.format env) "auto" then env.tryParseWithAuto s func.tryMode unit
  else env.tryParseWithFormat s (func.format env) func.tryMode

def zoned (unit : TimeUnit) : Option ℤ → Except TimestampError (Option ℤ)
  | none => .ok none
  | some parsed =>
    match func.timezone with
    | none => .ok (some parsed)
    | some tz => (env.applyTimezone parsed tz func.tryMode unit).map some

def convertText (unit : TimeUnit) (s : String) : Except TimestampError (Option ℤ) :=
  if containsOnlyDigits s then
    match parseI64 s.toList with
    | none => .error (.failedToParseInt s)
    | some i => .ok (some (epochNanos i))
  else func.parseText env unit (env.removeTimezone s) >>= func.zoned env unit

def convertRow (unit : TimeUnit) (row : StringRow) : Except TimestampError (Option ℤ) :=
  if row.valid then func.convertText env unit row.text else .ok none

def invokeStrings : List StringRow → Except TimestampError (TimeUnit × List (Option ℤ))
  | [] => .error .panicked
  | row :: rows => do
    let unit ← func.unitForStringInput env row.text
    let values ← (row :: rows).mapM (func.convertRow env unit)
    return (unit, values)

def instant (unit : TimeUnit) (value : Option ℤ) : Option ℤ := value.map (· * unit.nanos)

def RowWise (rows : List StringRow) (unit : TimeUnit) (values : List (Option ℤ)) : Prop :=
  ∀ (i : ℕ) (row : StringRow), rows[i]? = some row → ∃ value unit' value',
    values[i]? = some value ∧ func.invokeStrings env [row] = .ok (unit', [value']) ∧
      instant unit value = instant unit' value' ∧ (row.valid = false → value = none)

/-- A fraction of the text is cut inside a digit. -/
def Panics (s : String) : Prop :=
  env.stringToTimestampNanos s = none ∧ env.regexTime s = .error .panicked

/-- Only the regular expression reads the text, as a time that nanoseconds have no room for. -/
def NeedsMicros (s : String) : Prop :=
  func.tryMode = false ∧ env.stringToTimestampNanos s = none ∧
    ∃ dt, env.regexTime s = .ok (some dt) ∧ ¬IsI64 dt.nanos

/-- What is read in a text: a number of nanoseconds, or a time. -/
inductive Reading where
  | nanos (v : ℤ)
  | time (dt : DateTime)

def Reading.number (unit : TimeUnit) : Reading → Option ℤ
  | .nanos v => some v
  | .time dt => unitValue unit dt

/-- What the parsers read in a text: `string_to_timestamp_nanos` before the regular expression, or
the format of the session. -/
def readText (s : String) : Option Reading :=
  if eqIgnoreAsciiCase (func.format env) "auto" then
    match env.stringToTimestampNanos s, env.regexTime s with
    | some v, _ => some (.nanos v)
    | none, .ok dt => dt.map .time
    | none, .error _ => none
  else (env.parseDateTime s (func.format env)).bind fun dt => dt.timestampNanosOpt.map .nanos

/-- The number of microseconds and the number of nanoseconds are the same time: without a time
zone a number must be zero, and a time a whole number of microseconds. -/
def Reading.UnitFree (r : Reading) : Prop :=
  match func.timezone with
  | none =>
    match r with
    | .nanos v => v = 0
    | .time dt => IsI64 dt.nanos ∧ 1000 ∣ dt.nanos
  | some tz => ∃ micros nanos micros' nanos',
    r.number .microsecond = some micros ∧ r.number .nanosecond = some nanos ∧
      env.applyTimezone micros tz func.tryMode .microsecond = .ok micros' ∧
      env.applyTimezone nanos tz func.tryMode .nanosecond = .ok nanos' ∧ micros' * 1000 = nanos'

/-- A text means the same time in microseconds and in nanoseconds. -/
def UnitFree (s : String) : Prop :=
  if containsOnlyDigits s then parseI64 s.toList = some 0
  else ∀ r ∈ func.readText env (env.removeTimezone s), r.UnitFree func env

variable {func env} {unit unit' : TimeUnit} {s : String} {row : StringRow} {v v' : Option ℤ}
  {r : Reading}

lemma fractionNanos_error {fraction : String} {e : TimestampError}
    (h : fractionNanos fraction = .error e) : e = .panicked := by
  rw [fractionNanos] at h
  split at h
  · cases h
  · cases h
    rfl

lemma timeOfDay_error {caps : TimestampCaptures} {e : TimestampError}
    (h : caps.timeOfDay = .error e) : e = .panicked := by
  rw [TimestampCaptures.timeOfDay] at h
  split at h
  · cases h
  · split at h
    · obtain hn | ⟨_, _, hn⟩ := bind_eq_error.mp h
      · cases hf : caps.fraction with
        | none => rw [hf] at hn; cases hn
        | some fraction => rw [hf] at hn; exact fractionNanos_error hn
      · cases hn
    · cases h

lemma regexTime_error {e : TimestampError} (h : env.regexTime s = .error e) : e = .panicked := by
  rw [regexTime] at h
  cases hc : env.captures s with
  | none => rw [hc] at h; cases h
  | some caps =>
    rw [hc, elim_some, captureTime] at h
    split at h
    · cases h
    · obtain ht | ⟨_, _, hn⟩ := bind_eq_error.mp h
      · exact timeOfDay_error ht
      · cases hn

lemma unitForStringInput_eq_ok_iff : func.unitForStringInput env s = .ok unit ↔
    ¬Panics env s ∧ (func.NeedsMicros env s ∧ unit = .microsecond ∨
      ¬func.NeedsMicros env s ∧ unit = .nanosecond) := by
  simp only [unitForStringInput, Panics, NeedsMicros, tryParseWithAuto,
    tryParseWithRegex]
  cases env.stringToTimestampNanos s with
  | some v => simp [callIsOk, bind, Except.bind, pure, Except.pure, eq_comm (a := unit)]
  | none =>
    cases hr : env.regexTime s with
    | error e =>
      cases regexTime_error hr
      simp [callIsOk, bind, Except.bind, Except.map]
    | ok dt =>
      cases dt with
      | none =>
        cases func.tryMode <;>
          simp [callIsOk, bind, Except.bind, pure, Except.pure, Except.map, eq_comm (a := unit)]
      | some dt =>
        by_cases hd : IsI64 dt.nanos <;> cases func.tryMode <;>
          simp [callIsOk, bind, Except.bind, pure, Except.pure, Except.map, hd,
            unitValue, DateTime.timestampNanosOpt, eq_comm (a := unit)]

lemma unit_of_unitForStringInput (h : func.unitForStringInput env s = .ok unit) :
    unit = .microsecond ∨ unit = .nanosecond :=
  (unitForStringInput_eq_ok_iff.mp h).2.imp And.right And.right

lemma invokeStrings_eq_ok_iff {rs : List StringRow} {values : List (Option ℤ)} :
    func.invokeStrings env rs = .ok (unit, values) ↔
      ∃ row r, rs = row :: r ∧ func.unitForStringInput env row.text = .ok unit ∧
        rs.mapM (func.convertRow env unit) = .ok values := by
  cases rs with
  | nil => simp [invokeStrings]
  | cons row r =>
    simp only [invokeStrings, bind_eq_ok, pure_eq_ok, Prod.mk.injEq, List.cons.injEq]
    constructor
    · rintro ⟨unit', hu, values', hv, rfl, rfl⟩
      exact ⟨row, r, ⟨rfl, rfl⟩, hu, hv⟩
    · rintro ⟨row', r', ⟨rfl, rfl⟩, hu, hv⟩
      exact ⟨unit, hu, values, hv, rfl, rfl⟩

lemma invokeStrings_singleton_iff :
    func.invokeStrings env [row] = .ok (unit, [v]) ↔
      func.unitForStringInput env row.text = .ok unit ∧ func.convertRow env unit row = .ok v := by
  rw [invokeStrings_eq_ok_iff]
  simp only [mapM_eq_ok_iff, List.forall₂_cons, List.Forall₂.nil, and_true, List.cons.injEq]
  constructor
  · rintro ⟨row', rest, ⟨rfl, rfl⟩, hu, hr⟩
    exact ⟨hu, hr⟩
  · rintro ⟨hu, hr⟩
    exact ⟨row, [], ⟨rfl, rfl⟩, hu, hr⟩

lemma parseText_of_readText_some (h : func.readText env s = some r) :
    func.parseText env unit s = match r.number unit with
      | some n => .ok (some n)
      | none => if func.tryMode then .ok none else .error .cantGetTimestamp := by
  rw [readText] at h
  rw [parseText]
  by_cases ha : eqIgnoreAsciiCase (func.format env) "auto" = true
  · rw [if_pos ha] at h ⊢
    rw [tryParseWithAuto, tryParseWithRegex]
    split at h
    · cases h
      simp [*, Reading.number]
    · obtain ⟨dt, rfl, rfl⟩ := map_eq_some_iff.mp h
      simp only [*, Except.map, bind_some, Reading.number]
      cases unitValue unit dt <;> rfl
    · cases h
  · rw [if_neg ha] at h ⊢
    obtain ⟨dt, hd, h⟩ := bind_eq_some_iff.mp h
    obtain ⟨n, hn, rfl⟩ := map_eq_some_iff.mp h
    rw [tryParseWithFormat, hd]
    exact congrArg Except.ok hn

lemma parseText_of_readText_none (h : func.readText env s = none) :
    func.parseText env unit s = func.parseText env unit' s ∧
      (func.parseText env unit s = .ok v → v = none) := by
  rw [readText] at h
  rw [parseText, parseText]
  split_ifs at h ⊢ with ha
  · rw [tryParseWithAuto, tryParseWithAuto,
      tryParseWithRegex, tryParseWithRegex]
    split at h
    · cases h
    · rw [map_eq_none_iff] at h
      simp only [*, Except.map, bind_none]
      split_ifs <;> simp [eq_comm]
    · simp [*, Except.map]
  · refine ⟨rfl, fun hp => ?_⟩
    rw [tryParseWithFormat] at hp
    split at hp
    · rename_i dt hd
      rw [hd, bind_some, map_eq_none_iff] at h
      rw [h] at hp
      exact (Except.ok.inj hp).symm
    · split_ifs at hp
      exact (Except.ok.inj hp).symm

lemma convertText_of_digits (hs : containsOnlyDigits s = true) :
    func.convertText env unit s = match parseI64 s.toList with
      | none => .error (.failedToParseInt s)
      | some i => .ok (some (epochNanos i)) := by
  rw [convertText, if_pos hs]

lemma convertText_of_not_digits (hs : ¬containsOnlyDigits s = true) :
    func.convertText env unit s =
      func.parseText env unit (env.removeTimezone s) >>= func.zoned env unit := by
  rw [convertText, if_neg hs]

lemma ne_none_of_zoned {p : ℤ} (h : func.zoned env unit (some p) = .ok v) : v ≠ none := by
  rintro rfl
  rw [zoned] at h
  split at h
  · cases h
  · rename_i tz _
    cases ha : env.applyTimezone p tz func.tryMode unit with
    | error e => rw [ha] at h; cases h
    | ok v => rw [ha] at h; cases h

lemma zoned_eq_ok_iff {p n : ℤ} : func.zoned env unit (some p) = .ok (some n) ↔
    match func.timezone with
    | none => p = n
    | some tz => env.applyTimezone p tz func.tryMode unit = .ok n := by
  rw [zoned]
  cases func.timezone with
  | none => simp
  | some tz => cases ha : env.applyTimezone p tz func.tryMode unit <;> simp [ha, Except.map]

lemma wrapI64_eq_zero_iff {n : ℤ} (hd : 1000 ∣ n) (hn : n.natAbs < 36893488147419103232) :
    wrapI64 n = 0 ↔ n = 0 := by
  constructor
  · intro h
    obtain ⟨k, hk⟩ := Int.dvd_of_bmod_eq_zero h
    push_cast at hk
    have hk' : k = -1 ∨ k = 0 ∨ k = 1 := by
      clear hd h
      omega
    obtain rfl | rfl | rfl := hk'
    all_goals omega
  · rintro rfl
    rfl

lemma epochNanos_eq_zero_iff {i : ℤ} : epochNanos i = 0 ↔ i = 0 := by
  rw [epochNanos, determineTimestampScale]
  split_ifs with h h h
  · exact (wrapI64_eq_zero_iff (by omega) (by omega)).trans (by omega)
  · exact (wrapI64_eq_zero_iff (by omega) (by omega)).trans (by omega)
  · exact (wrapI64_eq_zero_iff (by omega) (by omega)).trans (by omega)
  · rfl

/-- The text is converted to one time in both units. -/
def SameTime (func : ToTimestampFunc) (env : TimestampEnv) (s : String) : Prop :=
  ∃ micros nanos, func.convertText env .microsecond s = .ok micros ∧
    func.convertText env .nanosecond s = .ok nanos ∧
      instant .microsecond micros = instant .nanosecond nanos

lemma sameTime_of_some (hs : ¬containsOnlyDigits s = true)
    (hr : func.readText env (env.removeTimezone s) = some r) :
    func.SameTime env s ↔ ∃ micros nanos micros' nanos',
      r.number .microsecond = some micros ∧ r.number .nanosecond = some nanos ∧
        func.zoned env .microsecond (some micros) = .ok (some micros') ∧
        func.zoned env .nanosecond (some nanos) = .ok (some nanos') ∧
        micros' * 1000 = nanos' := by
  have hm : ∃ micros, r.number .microsecond = some micros := by
    cases r <;> exact ⟨_, rfl⟩
  obtain ⟨micros, hm⟩ := hm
  simp only [SameTime, convertText_of_not_digits hs, parseText_of_readText_some hr, hm]
  cases hn : r.number .nanosecond with
  | none =>
    refine iff_of_false ?_ (by simp)
    rintro ⟨m, n, hz, hz', heq⟩
    obtain ⟨_, ht, hz'⟩ := bind_eq_ok.mp hz'
    split_ifs at ht
    cases ht
    cases hz'
    cases m with
    | none => exact ne_none_of_zoned hz rfl
    | some m => cases heq
  | some nanos =>
    constructor
    · rintro ⟨m, n, hz, hz', heq⟩
      obtain ⟨m, rfl⟩ := ne_none_iff_exists'.mp (ne_none_of_zoned hz)
      obtain ⟨n, rfl⟩ := ne_none_iff_exists'.mp (ne_none_of_zoned hz')
      exact ⟨_, _, m, n, rfl, rfl, hz, hz', by simpa [instant, TimeUnit.nanos] using heq⟩
    · rintro ⟨_, _, m, n, ⟨⟩, ⟨⟩, hz, hz', heq⟩
      exact ⟨_, _, hz, hz', by simpa [instant, TimeUnit.nanos] using heq⟩

lemma sameTime_of_none (hs : ¬containsOnlyDigits s = true)
    (hr : func.readText env (env.removeTimezone s) = none)
    (h : func.convertText env unit s = .ok v) : func.SameTime env s := by
  rw [convertText_of_not_digits hs] at h
  obtain ⟨p, hp, -⟩ := bind_eq_ok.mp h
  obtain rfl := (@parseText_of_readText_none _ _ _ unit _ p hr).2 hp
  have hc : ∀ u, func.convertText env u s = .ok none := by
    intro u
    rw [convertText_of_not_digits hs, (parseText_of_readText_none (v := v) hr).1, hp]
    rfl
  exact ⟨none, none, hc _, hc _, rfl⟩

/-- A text that is converted in one unit has one time in both exactly if it is free of the
unit. -/
lemma sameTime_iff (h : func.convertText env unit s = .ok v) :
    func.SameTime env s ↔ func.UnitFree env s := by
  rw [UnitFree]
  split_ifs with hs
  · simp only [SameTime, convertText_of_digits hs] at h ⊢
    cases hi : parseI64 s.toList with
    | none => simp [hi] at h
    | some i =>
      have hz := @epochNanos_eq_zero_iff i
      simp only [instant, TimeUnit.nanos, map_some, Except.ok.injEq, exists_and_left,
        exists_eq_left', some.injEq]
      omega
  · cases hr : func.readText env (env.removeTimezone s) with
    | none => exact iff_of_true (sameTime_of_none hs hr h) (fun r hr => by cases hr)
    | some r =>
      simp only [sameTime_of_some hs hr, mem_def, some.injEq, forall_eq',
        Reading.UnitFree, zoned_eq_ok_iff]
      cases func.timezone with
      | some tz => rfl
      | none =>
        cases r with
        | nanos n =>
          simp only [Reading.number, some.injEq]
          constructor
          · rintro ⟨_, _, _, _, rfl, rfl, rfl, rfl, heq⟩
            omega
          · rintro rfl
            exact ⟨0, 0, 0, 0, rfl, rfl, rfl, rfl, rfl⟩
        | time dt =>
          simp only [Reading.number, unitValue, DateTime.timestampNanosOpt,
            DateTime.timestampMicros, some.injEq]
          constructor
          · rintro ⟨_, _, _, _, rfl, hn, rfl, rfl, heq⟩
            split_ifs at hn with hi
            cases hn
            exact ⟨hi, by omega⟩
          · rintro ⟨hi, hd⟩
            exact ⟨_, _, _, _, rfl, if_pos hi, rfl, rfl, by omega⟩

lemma sameTime_iff_of_ne (hu : unit = .microsecond ∨ unit = .nanosecond)
    (hu' : unit' = .microsecond ∨ unit' = .nanosecond) (hne : unit' ≠ unit) :
    func.SameTime env s ↔ ∃ v v', func.convertText env unit s = .ok v ∧
      func.convertText env unit' s = .ok v' ∧ instant unit v = instant unit' v' := by
  rcases hu with rfl | rfl <;> rcases hu' with rfl | rfl
  · exact absurd rfl hne
  · exact Iff.rfl
  · constructor
    · rintro ⟨ms, ns, hm, hn, heq⟩
      exact ⟨ns, ms, hn, hm, heq.symm⟩
    · rintro ⟨ns, ms, hn, hm, heq⟩
      exact ⟨ms, ns, hm, hn, heq.symm⟩
  · exact absurd rfl hne

/-- A row that is converted in `unit` has the time that it has alone, in `unit'`. -/
lemma row_agrees_iff (hu : unit = .microsecond ∨ unit = .nanosecond)
    (hu' : unit' = .microsecond ∨ unit' = .nanosecond)
    (hr : func.convertRow env unit row = .ok v) :
    (∃ v', func.convertRow env unit' row = .ok v' ∧ instant unit v = instant unit' v') ↔
      (row.valid → unit' = unit ∨ func.UnitFree env row.text) := by
  cases hv : row.valid with
  | false =>
    -- A null stays a null in every unit.
    have hn : ∀ u, func.convertRow env u row = .ok none := fun u => by
      rw [convertRow, hv]
      rfl
    rw [hn] at hr
    cases hr
    exact iff_of_true ⟨none, hn _, rfl⟩ (fun h => by cases h)
  | true =>
    have ht : ∀ u, func.convertRow env u row = func.convertText env u row.text := fun u => by
      rw [convertRow, if_pos hv]
    simp only [ht] at hr ⊢
    rw [forall_const]
    by_cases ho : unit' = unit
    · subst ho
      exact iff_of_true ⟨v, hr, rfl⟩ (.inl rfl)
    · rw [or_iff_right ho, ← sameTime_iff hr, sameTime_iff_of_ne hu hu' ho]
      constructor
      · rintro ⟨v', hv', heq⟩
        exact ⟨v, v', hr, hv', heq⟩
      · rintro ⟨v₁, v', hv₁, hv', heq⟩
        rw [hr] at hv₁
        cases hv₁
        exact ⟨v', hv', heq⟩

lemma unit_eq_iff {s' : String} (h : func.unitForStringInput env s = .ok unit)
    (h' : func.unitForStringInput env s' = .ok unit') :
    unit' = unit ↔ (func.NeedsMicros env s' ↔ func.NeedsMicros env s) := by
  obtain ⟨-, ⟨hm, rfl⟩ | ⟨hm, rfl⟩⟩ := unitForStringInput_eq_ok_iff.mp h <;>
    obtain ⟨-, ⟨hm', rfl⟩ | ⟨hm', rfl⟩⟩ := unitForStringInput_eq_ok_iff.mp h' <;> simp [hm, hm']

lemma exists_unit_iff : (∃ unit, func.unitForStringInput env s = .ok unit) ↔ ¬Panics env s := by
  simp only [unitForStringInput_eq_ok_iff]
  by_cases hm : func.NeedsMicros env s <;> simp [hm]

/-! ### Main results -/

def sampleTimestampEnv : TimestampEnv where
  toTimeEnv := TimeEnv.berlinEnv default
  captures s :=
    if s = "9999-12-31" then some ⟨"9999", "12", "31", none, none, none, none⟩ else none
  captures_of_digits s hs := if_neg fun h => by
    rw [h] at hs
    exact absurd hs (by decide)
  beforeTimezone _ := none
  toLowercase := toAsciiLowercase
  stringToTimestampNanos s :=
    if s = "2024-01-31 10:30:00" then some 1706697000000000000 else none
  parseDateTime _ _ := none
  localZone _ := none

def plainTimestamp : ToTimestampFunc := ⟨"to_timestamp", false, fun _ => none⟩

inductive EpochCall where
  | digits (s : String) (hs : containsOnlyDigits s = true)
  | decimal (d : Decimal128) (target : TimeUnit)

variable (func env)

def runEpoch : EpochCall → Except TimestampError (TimeUnit × List (Option ℤ))
  | .digits s _ => func.invokeStrings env [⟨s, true⟩]
  | .decimal d target => parseDecimal d.column (some target.scale)

/-- The value is the number in its unit. -/
def EpochCall.Exact (unit : TimeUnit) (value : ℤ) : EpochCall → Prop
  | .digits s _ => ∃ n, readDigits s.toList = some n ∧
      value * unit.nanos = n * 10 ^ (9 - determineTimestampScale n)
  | .decimal d target => unit = target ∧ value = d.truncate

def ExactOrError (call : EpochCall) : Prop :=
  (∃ e, func.runEpoch env call = .error e ∧ e ≠ .panicked) ∨
    ∃ unit value, func.runEpoch env call = .ok (unit, [some value]) ∧ call.Exact unit value

/-- The number of a call has room. -/
def EpochCall.Fits : EpochCall → Prop
  | .digits s _ => ∀ n : ℕ, readDigits s.toList = some n → IsI64 n →
      IsI64 (n * 10 ^ (9 - determineTimestampScale n))
  | .decimal d _ => 0 ≤ d.scale ∧ IsI64 d.truncate

variable {func env}

lemma unitForStringInput_of_digits (hs : containsOnlyDigits s = true) :
    func.unitForStringInput env s = .ok .nanosecond := by
  have hr : env.regexTime s = .ok none := by
    rw [regexTime, env.captures_of_digits s hs, elim_none]
  refine unitForStringInput_eq_ok_iff.mpr ⟨fun hp => ?_, .inr ⟨?_, rfl⟩⟩
  · cases hr.symm.trans hp.2
  · rintro ⟨-, -, dt, hd, -⟩
    cases hr.symm.trans hd

lemma epochNanos_eq {i : ℤ} (hi : IsI64 i) :
    epochNanos i = wrapI64 (i * 10 ^ (9 - determineTimestampScale i)) := by
  rw [epochNanos, determineTimestampScale]
  split_ifs with hmil hm hn
  · rfl
  · rfl
  · rfl
  · rw [Nat.sub_self, pow_zero, mul_one]
    exact (wrapI64_of_isI64 hi).symm

lemma invokeStrings_digits {s : String} (hs : containsOnlyDigits s = true) :
    func.invokeStrings env [⟨s, true⟩] = match parseI64 s.toList with
      | none => .error (.failedToParseInt s)
      | some i => .ok (.nanosecond, [some (epochNanos i)]) := by
  rw [invokeStrings, unitForStringInput_of_digits hs]
  simp only [List.mapM_cons, List.mapM_nil, convertRow, convertText_of_digits hs, if_true]
  cases parseI64 s.toList with
  | none => rfl
  | some i => rfl

lemma parseDecimal_column (d : Decimal128) (target : TimeUnit) :
    parseDecimal d.column (some target.scale) =
      (decimalToI64 (powTen d.scale) d.value).map fun v => (target, [some v]) := by
  have hu : unitOfScale target.scale = .ok target := by cases target <;> rfl
  rw [parseDecimal, getD_some, hu]
  simp only [Decimal128.column, List.mapM_cons, List.mapM_nil, decimalRow]
  cases decimalToI64 (powTen d.scale) d.value with
  | error e => rfl
  | ok v => rfl

lemma digits_exactOrError_iff (hs : containsOnlyDigits s = true) :
    func.ExactOrError env (.digits s hs) ↔ (EpochCall.digits s hs).Fits := by
  simp only [ExactOrError, runEpoch, invokeStrings_digits hs, EpochCall.Exact, EpochCall.Fits]
  have hp := parseI64_of_digits hs
  cases hr : readDigits s.toList with
  | none =>
    rw [hr, bind_none] at hp
    simp [hp]
  | some n =>
    rw [hr, bind_some] at hp
    by_cases hn : IsI64 n
    · rw [if_pos hn] at hp
      simp [hp, epochNanos_eq hn, TimeUnit.nanos, wrapI64_eq_iff, hn]
    · rw [if_neg hn] at hp
      simp [hp, hn]

lemma decimal_exactOrError_iff {d : Decimal128} {t : TimeUnit} :
    func.ExactOrError env (.decimal d t) ↔ (EpochCall.decimal d t).Fits := by
  simp only [ExactOrError, runEpoch, parseDecimal_column, EpochCall.Exact, EpochCall.Fits]
  rcases lt_or_ge d.scale 0 with hneg | hn
  · have hp : decimalToI64 (powTen d.scale) d.value = .error .panicked := by
      rw [powTen_of_neg hneg d.le_scale, decimalToI64, if_pos rfl]
    rw [hp]
    simp [hneg.not_ge, Except.map]
  · have hle : d.scale ≤ 38 := le_trans d.scale_le (by exact_mod_cast d.precision_le)
    have hpow : powTen d.scale ≠ 0 := by
      rw [powTen_of_nonneg hn hle]
      exact pow_ne_zero _ (by decide)
    have hv : decimalToI64 (powTen d.scale) d.value = .ok (wrapI64 d.truncate) := by
      rw [decimalToI64, if_neg hpow, powTen_of_nonneg hn hle, Decimal128.truncate, if_pos hn]
    rw [hv]
    simp [hn, wrapI64_eq_iff, Except.map]

/-- **Numbers are converted exactly or refused** if and only if the scaled number is an `i64`. -/
theorem epochCall_exact_iff {call : EpochCall} : func.ExactOrError env call ↔ call.Fits := by
  cases call with
  | digits s hs => exact digits_exactOrError_iff hs
  | decimal d target => exact decimal_exactOrError_iff

theorem epochCall_wraps :
    ¬ plainTimestamp.ExactOrError sampleTimestampEnv (.digits "9999999999" (by decide +kernel)) ∧
    plainTimestamp.invokeStrings sampleTimestampEnv [⟨"9999999999", true⟩] =
      .ok (.nanosecond, [some (-8446744074709551616)]) ∧
    parseDecimal (Decimal128.mk ⟨20, 0, by decide, by decide, by decide⟩ 99999999999999999999
      (by decide)).column (some 0) = .ok (.second, [some 7766279631452241919]) ∧
    parseDecimal (Decimal128.mk ⟨2, -2, by decide, by decide, by decide⟩ 17
      (by decide)).column (some 0) = .error .panicked := by
  refine ⟨fun h => ?_, by decide +kernel, by decide +kernel, ?_⟩
  · have hf := (digits_exactOrError_iff _).mp h 9999999999 (by decide +kernel) (by decide)
    exact absurd hf (by decide)
  have hc := parseDecimal_column
    (Decimal128.mk ⟨2, -2, by decide, by decide, by decide⟩ 17 (by decide)) .second
  rw [decimalToI64, powTen_of_neg (by decide) (by decide)] at hc
  exact hc

variable (func env)

def withTry (tryMode : Bool) : ToTimestampFunc := { func with tryMode }

/-- Each row is null, or the time that the other variant returns. -/
def TryAgrees (rows : List StringRow) : Prop :=
  ∃ unit values, (func.withTry true).invokeStrings env rows = .ok (unit, values) ∧
    List.Forall₂ (fun row value => value = none ∨ ∃ unit' value',
      (func.withTry false).invokeStrings env [row] = .ok (unit', [value']) ∧
        instant unit value = instant unit' value') rows values

/-- Digits are an `i64`. Of another text no digit is cut, and a number that is read in it has one
time in UTC, in the unit that the plain variant chooses or in both. By chance that variant may also
return the epoch where the other one invents it. -/
def Settled (s : String) : Prop :=
  if containsOnlyDigits s then ∃ i, parseI64 s.toList = some i
  else
    let plain := func.withTry false
    (eqIgnoreAsciiCase (func.format env) "auto" = true → ¬Panics env (env.removeTimezone s)) ∧
      ∀ p, plain.parseText env .nanosecond (env.removeTimezone s) = .ok (some p) →
        (∃ value, plain.zoned env .nanosecond (some p) = .ok value) ∧ ¬Panics env s ∧
            (¬plain.NeedsMicros env s ∨ plain.UnitFree env s) ∨
          plain.zoned env .nanosecond (some p) = .error .cantAddLocalTimezone ∧
            plain.NeedsMicros env s ∧ plain.convertText env .microsecond s = .ok (some 0)

variable {func env}

lemma unitForStringInput_withTry :
    (func.withTry true).unitForStringInput env s = .ok unit ↔
      ¬Panics env s ∧ unit = .nanosecond := by
  have hn : ¬(func.withTry true).NeedsMicros env s := fun h => by cases h.1
  simp [unitForStringInput_eq_ok_iff, hn]

lemma timezone_withTry (tm : Bool) : (func.withTry tm).timezone = func.timezone := rfl

lemma format_withTry (tm : Bool) : (func.withTry tm).format env = func.format env := rfl

lemma parseText_eq_panicked_iff : func.parseText env unit s = .error .panicked ↔
    eqIgnoreAsciiCase (func.format env) "auto" = true ∧ Panics env s := by
  rw [parseText, Panics]
  by_cases ha : eqIgnoreAsciiCase (func.format env) "auto" = true
  · simp only [ha, if_true, true_and, tryParseWithAuto,
      tryParseWithRegex]
    cases env.stringToTimestampNanos s with
    | some v => simp
    | none =>
      cases hr : env.regexTime s with
      | error e => simp [Except.map]
      | ok dt =>
        cases hd : dt.bind (unitValue unit) <;> cases func.tryMode <;>
          simp [Except.map, hd]
  · simp only [ha, tryParseWithFormat]
    cases env.parseDateTime s (func.format env) <;> cases func.tryMode <;> simp

lemma parseText_withTry
    (h : ¬(eqIgnoreAsciiCase (func.format env) "auto" = true ∧ Panics env s)) :
    (func.withTry true).parseText env unit s =
      .ok ((func.withTry false).parseText env unit s).toOption.join := by
  rw [parseText, parseText, format_withTry, format_withTry]
  by_cases ha : eqIgnoreAsciiCase (func.format env) "auto" = true
  · rw [if_pos ha, if_pos ha, tryParseWithAuto, tryParseWithAuto,
      tryParseWithRegex]
    cases hs : env.stringToTimestampNanos s with
    | some v => simp [Except.toOption]
    | none =>
      cases hr : env.regexTime s with
      | error e =>
        cases regexTime_error hr
        exact absurd ⟨ha, hs, hr⟩ h
      | ok dt =>
        cases hd : dt.bind (unitValue unit) <;>
          simp [Except.toOption, Except.map, withTry, hd]
  · rw [if_neg ha, if_neg ha, tryParseWithFormat, tryParseWithFormat]
    cases env.parseDateTime s (func.format env) <;> simp [Except.toOption, withTry]

lemma zoned_withTry (p : ℤ) : (func.withTry true).zoned env unit (some p) =
    match (func.withTry false).zoned env unit (some p) with
    | .error .cantAddLocalTimezone => .ok (some 0)
    | result => result := by
  have ht : (func.withTry true).tryMode = true ∧ (func.withTry false).tryMode = false :=
    ⟨rfl, rfl⟩
  simp only [zoned, timezone_withTry]
  cases func.timezone with
  | none => rfl
  | some tz =>
    simp only [applyTimezone, ht]
    cases env.localZone tz with
    | none => rfl
    | some z =>
      cases env.localTime p unit with
      | none => rfl
      | some dt =>
        cases hz : z dt with
        | none => simp [hz, Except.map]
        | some u => cases hn : u.timestampNanosOpt <;> simp [hz, hn, Except.map]

lemma instant_eq_zero_iff :
    instant .microsecond v = instant .nanosecond (some 0) ↔ v = some 0 := by
  cases v with
  | none => simp [instant]
  | some v => simp [instant, TimeUnit.nanos]

/-- A value in nanoseconds is the time that the row has alone. -/
lemma alone_iff (hr : func.convertRow env .nanosecond row = .ok v) (hv : row.valid = true) :
    (∃ unit' v', func.invokeStrings env [row] = .ok (unit', [v']) ∧
        instant .nanosecond v = instant unit' v') ↔
      ¬Panics env row.text ∧ (¬func.NeedsMicros env row.text ∨ func.UnitFree env row.text) := by
  simp only [invokeStrings_singleton_iff, and_assoc]
  constructor
  · rintro ⟨unit', v', hu', hr', heq⟩
    have ha := (row_agrees_iff (.inr rfl) (unit_of_unitForStringInput hu') hr).mp ⟨v', hr', heq⟩ hv
    refine ⟨exists_unit_iff.mp ⟨unit', hu'⟩, ha.imp_left fun hn hm => ?_⟩
    subst hn
    have := (unitForStringInput_eq_ok_iff.mp hu').2
    simp [hm] at this
  · rintro ⟨hp, h⟩
    obtain ⟨unit', hu'⟩ : ∃ unit', func.unitForStringInput env row.text = .ok unit' :=
      exists_unit_iff.mpr hp
    have ha := row_agrees_iff (.inr rfl) (unit_of_unitForStringInput hu') hr
    obtain ⟨v', hr', heq⟩ := ha.mpr fun _ => h.imp_left fun hn => by
      simpa [hn] using (unitForStringInput_eq_ok_iff.mp hu').2
    exact ⟨unit', v', hu', hr', heq⟩

/-- The epoch, where nanoseconds fail, is the time that the row has alone. -/
lemma alone_zero_iff (he : ∀ v, func.convertRow env .nanosecond ⟨s, true⟩ ≠ .ok v) :
    (∃ unit' v', func.invokeStrings env [⟨s, true⟩] = .ok (unit', [v']) ∧
        instant .nanosecond (some 0) = instant unit' v') ↔
      func.NeedsMicros env s ∧ func.convertText env .microsecond s = .ok (some 0) := by
  simp only [invokeStrings_singleton_iff, and_assoc]
  constructor
  · rintro ⟨unit', v', hu, hv, hi⟩
    obtain ⟨-, ⟨hm, rfl⟩ | ⟨-, rfl⟩⟩ := unitForStringInput_eq_ok_iff.mp hu
    · refine ⟨hm, ?_⟩
      rw [← instant_eq_zero_iff.mp hi.symm, ← hv, convertRow, if_pos rfl]
    · exact absurd hv (he v')
  · rintro ⟨hm, hv⟩
    have hn : ¬Panics env s := by
      obtain ⟨-, -, dt, hd, -⟩ := hm
      exact fun hp => by cases hp.2.symm.trans hd
    exact ⟨.microsecond, some 0, unitForStringInput_eq_ok_iff.mpr ⟨hn, .inl ⟨hm, rfl⟩⟩,
      by rwa [convertRow, if_pos rfl], rfl⟩

lemma try_zoned_iff {p : ℤ} (hp : (func.withTry false).convertRow env .nanosecond ⟨s, true⟩ =
      (func.withTry false).zoned env .nanosecond (some p)) :
    (∃ value, (func.withTry true).zoned env .nanosecond (some p) = .ok value ∧
      (value = none ∨ ∃ unit' value',
        (func.withTry false).invokeStrings env [⟨s, true⟩] = .ok (unit', [value']) ∧
          instant .nanosecond value = instant unit' value')) ↔
    (∃ value, (func.withTry false).zoned env .nanosecond (some p) = .ok value) ∧
        ¬Panics env s ∧
          (¬(func.withTry false).NeedsMicros env s ∨ (func.withTry false).UnitFree env s) ∨
      (func.withTry false).zoned env .nanosecond (some p) = .error .cantAddLocalTimezone ∧
        (func.withTry false).NeedsMicros env s ∧
          (func.withTry false).convertText env .microsecond s = .ok (some 0) := by
  rw [zoned_withTry]
  cases hz : (func.withTry false).zoned env .nanosecond (some p) with
  | ok value =>
    simp [← alone_iff (hp.trans hz) rfl, ne_none_of_zoned hz]
  | error e =>
    cases e with
    | cantAddLocalTimezone =>
      simp [← alone_zero_iff fun v hv => by cases (hp.trans hz).symm.trans hv]
    | _ => simp

lemma try_row_iff : (∃ value, (func.withTry true).convertRow env .nanosecond row = .ok value ∧
      (value = none ∨ ∃ unit' value',
        (func.withTry false).invokeStrings env [row] = .ok (unit', [value']) ∧
          instant .nanosecond value = instant unit' value')) ↔
    (row.valid → func.Settled env row.text) := by
  obtain ⟨s, v⟩ := row
  cases v with
  | false => exact iff_of_true ⟨none, rfl, .inl rfl⟩ nofun
  | true =>
    simp only [forall_const, Settled, convertRow, if_true]
    split_ifs with hs
    · simp only [invokeStrings_digits hs, convertText_of_digits hs]
      cases parseI64 s.toList with
      | none => simp
      | some i => simp
    · rw [convertText_of_not_digits hs]
      by_cases hpan : eqIgnoreAsciiCase (func.format env) "auto" = true ∧
          Panics env (env.removeTimezone s)
      · refine iff_of_false ?_ fun h => h.1 hpan.1 hpan.2
        rw [(@parseText_eq_panicked_iff (func.withTry true) env .nanosecond _).mpr hpan]
        rintro ⟨_, ⟨⟩, -⟩
      rw [parseText_withTry hpan, and_iff_right (not_and.mp hpan)]
      cases hpar : (func.withTry false).parseText env .nanosecond (env.removeTimezone s) with
      | error e => exact iff_of_true ⟨none, rfl, .inl rfl⟩ nofun
      | ok p =>
        cases p with
        | none => exact iff_of_true ⟨none, rfl, .inl rfl⟩ nofun
        | some p =>
          have hp : (func.withTry false).convertRow env .nanosecond ⟨s, true⟩ =
              (func.withTry false).zoned env .nanosecond (some p) := by
            rw [convertRow, if_pos rfl, convertText_of_not_digits hs, hpar]
            rfl
          simp only [Except.ok.injEq, some.injEq, forall_eq']
          exact try_zoned_iff hp

/-- **`TRY_TO_TIMESTAMP` neither fails nor invents times** exactly if the column has a first row,
whose text does not make the choice of the unit panic, and every text in it is settled. -/
theorem tryAgrees_iff {rows : List StringRow} : func.TryAgrees env rows ↔
    (∃ first ∈ rows.head?, ¬Panics env first.text) ∧
      ∀ row ∈ rows, row.valid → func.Settled env row.text := by
  cases rows with
  | nil =>
    refine iff_of_false ?_ (by simp)
    rintro ⟨unit, values, ⟨⟩, -⟩
  | cons a rest =>
    simp only [← try_row_iff, ← exists_mapM_eq_ok_iff, TryAgrees, invokeStrings_eq_ok_iff,
      unitForStringInput_withTry, List.head?_cons, mem_some_iff, exists_eq_left']
    constructor
    · rintro ⟨unit, values, ⟨row, rest', ⟨⟩, ⟨hp, rfl⟩, hv⟩, ha⟩
      exact ⟨hp, values, hv, ha⟩
    · rintro ⟨hp, values, hv, ha⟩
      exact ⟨.nanosecond, values, ⟨a, rest, rfl, ⟨hp, rfl⟩, hv⟩, ha⟩

def springEnv : TimestampEnv where
  __ := sampleTimestampEnv
  stringToTimestampNanos s :=
    if s = "2024-03-10 02:30:00" then some 1710037800000000000 else none
  localZone tz :=
    if tz = "America/Los_Angeles" then
      some fun dt =>
        if dt.timestamp < 1710036000 then some { dt with timestamp := dt.timestamp + 28800 }
        else if dt.timestamp < 1710039600 then none
        else some { dt with timestamp := dt.timestamp + 25200 }
    else none

theorem not_tryAgrees :
    (plainTimestamp.withTry true).invokeStrings springEnv [⟨"", true⟩] =
        .error (.failedToParseInt "") ∧
      ¬plainTimestamp.TryAgrees springEnv [⟨"", true⟩] ∧
      (ToTimestampFunc.mk "try_to_timestamp_ltz" true fun _ => none).invokeStrings springEnv
        [⟨"2024-03-10 02:30:00", true⟩] = .ok (.nanosecond, [some 0]) ∧
      (ToTimestampFunc.mk "to_timestamp_ltz" false fun _ => none).invokeStrings springEnv
        [⟨"2024-03-10 02:30:00", true⟩] = .error .cantAddLocalTimezone := by
  have he : (plainTimestamp.withTry true).invokeStrings springEnv [⟨"", true⟩] =
      .error (.failedToParseInt "") := by decide +kernel
  refine ⟨he, ?_, by decide +kernel, by decide +kernel⟩
  rintro ⟨unit, values, hv, -⟩
  rw [he] at hv
  cases hv

end ToTimestampFunc

end Rustice
