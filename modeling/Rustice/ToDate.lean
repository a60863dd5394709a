import Rustice.ToTimestamp
import Rustice.Utf8

/-!
# `TO_DATE` and `TO_TIME`

Without a format, `TO_DATE` tries three formats, or else a number since the epoch; with one it
translates the format for `chrono`.
-/

namespace Rustice

open List Option
open TimeEnv (IsI64 wrapI64_of_isI64)

/-- More of the libraries: `chrono` has room for the years 1 to 9999, and `str::to_lowercase` leaves
all of ASCII but capitals alone. -/
structure DateEnv extends TimestampEnv where
  min_le_years : minTimestamp ≤ -100000000000
  years_le_max : 300000000000 ≤ maxTimestamp
  chrono : Chrono
  lowercaseFixed : Char → Bool
  toLowercase_of_fixed : ∀ s, (∀ c ∈ s.toList, lowercaseFixed c = true) → toLowercase s = s
  fixed_of_ascii : ∀ c, c.toNat < 128 → c.isUpper = false → lowercaseFixed c = true
  parseTime64 : String → Option ℤ
  parseNaiveTime : String → String → Except String ℤ

inductive DateError where
  | unsupportedValueFormat (value formats : String)
  | execution (message : String)
  | panicked
  deriving DecidableEq

def findByte (c : Char) (cs : List Char) : Option ℕ :=
  if c ∈ cs then some (byteLen (cs.takeWhile (· ≠ c))) else none

def containsText (s pat : String) : Bool := pat.toList <:+: s.toList

def formatDateStr (s : String) : Option String :=
  match (findByte 'T' (trimText s).toList).or (findByte ' ' s.toList) with
  | some index => (takeBytes index s.toList).map String.ofList
  | none => some s

def truncatedText (s : String) : Option (List Char) :=
  let len := byteLen s.toList
  if 19 < len then takeBytes (11 + (len - 20)) s.toList
  else if 10 < len then takeBytes (8 + (len - 11) % 3) s.toList
  else some s.toList

def DateEnv.extractFormatArg (env : DateEnv) (format : Option String) : Option String :=
  (format.map fun format => env.toLowercase (trimText format)).filter (· ≠ "auto")

def parseToChronoFormat (format : String) : String :=
  [("yyyy", "%C%y"), ("yy", "%Y"), ("mon", "%B"), ("mmmm", "%B"), ("mm", "%m"), ("dd", "%d")].foldl
    (fun s entry => TimestampEnv.replace s entry.1 entry.2) format

def formatMissingChronoFormat (format : String) : String × String :=
  if containsText format "%Y" = false ∧ containsText format "%y" = false then
    (format ++ "%Y", "1970")
  else if containsText format "%m" = false ∧ containsText format "%B" = false then
    (format ++ "%m", "01")
  else if containsText format "%d" = false then (format ++ "%d", "01")
  else (format, "")

structure ToDateFunc where
  tryMode : Bool

namespace ToDateFunc

variable (func : ToDateFunc) (env : DateEnv)

def unsupported (value formats : String) : Except DateError (Option ℤ) :=
  if func.tryMode then .ok none else .error (.unsupportedValueFormat value formats)

def parseKnownFormats (s : String) : Option CivilDate :=
  (env.chrono.parseFromStr s.toList "%Y-%m-%d".toList).or
    ((env.chrono.parseFromStr s.toList "%d-%B-%Y".toList).or
      (env.chrono.parseFromStr s.toList "%m/%d/%Y".toList))

def parseTruncated (s : String) : Except DateError (Option ℤ) :=
  match truncatedText s with
  | none => .error .panicked
  | some digits =>
    match parseI64 digits with
    | some timestamp =>
      .ok ((env.fromTimestamp timestamp 0).map fun dateTime => dateTime.timestamp / 86400)
    | none => func.unsupported s "%Y-%m-%d, %d-%B-%Y & %m/%d/%Y"

def toDateAuto (s : String) : Except DateError (Option ℤ) :=
  match formatDateStr s with
  | none => .error .panicked
  | some str =>
    match parseKnownFormats env str with
    | some date => .ok (some date.dayNumber)
    | none => func.parseTruncated env str

def withYear (date : CivilDate) (year : ℤ) : Option ℤ :=
  (CivilDate.ofYmd? year date.month date.day).map CivilDate.dayNumber

def checkYear (realFormat s : String) : Option CivilDate → Except DateError (Option ℤ)
  | none => func.unsupported s realFormat
  | some date =>
    if date.year < 70 then .ok (withYear date (date.year + 2000))
    else if date.year < 100 then .ok (withYear date (date.year + 1900))
    else if date.year < 1970 then func.unsupported s realFormat
    else .ok (some date.dayNumber)

def toDateFormat (realFormat s : String) : Except DateError (Option ℤ) :=
  let completed := formatMissingChronoFormat (parseToChronoFormat realFormat)
  func.checkYear realFormat s
    (env.chrono.parseFromStr (s ++ completed.2).toList completed.1.toList)

def toDateRow (format : Option String) : Option String → Except DateError (Option ℤ)
  | none => .ok none
  | some s =>
    match env.extractFormatArg format with
    | none => func.toDateAuto env s
    | some realFormat => func.toDateFormat env realFormat s

def toDate (format : Option String) (rows : List (Option String)) :
    Except DateError (List (Option ℤ)) :=
  rows.mapM (func.toDateRow env format)

end ToDateFunc

def nanosInDay : ℤ := 86400 * 1000000000

def calcNanosSinceMidnight (nanosTotal : ℤ) : ℤ :=
  if 0 ≤ nanosTotal then nanosTotal.tmod nanosInDay
  else (nanosTotal.tmod nanosInDay + nanosInDay).tmod nanosInDay

structure ToTimeFunc where
  isTry : Bool

namespace ToTimeFunc

variable (func : ToTimeFunc) (env : DateEnv)

def refused (message : String) : Except DateError (Option ℤ) :=
  if func.isTry then .ok none else .error (.execution message)

def parseTime (value format : String) : Except String ℤ :=
  env.parseNaiveTime value
    ([("HH24", "%H"), ("HH12", "%I"), ("MI", "%M"), ("SS", "%S"), ("FF", "%.f"), ("FF0", "%.f"),
      ("FF3", "%.3f"), ("FF6", "%.6f"), ("FF9", "%.9f"), ("AM", "%p"), ("PM", "%p")].foldl
      (fun s entry => TimestampEnv.replace s entry.1 entry.2) format)

def timeOfInteger (len : ℕ) (i : ℤ) : Except DateError (Option ℤ) :=
  match len with
  | 8 => .ok (some (calcNanosSinceMidnight (wrapI64 (i * 1000000000))))
  | 11 => .ok (some (calcNanosSinceMidnight (wrapI64 (i * 1000000))))
  | 14 => .ok (some (calcNanosSinceMidnight (wrapI64 (i * 1000))))
  | 17 => .ok (some (calcNanosSinceMidnight i))
  | _ => func.refused
      "function expects a valid integer (seconds, milliseconds, microseconds or nanoseconds)"

def toTimeRow (format : Option String) : Option String → Except DateError (Option ℤ)
  | none => .ok none
  | some s =>
    match format with
    | some format =>
      match parseTime env s format with
      | .ok v => .ok (some v)
      | .error v => func.refused ("can't parse time string with format: " ++ v)
    | none =>
      match parseI64 s.toList with
      | some i => func.timeOfInteger (byteLen s.toList) i
      | none =>
        match env.parseTime64 s with
        | some v => .ok (some v)
        | none => func.refused "can't parse time string"

def toTime (format : Option String) (rows : List (Option String)) :
    Except DateError (List (Option ℤ)) :=
  rows.mapM (func.toTimeRow env format)

end ToTimeFunc

lemma utf8Size_of_isDigit {c : Char} (hc : c.isDigit = true) : c.utf8Size = 1 := by
  rw [Char.isDigit, Bool.and_eq_true, decide_eq_true_eq, decide_eq_true_eq] at hc
  have hn : '9'.val ≤ 127 := by decide
  exact Char.utf8Size_eq_one_iff.mpr (UInt32.le_trans hc.2 hn)

lemma byteLen_of_digits {cs : List Char} (h : ∀ c ∈ cs, c.isDigit = true) :
    byteLen cs = cs.length :=
  byteLen_of_single fun c hc => utf8Size_of_isDigit (h c hc)

lemma takeBytes_of_digits {cs : List Char} (h : ∀ c ∈ cs, c.isDigit = true) {k : ℕ}
    (hk : k ≤ cs.length) : takeBytes k cs = some (cs.take k) :=
  takeBytes_of_single (fun c hc => utf8Size_of_isDigit (h c hc)) hk

/-- The digits that `parse_truncated_checked` drops. -/
def lengthScale (len : ℕ) : ℕ :=
  if len ≤ 10 then 0 else if len ≤ 13 then 3 else if len ≤ 16 then 6 else 9

def timeLengths : List ℕ := [8, 11, 14, 17]

lemma calcNanosSinceMidnight_eq (ns : ℤ) : calcNanosSinceMidnight ns = ns % nanosInDay := by
  rw [calcNanosSinceMidnight]
  split_ifs with h
  · exact Int.tmod_eq_emod_of_nonneg h
  · have hpos : (0 : ℤ) < nanosInDay := by decide
    have hlt := Int.lt_tmod_of_pos ns hpos
    rw [Int.tmod_eq_emod_of_nonneg (by omega), Int.add_emod_right]
    calc ns.tmod nanosInDay % nanosInDay
        = (ns.tmod nanosInDay + ns.tdiv nanosInDay * nanosInDay) % nanosInDay :=
          (Int.add_mul_emod_self_right ..).symm
      _ = ns % nanosInDay := by rw [Int.tmod_add_tdiv_mul]

lemma timeOfInteger_of_mem (f : ToTimeFunc) {l n : ℕ} (hlen : l ∈ timeLengths) (hn : n < 10 ^ l) :
    f.timeOfInteger l n = .ok (some ((n * 10 ^ (9 - lengthScale l)) % nanosInDay)) := by
  have hw : ∀ z : ℤ, 0 ≤ z → z < 10 ^ 17 → calcNanosSinceMidnight (wrapI64 z) = z % nanosInDay := by
    intro z hz hlt
    rw [wrapI64_of_isI64 (by rw [IsI64]; omega), calcNanosSinceMidnight_eq]
  simp only [timeLengths, mem_cons, not_mem_nil, or_false] at hlen
  rcases hlen with rfl | rfl | rfl | rfl
  · rw [ToTimeFunc.timeOfInteger, hw (n * 1000000000) (by omega) (by omega)]
    rfl
  · rw [ToTimeFunc.timeOfInteger, hw (n * 1000000) (by omega) (by omega)]
    rfl
  · rw [ToTimeFunc.timeOfInteger, hw (n * 1000) (by omega) (by omega)]
    rfl
  · have ht := calcNanosSinceMidnight_eq n
    rw [ToTimeFunc.timeOfInteger, ht]
    simp [lengthScale]

lemma timeOfInteger_of_notMem (f : ToTimeFunc) {l : ℕ} (hlen : l ∉ timeLengths) (i : ℤ) :
    f.timeOfInteger l i = f.refused
      "function expects a valid integer (seconds, milliseconds, microseconds or nanoseconds)" := by
  simp only [timeLengths, mem_cons, not_mem_nil, or_false, not_or] at hlen
  obtain ⟨h8, h11, h14, h17⟩ := hlen
  rw [ToTimeFunc.timeOfInteger] <;> assumption

section Digits

variable {s : String} (hs : containsOnlyDigits s = true)
include hs

lemma forall_isDigit : ∀ c ∈ s.toList, c.isDigit = true := all_eq_true.mp hs

lemma notMem_of_digits {c : Char} (hc : c.isDigit = false) : c ∉ s.toList := fun hm => by
  rw [forall_isDigit hs c hm] at hc
  cases hc

lemma formatDateStr_of_digits : formatDateStr s = some s := by
  have ht : 'T' ∉ (trimText s).toList := by
    rw [trimText, String.toList_ofList]
    intro hm
    have hd := ( rdropWhile_prefix isWhitespace _).subset hm
    exact notMem_of_digits hs rfl ((dropWhile_suffix isWhitespace).subset hd)
  rw [formatDateStr, findByte, if_neg ht, findByte, if_neg (notMem_of_digits hs rfl)]
  rfl

lemma parseKnownFormats_of_digits (env : DateEnv) : ToDateFunc.parseKnownFormats env s = none := by
  have hf : ∀ (f : String) (xs : List FormatItem) (c : Char),
      env.chrono.items f.toList = some xs → FormatItem.literal c ∈ xs →
      c.isDigit = false → env.chrono.parseFromStr s.toList f.toList = none := by
    intro f xs c hi hm hc
    rw [Chrono.parseFromStr, hi]
    simp only [bind_eq_bind, bind_some,
      Chrono.parseItems_eq_none_of_literal hm (notMem_of_digits hs hc), bind_none]
  rw [ToDateFunc.parseKnownFormats, hf "%Y-%m-%d" _ '-' rfl (by decide) rfl,
    hf "%d-%B-%Y" _ '-' rfl (by decide) rfl, hf "%m/%d/%Y" _ '/' rfl (by decide) rfl]
  rfl

lemma truncatedText_of_digits :
    truncatedText s = some (s.toList.take (s.toList.length - lengthScale s.toList.length)) := by
  have ha := forall_isDigit hs
  rw [truncatedText, byteLen_of_digits ha, lengthScale]
  split_ifs with h19 h10
  all_goals first
    | (rw [takeBytes_of_digits ha (by omega)]; congr 2; omega)
    | (rw [Nat.sub_zero, take_length])
    | omega

variable {n : ℕ} (hread : readDigits s.toList = some n)
include hread

lemma toDateAuto_of_digits (f : ToDateFunc) (env : DateEnv) :
    f.toDateAuto env s = if IsI64 (n / 10 ^ lengthScale s.toList.length : ℕ) then
        .ok ((env.fromTimestamp (n / 10 ^ lengthScale s.toList.length : ℕ) 0).map
          fun dt => dt.timestamp / 86400) else f.unsupported s "%Y-%m-%d, %d-%B-%Y & %m/%d/%Y" := by
  have hpos : 0 < s.toList.length := by
    rcases Nat.eq_zero_or_pos s.toList.length with hz | hpos
    · rw [length_eq_zero_iff.mp hz] at hread
      cases hread
    · exact hpos
  have hsc : lengthScale s.toList.length < s.toList.length := by
    rw [lengthScale]
    split_ifs <;> omega
  have ht := readDigits_take hread (Nat.sub_pos_of_lt hsc)
  rw [Nat.sub_sub_self hsc.le] at ht
  have ha : (s.toList.take (s.toList.length - lengthScale s.toList.length)).all Char.isDigit =
      true :=
    all_eq_true.mpr fun c hc => forall_isDigit hs c (mem_of_mem_take hc)
  have hp := parseI64_of_digits ha
  rw [ht, bind_some] at hp
  simp only [ToDateFunc.toDateAuto, formatDateStr_of_digits hs, parseKnownFormats_of_digits hs,
    ToDateFunc.parseTruncated, truncatedText_of_digits hs]
  split_ifs with hf
  · rw [hp, if_pos hf]
  · rw [hp, if_neg hf]

omit hs hread in
lemma fromTimestamp_natCast (env : DateEnv) (ss : ℕ) :
    (env.fromTimestamp ss 0).map (fun dt => dt.timestamp / 86400) =
      if (ss : ℤ) ≤ env.maxTimestamp then some ((ss : ℤ) / 86400) else none := by
  have hmin : env.minTimestamp ≤ (ss : ℤ) := le_trans env.min_le (by omega)
  rw [TimeEnv.fromTimestamp, dif_pos (by decide)]
  by_cases hmax : (ss : ℤ) ≤ env.maxTimestamp
  · rw [if_pos ⟨hmin, hmax⟩, if_pos hmax]
    rfl
  · rw [if_neg fun h => hmax h.2, if_neg hmax]
    rfl

lemma toDate_eq_ok_iff {f : ToDateFunc} {env : DateEnv} {d : ℤ} :
    f.toDate env none [some s] = .ok [some d] ↔ IsI64 (n / 10 ^ lengthScale s.toList.length : ℕ) ∧
        ((n / 10 ^ lengthScale s.toList.length : ℕ) : ℤ) ≤ env.maxTimestamp ∧
        d = ((n / 10 ^ lengthScale s.toList.length : ℕ) : ℤ) / 86400 := by
  have hr : f.toDateRow env none (some s) = f.toDateAuto env s := rfl
  simp only [ToDateFunc.toDate, mapM_eq_ok_iff, forall₂_cons, List.Forall₂.nil, and_true,
    hr, toDateAuto_of_digits hs hread]
  generalize n / 10 ^ lengthScale s.toList.length = ss
  by_cases hf : IsI64 ss
  · rw [if_pos hf, fromTimestamp_natCast]
    by_cases hmax : (ss : ℤ) ≤ env.maxTimestamp
    · simp [hmax, hf, eq_comm]
    · simp [hmax]
  · rw [if_neg hf, ToDateFunc.unsupported]
    split_ifs <;> simp [hf]

lemma toTime_eq_ok_iff {f : ToTimeFunc} {env : DateEnv} {t : ℤ} (hn : IsI64 n) :
    f.toTime env none [some s] = .ok [some t] ↔ s.toList.length ∈ timeLengths ∧
        t = (n * 10 ^ (9 - lengthScale s.toList.length)) % nanosInDay := by
  have hr : f.toTimeRow env none (some s) = f.timeOfInteger s.toList.length n := by
    have hp := parseI64_of_digits hs
    rw [hread, bind_some, if_pos hn] at hp
    simp only [ToTimeFunc.toTimeRow, hp, byteLen_of_digits (forall_isDigit hs)]
  have hlt := lt_of_readDigits hread
  simp only [ToTimeFunc.toTime, mapM_eq_ok_iff, forall₂_cons, List.Forall₂.nil, and_true, hr]
  by_cases hlen : s.toList.length ∈ timeLengths
  · rw [timeOfInteger_of_mem f hlen hlt]
    simp [hlen, eq_comm]
  · rw [timeOfInteger_of_notMem f hlen]
    simp only [ToTimeFunc.refused, hlen, false_and, iff_false]
    split_ifs <;> simp

end Digits

open ToTimestampFunc

namespace DateEnv

variable (env : DateEnv)

/-- The date and the time of day are those of the timestamp. -/
def IntegerTextAgrees (date : ToDateFunc) (time : ToTimeFunc) (timestamp : ToTimestampFunc)
    (s : String) : Prop :=
  ∀ unit ts, timestamp.invokeStrings env.toTimestampEnv [⟨s, true⟩] = .ok (unit, [some ts]) →
    (∀ d, date.toDate env none [some s] = .ok [some d] → d = ts * unit.nanos / nanosInDay) ∧
    ∀ t, time.toTime env none [some s] = .ok [some t] → t = ts * unit.nanos % nanosInDay

/-- The unit of the length and the unit of the size give the same day and time of day. -/
def NumberAgrees (n len : ℕ) : Prop :=
  IsI64 n → (((n / 10 ^ lengthScale len : ℕ) : ℤ) ≤ env.maxTimestamp →
      ((n / 10 ^ lengthScale len : ℕ) : ℤ) / 86400 =
        wrapI64 (n * 10 ^ (9 - determineTimestampScale n)) / nanosInDay) ∧
    (len ∈ timeLengths → (n * 10 ^ (9 - lengthScale len)) % nanosInDay =
        wrapI64 (n * 10 ^ (9 - determineTimestampScale n)) % nanosInDay)

variable {env}

/-! ### Main results -/

/-- **Texts of digits** mean the same in three conversions exactly if both scales give one day and
time. -/
theorem integerText_agrees_iff {date : ToDateFunc} {time : ToTimeFunc}
    {timestamp : ToTimestampFunc} {s : String} {n : ℕ} (hs : containsOnlyDigits s = true)
    (hread : readDigits s.toList = some n) :
    env.IntegerTextAgrees date time timestamp s ↔ env.NumberAgrees n s.toList.length := by
  have hp := parseI64_of_digits hs
  rw [hread, bind_some] at hp
  have hc := @ToTimestampFunc.invokeStrings_digits timestamp env.toTimestampEnv s hs
  by_cases hn : IsI64 n
  · rw [hp, if_pos hn] at hc
    have hsec : IsI64 (n / 10 ^ lengthScale s.toList.length : ℕ) := by
      have hle := Nat.div_le_self n (10 ^ lengthScale s.toList.length)
      generalize n / 10 ^ lengthScale s.toList.length = secs at hle ⊢
      rw [IsI64] at hn ⊢
      omega
    simp only [IntegerTextAgrees, NumberAgrees, hc, epochNanos_eq hn,
      toDate_eq_ok_iff hs hread, toTime_eq_ok_iff hs hread hn, hsec, hn, true_and,
      forall_const, Except.ok.injEq, Prod.mk.injEq, cons.injEq, some.injEq, and_true]
    constructor
    · intro h
      obtain ⟨hd, ht⟩ := h .nanosecond _ ⟨rfl, rfl⟩
      rw [TimeUnit.nanos, mul_one] at hd ht
      exact ⟨fun hmax => hd _ ⟨hmax, rfl⟩, fun hlen => ht _ ⟨hlen, rfl⟩⟩
    · rintro ⟨hd, ht⟩ unit ts ⟨rfl, rfl⟩
      rw [TimeUnit.nanos, mul_one]
      refine ⟨?_, ?_⟩
      · rintro d ⟨hmax, rfl⟩
        exact hd hmax
      · rintro t ⟨hlen, rfl⟩
        exact ht hlen
  · rw [hp, if_neg hn] at hc
    refine iff_of_true (fun unit ts h => ?_) (fun h => absurd h hn)
    rw [hc] at h
    cases h

end DateEnv

def dateEnd (s : String) : ℕ :=
  ((findByte 'T' (trimText s).toList).or (findByte ' ' s.toList)).getD (byteLen s.toList)

def truncatedEnd (len : ℕ) : ℕ :=
  if 19 < len then 11 + (len - 20) else if 10 < len then 8 + (len - 11) % 3 else len

lemma isSome_formatDateStr_iff {s : String} :
    (formatDateStr s).isSome ↔ IsCharBoundary (dateEnd s) s.toList := by
  rw [formatDateStr, dateEnd]
  cases (findByte 'T' (trimText s).toList).or (findByte ' ' s.toList) with
  | none => exact iff_of_true rfl (isCharBoundary_byteLen _)
  | some index => rw [isSome_map, isSome_takeBytes_iff, getD_some]

lemma isSome_truncatedText_iff {s : String} :
    (truncatedText s).isSome ↔ IsCharBoundary (truncatedEnd (byteLen s.toList)) s.toList := by
  simp only [truncatedText, truncatedEnd]
  split_ifs
  · exact isSome_takeBytes_iff
  · exact isSome_takeBytes_iff
  · exact iff_of_true rfl (isCharBoundary_byteLen _)

open ToDateFunc

namespace ToDateFunc

variable (env : DateEnv)

/-- NULL for each row on which `TO_DATE` fails. -/
def TryTotal (format : Option String) (rows : List (Option String)) : Prop :=
  ∃ values, (mk true).toDate env format rows = .ok values ∧
    List.Forall₂ (fun row value => ∀ e, (mk false).toDate env format [row] = .error e →
      value = none) rows values

def CutsBetweenCharacters (s : String) : Prop :=
  IsCharBoundary (dateEnd s) s.toList ∧
    ∀ str, formatDateStr s = some str → parseKnownFormats env str = none →
      IsCharBoundary (truncatedEnd (byteLen str.toList)) str.toList

variable {env}

lemma toDateAuto_try_iff {s : String} : (∃ v, (mk true).toDateAuto env s = .ok v ∧
      ∀ e, (mk false).toDateAuto env s = .error e → v = none) ↔ CutsBetweenCharacters env s := by
  rw [CutsBetweenCharacters, ← isSome_formatDateStr_iff]
  simp only [toDateAuto]
  cases formatDateStr s with
  | none => simp
  | some st =>
    cases hd : parseKnownFormats env st with
    | some date => simp [hd]
    | none =>
      simp only [parseTruncated, some.injEq, forall_eq', hd, forall_const,
        ← isSome_truncatedText_iff, isSome_some, true_and]
      cases truncatedText st with
      | none => simp
      | some ds => cases hdig : parseI64 ds <;> simp [unsupported, hdig]

lemma toDateFormat_try (rf s : String) : ∃ v, (mk true).toDateFormat env rf s = .ok v ∧
    ∀ e, (mk false).toDateFormat env rf s = .error e → v = none := by
  simp only [toDateFormat]
  generalize env.chrono.parseFromStr _ _ = d
  cases d with
  | none => simp [checkYear, unsupported]
  | some d =>
    simp only [checkYear, unsupported]
    split_ifs <;> simp

/-- **`TRY_TO_DATE` is total** exactly with a format, or if no cut is inside a character. -/
theorem tryTotal_iff {format : Option String} {rows : List (Option String)} :
    TryTotal env format rows ↔
      (env.extractFormatArg format = none → ∀ s, some s ∈ rows → CutsBetweenCharacters env s) := by
  have ha : ∀ row e, (mk false).toDate env format [row] = .error e ↔
      (mk false).toDateRow env format row = .error e := fun row e => by
    simp [toDate, mapM_cons, bind_eq_error, pure, Except.pure]
  rw [TryTotal, toDate, exists_mapM_eq_ok_iff]
  simp only [ha]
  cases hf : env.extractFormatArg format with
  | none =>
    refine ⟨fun h _ s hs => ?_, fun h row hr => ?_⟩
    · have hs' := h (some s) hs
      simp only [toDateRow, hf] at hs'
      exact toDateAuto_try_iff.mp hs'
    · cases row with
      | none => exact ⟨none, rfl, fun _ _ => rfl⟩
      | some s =>
        simp only [toDateRow, hf]
        exact toDateAuto_try_iff.mpr (h rfl s hr)
  | some rf =>
    refine iff_of_true (fun row _ => ?_) nofun
    cases row with
    | none => exact ⟨none, rfl, fun _ _ => rfl⟩
    | some s =>
      simp only [toDateRow, hf]
      exact toDateFormat_try rf s

end ToDateFunc

def sampleChrono : Chrono where
  otherLength _ := none
  printOther _ _ := none
  parseOther _ _ _ := none
  otherLength_le _ _ h := by cases h
  notMem_of_otherLength _ _ h := by cases h
  letters_of_otherLength _ _ h := by cases h
  notMem_printOther _ _ _ h := by cases h
  suffix_of_parseOther _ _ _ _ _ h := by cases h

def sampleDateEnv : DateEnv where
  toTimestampEnv := sampleTimestampEnv
  min_le_years := by decide
  years_le_max := by decide
  chrono := sampleChrono
  lowercaseFixed c := c.toLower = c
  toLowercase_of_fixed s h := by
    have hmap : s.toList.map Char.toLower = s.toList :=
      (map_congr_left fun c hc => decide_eq_true_eq.mp (h c hc)).trans (map_id _)
    exact (congrArg String.ofList hmap).trans (String.ofList_toList)
  fixed_of_ascii c _ h := by
    have hlower : c.toLower = c := dif_neg (decide_eq_false_iff_not.mp h)
    exact decide_eq_true hlower
  parseTime64 _ := none
  parseNaiveTime _ _ := .error "premature end of input"

namespace DateEnv

theorem integerText_agrees_seconds :
    sampleDateEnv.IntegerTextAgrees ⟨false⟩ ⟨false⟩ plainTimestamp
      "1706697000" := by
  refine (integerText_agrees_iff (n := 1706697000) (by decide +kernel) (by decide +kernel)).mpr ?_
  intro _
  refine ⟨fun _ => by decide +kernel, fun h => absurd h (by decide +kernel)⟩

theorem integerText_differs :
    plainTimestamp.invokeStrings sampleDateEnv.toTimestampEnv
      [⟨"01706697000", true⟩] = .ok (.nanosecond, [some 1706697000000000000]) ∧
    (ToDateFunc.mk false).toDate sampleDateEnv none [some "01706697000"] = .ok [some 19] ∧
    1706697000000000000 / nanosInDay = 19753 ∧
    (ToTimeFunc.mk false).toTime sampleDateEnv none [some "01706697000"] =
      .ok [some 65097000000000] ∧
    1706697000000000000 % nanosInDay = 37800000000000 ∧
    ¬ sampleDateEnv.IntegerTextAgrees ⟨false⟩ ⟨false⟩ plainTimestamp
      "01706697000" := by
  have hc : plainTimestamp.invokeStrings sampleDateEnv.toTimestampEnv
      [⟨"01706697000", true⟩] = .ok (.nanosecond, [some 1706697000000000000]) := by
    decide +kernel
  have hd : (ToDateFunc.mk false).toDate sampleDateEnv none [some "01706697000"] =
      .ok [some 19] := by decide +kernel
  refine ⟨hc, hd, by decide, by decide +kernel, by decide, fun h => ?_⟩
  exact absurd ((h _ _ hc).1 19 hd) (by decide)

end DateEnv

theorem ToDateFunc.toDate_panics :
    (mk true).toDate sampleDateEnv none [some "éééééé"] = .error .panicked ∧
      ¬TryTotal sampleDateEnv none [some "éééééé"] := by
  have hc : (mk true).toDate sampleDateEnv none [some "éééééé"] =
      .error .panicked := by decide +kernel
  refine ⟨hc, ?_⟩
  rintro ⟨values, hv, -⟩
  rw [hc] at hv
  cases hv

end Rustice
