import Rustice.ToDate

/-!
# `TO_VARCHAR` of Dates and Timestamps

`TO_VARCHAR` translates a format for `chrono` by replacing one token after the other, and prints the
date or the time with it.
-/

namespace Rustice

open List Int
open TimeEnv (IsI64)

inductive DateToken where
  | yyyy
  | mm
  | dd
  | hh24
  | mi
  | ss
  deriving DecidableEq

def DateToken.text : DateToken → List Char
  | yyyy => ['y', 'y', 'y', 'y']
  | mm => ['m', 'm']
  | dd => ['d', 'd']
  | hh24 => ['h', 'h', '2', '4']
  | mi => ['m', 'i']
  | ss => ['s', 's']

inductive FormatPiece where
  | token (t : DateToken)
  | separator (c : Char) (hc : c.isAlpha = false)

open Chrono

namespace FormatPiece

def render (f : DateToken → List Char) : FormatPiece → List Char
  | token t => f t
  | separator c _ => [c]

def formatText (ps : List FormatPiece) : List Char := ps.flatMap (render DateToken.text)

variable {f : DateToken → List Char} {ps : List FormatPiece} {as : List Char} {t : DateToken}
  {a : Char} {c : Char} (d : CivilDate) (b : Fin 86400) {rep : List Char} {ch : Chrono}

lemma replaceText_token (ht : f t = a :: as) (ha : a.isAlpha = true)
    (h : ∀ t' ≠ t, ∀ qs : List FormatPiece, NoStart (a :: as) (f t') (qs.flatMap (render f))) :
    replaceText (a :: as) rep (ps.flatMap (render f)) =
      ps.flatMap (render (Function.update f t rep)) := by
  refine replaceText_flatMap (cons_ne_nil a as) fun p _ => ?_
  cases p with
  | token t' =>
    by_cases heq : t' = t
    · subst heq
      exact .inl ⟨ht, Function.update_self ..⟩
    · exact .inr ⟨Function.update_of_ne heq .., fun qs _ => h t' heq qs⟩
  | separator c hc =>
    refine .inr ⟨rfl, fun qs _ => noStart_of_notMem (fun hm => ?_) _⟩
    rw [mem_singleton.mp hm, hc] at ha
    cases ha

lemma replaceText_other (ha : a.isAlpha = true)
    (h : ∀ t, ∀ qs : List FormatPiece, NoStart (a :: as) (f t) (qs.flatMap (render f))) :
    replaceText (a :: as) rep (ps.flatMap (render f)) = ps.flatMap (render f) := by
  refine replaceText_flatMap (cons_ne_nil a as) fun p _ => .inr ⟨rfl, fun qs _ => ?_⟩
  cases p with
  | token t => exact h t qs
  | separator c hc =>
    refine noStart_of_notMem (fun hm => ?_) _
    rw [mem_singleton.mp hm, hc] at ha
    cases ha

lemma head?_render_ne {b : Char} (hb : b.isAlpha = true) (hne : ∀ t, f t ≠ [])
    (h : ∀ t, (f t).head? ≠ some b) (qs : List FormatPiece) :
    (qs.flatMap (render f)).head? ≠ some b := by
  refine head?_flatMap_ne (fun p _ => ?_) (fun p _ => ?_)
  · cases p with
    | token t => exact hne t
    | separator c hc => exact cons_ne_nil c []
  · cases p with
    | token t => exact h t
    | separator c hc =>
      intro heq
      cases heq
      rw [hc] at hb
      cases hb

def dateText : DateToken → List Char
  | .yyyy => ['%', 'Y']
  | .mm => ['%', 'm']
  | .dd => ['%', 'd']
  | t => t.text

def timestampText : DateToken → List Char
  | .yyyy => ['%', 'Y']
  | .mm => ['%', 'm']
  | .dd => ['%', 'd']
  | .hh24 => ['%', 'H']
  | .mi => ['%', 'M']
  | .ss => ['s', 's']

lemma replace_yyyy (yr : List Char) : replaceText ['y', 'y', 'y', 'y'] yr (formatText ps) =
    ps.flatMap (render (Function.update DateToken.text .yyyy yr)) := by
  refine replaceText_token rfl rfl fun t hne qs => ?_
  cases t with
  | yyyy => exact absurd rfl hne
  | mm | dd | hh24 | mi | ss => exact noStart_of_notMem (by decide) _

lemma replace_mm_dd (hm : 'm' ∉ as) (hd : 'd' ∉ as) :
    replaceText ['d', 'd'] ['%', 'd'] (replaceText ['m', 'm'] ['%', 'm']
      (ps.flatMap (render (Function.update DateToken.text .yyyy as)))) =
    ps.flatMap (render (Function.update dateText .yyyy as)) := by
  rw [replaceText_token (t := .mm) rfl rfl, replaceText_token (t := .dd) rfl rfl]
  · congr 2
    funext t
    cases t <;> rfl
  · -- There is no `d` in the other tokens.
    rintro t hne qs
    cases t with
    | yyyy => exact noStart_of_notMem hd _
    | dd => exact absurd rfl hne
    | mm | hh24 | mi | ss => exact noStart_of_notMem (by simp [Function.update, DateToken.text]) _
  · -- In `mi` another letter follows the `m`.
    rintro t hne qs
    cases t with
    | yyyy => exact noStart_of_notMem hm _
    | mm => exact absurd rfl hne
    | mi => exact ⟨by simp, by simp, trivial⟩
    | dd | hh24 | ss => exact noStart_of_notMem (by simp [Function.update, DateToken.text]) _

lemma noStart_month (hne : ∀ t, f t ≠ [])
    (hb : c.isAlpha = true) (h : ∀ t, (f t).head? ≠ some c) (qs : List FormatPiece) :
    NoStart ('m' :: c :: as) ['%', 'm'] (qs.flatMap (render f)) := by
  exact ⟨by simp, not_prefix_of_head? (head?_render_ne hb hne h qs), trivial⟩

lemma replace_timestamp : replaceText ['m', 'o', 'n'] ['%', 'b'] (replaceText ['m', 'i'] ['%', 'M']
      (replaceText ['h', 'h', '2', '4'] ['%', 'H'] (replaceText ['d', 'd'] ['%', 'd']
        (replaceText ['m', 'm'] ['%', 'm']
          (replaceText ['y', 'y', 'y', 'y'] ['%', 'Y'] (formatText ps)))))) =
    ps.flatMap (render timestampText) := by
  rw [replace_yyyy, replace_mm_dd (by decide) (by decide), replaceText_token (t := .hh24) rfl rfl,
    replaceText_token (t := .mi) rfl rfl, replaceText_other rfl]
  · congr 2
    funext t
    cases t <;> rfl
  · rintro t qs
    cases t with
    | mm =>
      refine noStart_month (fun t => ?_) rfl (fun t => ?_) qs
      · cases t <;> exact cons_ne_nil _ _
      · cases t <;> decide
    | yyyy | dd | hh24 | mi | ss => exact noStart_of_notMem (by decide) _
  · rintro t hne qs
    cases t with
    | mm =>
      refine noStart_month (fun t => ?_) rfl (fun t => ?_) qs
      · cases t <;> exact cons_ne_nil _ _
      · cases t <;> decide
    | mi => exact absurd rfl hne
    | yyyy | dd | hh24 | ss => exact noStart_of_notMem (by decide) _
  · rintro t hne qs
    cases t with
    | hh24 => exact absurd rfl hne
    | yyyy | mm | dd | mi | ss => exact noStart_of_notMem (by decide) _

def fieldText (date : CivilDate) (second : Fin 86400) : DateToken → List Char
  | .yyyy => yearText date.year
  | .mm => twoDigits date.month
  | .dd => twoDigits date.day
  | .hh24 => twoDigits (second.val / 3600)
  | .mi => twoDigits (second.val / 60 % 60)
  | .ss => twoDigits (second.val % 60)

def Printable : FormatPiece → Prop
  | token t => t ≠ .ss
  | separator c _ => c ≠ '%'

lemma mem_fieldText {d : CivilDate} {b : Fin 86400}
    (hc : c ∈ fieldText d b t) : c.isDigit = true ∨ c = '-' ∨ c = '+' := by
  cases t with
  | yyyy => exact mem_yearText hc
  | mm => exact .inl (isDigit_of_mem_twoDigits (month_lt d) hc)
  | dd => exact .inl (isDigit_of_mem_twoDigits (day_lt d) hc)
  | hh24 => exact .inl (isDigit_of_mem_twoDigits (by omega) hc)
  | mi => exact .inl (isDigit_of_mem_twoDigits (by omega) hc)
  | ss => exact .inl (isDigit_of_mem_twoDigits (by omega) hc)

lemma count_fieldText (t : DateToken) : (fieldText d b t).count '%' = 0 := by
  refine count_eq_zero_of_not_mem fun hm => ?_
  rcases mem_fieldText hm with hd | hs | hs
  · exact absurd hd (by decide)
  · exact absurd hs (by decide)
  · exact absurd hs (by decide)

lemma isAlpha_of_isDigit (hc : c.isDigit = true) : c.isAlpha = false := by
  rw [Char.isDigit, Bool.and_eq_true, decide_eq_true_eq, decide_eq_true_eq] at hc
  have hn : c.val.toNat ≤ 57 := UInt32.le_iff_toNat_le.mp hc.2
  rw [Bool.eq_false_iff]
  intro ha
  rcases Bool.or_eq_true_iff.mp ha with hu | hl
  · have hle : 65 ≤ c.val.toNat := UInt32.le_iff_toNat_le.mp (of_decide_eq_true hu).1
    omega
  · have hle : 97 ≤ c.val.toNat :=
      UInt32.le_iff_toNat_le.mp (of_decide_eq_true (Bool.and_eq_true_iff.mp hl).1)
    omega

lemma countP_fieldText (t : DateToken) : (fieldText d b t).countP Char.isAlpha = 0 := by
  refine countP_eq_zero.mpr fun c hc => ?_
  rcases mem_fieldText hc with hd | rfl | rfl
  · rw [isAlpha_of_isDigit hd]
    exact Bool.false_ne_true
  · decide
  · decide

lemma countP_render_fieldText (ps : List FormatPiece) :
    (ps.flatMap (render (fieldText d b))).countP Char.isAlpha = 0 := by
  induction ps with
  | nil => rfl
  | cons p ps ih =>
    rw [flatMap_cons, countP_append, ih]
    cases p with
    | token t => exact countP_fieldText d b t
    | separator c hc => simp [render, hc]

lemma count_render_piece (p : FormatPiece) :
    (p.render timestampText).count '%' ≤ (p.render timestampText).countP Char.isAlpha +
        2 * (p.render (fieldText d b)).count '%' ∧ ((p.render timestampText).countP Char.isAlpha +
          2 * (p.render (fieldText d b)).count '%' ≤ (p.render timestampText).count '%' →
        p.Printable) := by
  cases p with
  | separator c hc =>
    by_cases hp : c = '%'
    · subst hp
      simp [render, hc]
    · simp [render, hc, hp, Printable]
  | token t =>
    simp only [render, count_fieldText]
    cases t with
    | ss => exact ⟨by decide, fun h => absurd h (by decide)⟩
    | yyyy | mm | dd | hh24 | mi => exact ⟨by decide, fun _ => by simp [Printable]⟩

lemma count_render (ps : List FormatPiece) : (ps.flatMap (render timestampText)).count '%' ≤
      (ps.flatMap (render timestampText)).countP Char.isAlpha +
        2 * (ps.flatMap (render (fieldText d b))).count '%' ∧
    ((ps.flatMap (render timestampText)).countP Char.isAlpha +
        2 * (ps.flatMap (render (fieldText d b))).count '%' ≤
          (ps.flatMap (render timestampText)).count '%' → ∀ p ∈ ps, p.Printable) := by
  induction ps with
  | nil => exact ⟨le_rfl, fun _ p hp => absurd hp not_mem_nil⟩
  | cons p ps ih =>
    obtain ⟨hle, hprn⟩ := count_render_piece d b p
    obtain ⟨hl, hpr⟩ := ih
    simp only [flatMap_cons, count_append, countP_append, forall_mem_cons]
    refine ⟨by omega, fun h => ⟨hprn (by omega), hpr (by omega)⟩⟩

lemma format_render {dt : CivilDate} {b : Fin 86400} {ns : ℕ}
    (hps : ∀ p ∈ ps, p.Printable) : ch.format (ps.flatMap (render timestampText)) ⟨dt, some b, ns⟩ =
      some (ps.flatMap (render (fieldText dt b))) := by
  induction ps with
  | nil => rfl
  | cons p ps ih =>
    rw [forall_mem_cons] at hps
    have hr := ih hps.2
    rw [flatMap_cons, flatMap_cons]
    cases p with
    | separator c hc =>
      rw [render, render, singleton_append, format_cons hps.1, hr]
      rfl
    | token t =>
      cases t with
      | ss => exact absurd rfl hps.1
      | yyyy =>
        refine (format_directive (d := .year) (n := 1) rfl rfl).trans ?_
        exact congrArg _ hr
      | mm =>
        refine (format_directive (d := .month) (n := 1) rfl rfl).trans ?_
        exact congrArg _ hr
      | dd =>
        refine (format_directive (d := .day) (n := 1) rfl rfl).trans ?_
        exact congrArg _ hr
      | hh24 =>
        refine (format_directive (d := .hour) (n := 1) rfl rfl).trans ?_
        exact congrArg _ hr
      | mi =>
        refine (format_directive (d := .minute) (n := 1) rfl rfl).trans ?_
        exact congrArg _ hr

lemma format_render_iff {d : CivilDate} {b : Fin 86400} {ns : ℕ} :
    ch.format (ps.flatMap (render timestampText)) ⟨d, some b, ns⟩ =
        some (ps.flatMap (render (fieldText d b))) ↔ ∀ p ∈ ps, p.Printable := by
  refine ⟨fun h => ?_, format_render⟩
  -- Letters and percent signs of the format must not show up in what is printed.
  obtain ⟨directives, hp, hl⟩ := count_of_format h
  rw [countP_render_fieldText] at hl
  exact (count_render d b ps).2 (by omega)

end FormatPiece

open FormatPiece

inductive VarcharError where
  | execution (message : String)
  | panicked
  deriving DecidableEq

inductive DateValue where
  | date32 (days : ℤ)
  | date64 (millis : ℤ)

def wrapI32 (n : ℤ) : ℤ := n.bmod (2 ^ 32)

def secondOfDay (secs : ℤ) : Fin 86400 := ⟨(secs % 86400).toNat, by omega⟩

def DateTime.fields (t : DateTime) : FormatFields :=
  ⟨CivilDate.ofDayNumber (t.timestamp / 86400), some (secondOfDay t.timestamp), t.subsecNanos⟩

namespace DateEnv

variable (env : DateEnv)

def print (format : String) (fields : FormatFields) : Except VarcharError String :=
  match env.chrono.format format.toList fields with
  | some text => .ok (.ofList text)
  | none => .error .panicked

def fromNumDaysFromCe (days : ℤ) : Option CivilDate :=
  if env.minTimestamp ≤ (days - 719163) * 86400 ∧ (days - 719163) * 86400 ≤ env.maxTimestamp then
    some (CivilDate.ofDayNumber (days - 719163))
  else none

def dateOfValue : DateValue → Except VarcharError (Option CivilDate)
  | .date32 days => .ok (env.fromNumDaysFromCe (wrapI32 (days + 719163)))
  | .date64 millis =>
    match env.fromTimestamp (millis.tdiv 1000) 0 with
    | some dt => .ok (some dt.fields.date)
    | none => .error (.execution "Invalid timestamp")

def applyDateFormat (date : CivilDate) (format : String) : Except VarcharError String :=
  env.print
    ([("yyyy", "%Y"), ("mm", "%m"), ("dd", "%d"), ("mon", "%b")].foldl
      (fun s entry => TimestampEnv.replace s entry.1 entry.2) format)
    ⟨date, none, 0⟩

def convertDateToString (value : DateValue) (format : Option String) (tryMode : Bool) :
    Except VarcharError (Option String) := do
  match ← env.dateOfValue value with
  | some date =>
    match format with
    | some format => (env.applyDateFormat date format).map some
    | none => (env.print "%Y-%m-%d" ⟨date, none, 0⟩).map some
  | none => if tryMode then .ok none else .error (.execution "Invalid date value")

def timestampOfValue : TimeUnit → ℤ → Option DateTime
  | .second, secs => env.fromTimestamp secs 0
  | .millisecond, millis =>
    env.fromTimestamp (millis.tdiv 1000) (asU32 (millis.tmod 1000 * 1000000))
  | .microsecond, micros =>
    env.fromTimestamp (micros.tdiv 1000000) (asU32 (micros.tmod 1000000 * 1000))
  | .nanosecond, nanos =>
    env.fromTimestamp (nanos.tdiv 1000000000) (asU32 (nanos.tmod 1000000000))

def applyTimestampFormat (timestamp : DateTime) (format : String) : Except VarcharError String :=
  env.print
    ([("yyyy", "%Y"), ("mm", "%m"), ("dd", "%d"), ("hh24", "%H"), ("mi", "%M"), ("mon", "%b")].foldl
      (fun s entry => TimestampEnv.replace s entry.1 entry.2) format)
    timestamp.fields

def convertTimestampToString (unit : TimeUnit) (value : ℤ) (format : Option String)
    (tryMode : Bool) : Except VarcharError (Option String) :=
  match env.timestampOfValue unit value with
  | some ts =>
    match format with
    | some format => (env.applyTimestampFormat ts format).map some
    | none => (env.print "%Y-%m-%d" ts.fields).map some
  | none => if tryMode then .ok none else .error (.execution "Invalid timestamp value")

variable {env} {unit u : TimeUnit} {v : ℤ}

lemma toList_foldl_replace (es : List (String × String)) (s : String) :
    (es.foldl (fun s e => TimestampEnv.replace s e.1 e.2) s).toList =
      es.foldl (fun cs e => replaceText e.1.toList e.2.toList cs) s.toList := by
  induction es generalizing s with
  | nil => rfl
  | cons e es ih => rw [foldl_cons, foldl_cons, ih, TimestampEnv.replace, String.toList_ofList]

lemma timestampOfValue_eq (u : TimeUnit) (v : ℤ) : env.timestampOfValue u v =
    env.fromTimestamp (v.tdiv (10 ^ u.scale)) (asU32 (v.tmod (10 ^ u.scale) * u.nanos)) := by
  cases u with
  | second =>
    have ho : (10 : ℤ) ^ TimeUnit.second.scale = 1 := rfl
    rw [ho, Int.tdiv_one, tmod_one, zero_mul]
    rfl
  | millisecond => rfl
  | microsecond => rfl
  | nanosecond => rw [TimeUnit.nanos, mul_one]; rfl

lemma scale_mul_nanos (u : TimeUnit) : (10 : ℤ) ^ u.scale * u.nanos = 1000000000 := by
  cases u <;> rfl

lemma timestampOfValue_of_nonneg (hr : env.InRange u v) (h : 0 ≤ v ∨ (10 : ℤ) ^ u.scale ∣ v) :
    ∃ ns hnan, env.timestampOfValue u v = some ⟨v / 10 ^ u.scale, ns, hnan⟩ := by
  have hpos : (0 : ℤ) < 10 ^ u.scale := pow_pos (by decide) _
  have hnan : (0 : ℤ) < u.nanos := by cases u <;> decide
  have hdiv : v.tdiv (10 ^ u.scale) = v / 10 ^ u.scale := by
    rcases h with hn | hdvd
    · exact tdiv_eq_ediv_of_nonneg hn
    · exact tdiv_eq_ediv_of_dvd hdvd
  have hmod : v.tmod (10 ^ u.scale) = v % 10 ^ u.scale := by
    rcases h with hn | hdvd
    · exact tmod_eq_emod_of_nonneg hn
    · rw [tmod_eq_zero_of_dvd hdvd, emod_eq_zero_of_dvd hdvd]
  have hlt : v % 10 ^ u.scale * u.nanos < 1000000000 := by
    rw [← scale_mul_nanos u]
    exact Int.mul_lt_mul_of_pos_right (emod_lt_of_pos v hpos) hnan
  have hn : 0 ≤ v % 10 ^ u.scale * u.nanos :=
    Int.mul_nonneg (emod_nonneg v hpos.ne') hnan.le
  have hu3 : asU32 (v % 10 ^ u.scale * u.nanos) < 1000000000 := by
    rw [asU32]
    omega
  refine ⟨_, hu3, ?_⟩
  rw [timestampOfValue_eq, hdiv, hmod]
  exact TimeEnv.fromTimestamp_eq hu3 hr

lemma timestampOfValue_of_neg (hneg : v < 0)
    (hdvd : ¬ (10 : ℤ) ^ u.scale ∣ v) : env.timestampOfValue u v = none := by
  have hpos : (0 : ℤ) < 10 ^ u.scale := pow_pos (by decide) _
  have hn : (0 : ℤ) < u.nanos := by cases u <;> decide
  have hr : v.tmod (10 ^ u.scale) < 0 := by
    have hle := tmod_nonneg (10 ^ u.scale) (Int.neg_nonneg_of_nonpos hneg.le)
    rw [neg_tmod] at hle
    have hne : v.tmod (10 ^ u.scale) ≠ 0 := fun h => hdvd (dvd_of_tmod_eq_zero h)
    omega
  have hgt : -1000000000 < v.tmod (10 ^ u.scale) * u.nanos := by
    have hl := Int.mul_lt_mul_of_pos_right (lt_tmod_of_pos v hpos) hn
    rwa [neg_mul, scale_mul_nanos] at hl
  have hlt : v.tmod (10 ^ u.scale) * u.nanos < 0 := Int.mul_neg_of_neg_of_pos hr hn
  have hu3 : ¬ asU32 (v.tmod (10 ^ u.scale) * u.nanos) < 1000000000 := by
    rw [asU32]
    omega
  rw [timestampOfValue_eq, TimeEnv.fromTimestamp, dif_neg hu3]

def floorDate (unit : TimeUnit) (value : ℤ) : CivilDate :=
  CivilDate.ofDayNumber (value * unit.nanos / nanosInDay)

def floorSecond (unit : TimeUnit) (value : ℤ) : Fin 86400 :=
  ⟨(value * unit.nanos % nanosInDay / 1000000000).toNat, by
    have hpos : (0 : ℤ) < nanosInDay := by decide
    have hlt := emod_lt_of_pos (value * unit.nanos) hpos
    rw [nanosInDay] at hlt ⊢
    omega⟩

lemma fields_of_timestamp {ns : ℕ} {hn : ns < 1000000000} :
    (DateTime.mk (v / 10 ^ u.scale) ns hn).fields =
      ⟨floorDate u v, some (floorSecond u v), ns⟩ := by
  have hd : v / 10 ^ u.scale / 86400 = v * u.nanos / nanosInDay := by
    rw [nanosInDay]
    cases u <;> simp only [TimeUnit.scale, TimeUnit.nanos] <;> omega
  have hs : v / 10 ^ u.scale % 86400 = v * u.nanos % nanosInDay / 1000000000 := by
    rw [nanosInDay]
    cases u <;> simp only [TimeUnit.scale, TimeUnit.nanos] <;> omega
  simp only [DateTime.fields, floorDate, floorSecond, secondOfDay, hd, hs]

lemma applyTimestampFormat_eq (ts : DateTime) (ps : List FormatPiece) :
    env.applyTimestampFormat ts (.ofList (formatText ps)) =
      match env.chrono.format (ps.flatMap (render timestampText))
        ts.fields with
      | some t => .ok (.ofList t)
      | none => .error .panicked := by
  rw [applyTimestampFormat, print, toList_foldl_replace, String.toList_ofList,
    ← replace_timestamp]
  rfl

/-! ### Main result -/

/-- **Timestamps are printed right** exactly from the epoch on or in whole seconds, without `ss` or
a percent sign. -/
theorem convertTimestampToString_iff {unit : TimeUnit} {value : ℤ} {ps : List FormatPiece}
    {tryMode : Bool} (hrange : env.InRange unit value) :
    env.convertTimestampToString unit value (some (.ofList (formatText ps))) tryMode =
        .ok (some (.ofList (ps.flatMap (render
          (fieldText (floorDate unit value) (floorSecond unit value)))))) ↔
      (0 ≤ value ∨ (10 : ℤ) ^ unit.scale ∣ value) ∧ ∀ p ∈ ps, p.Printable := by
  by_cases hv : 0 ≤ value ∨ (10 : ℤ) ^ unit.scale ∣ value
  · obtain ⟨nanos, hn, ht⟩ := timestampOfValue_of_nonneg hrange hv
    rw [and_iff_right hv, ← @format_render_iff ps env.chrono
      (floorDate unit value) (floorSecond unit value) nanos, convertTimestampToString, ht]
    simp only [applyTimestampFormat_eq, fields_of_timestamp]
    cases env.chrono.format (ps.flatMap (render timestampText))
      ⟨floorDate unit value, some (floorSecond unit value), nanos⟩ with
    | none => simp [Except.map]
    | some text => simp [Except.map, String.ofList_inj]
  · have hneg : value < 0 := not_le.mp fun h => hv (.inl h)
    rw [convertTimestampToString, timestampOfValue_of_neg hneg fun h => hv (.inr h)]
    refine iff_of_false (fun h => ?_) fun h => hv h.1
    dsimp only at h
    split_ifs at h
    cases h

def minuteFormat : List FormatPiece :=
  [.token .yyyy, .separator '-' rfl, .token .mm, .separator '-' rfl, .token .dd,
    .separator ' ' rfl, .token .hh24, .separator ':' rfl, .token .mi]

theorem convertTimestampToString_minute :
    sampleDateEnv.convertTimestampToString .millisecond 1627846261233
      (some "yyyy-mm-dd hh24:mi") false = .ok (some "2021-08-01 19:31") := by
  have hp := (@convertTimestampToString_iff sampleDateEnv .millisecond 1627846261233
    minuteFormat false ⟨by decide, by decide⟩).mpr
    ⟨.inl (by decide), by simp [minuteFormat, FormatPiece.Printable]⟩
  exact hp.trans (by decide +kernel)

theorem convertTimestampToString_fails :
    sampleDateEnv.convertTimestampToString .millisecond (-1500) (some "yyyy-mm-dd") false =
      .error (.execution "Invalid timestamp value") ∧
    sampleDateEnv.convertTimestampToString .millisecond (-1500) (some "yyyy-mm-dd") true =
        .ok none ∧
    sampleDateEnv.convertTimestampToString .second 1627846261 (some "hh24:mi:ss") false =
      .ok (some "19:31:ss") ∧
    sampleDateEnv.convertTimestampToString .second 1627846261 (some "yyyy%mm") false =
      .ok (some "2021%m") := by
  decide +kernel

end DateEnv

end Rustice
