import Rustice.ToTimestamp

/-!
# Casts to timestamps

`TimestampVisitor` replaces the casts of a statement to a timestamp type by calls of functions, from
the leaves to the root.
-/

namespace Rustice

inductive CastKind where
  | cast
  | tryCast
  | safeCast
  | doubleColon
  deriving DecidableEq

inductive TimezoneInfo where
  | none
  | withTimeZone
  | withoutTimeZone
  | tz
  deriving DecidableEq

inductive CastType where
  | timestamp (info : TimezoneInfo)
  | timestampNtz
  | custom (name : String) (rest : List String)
  | other (name : String)
  deriving DecidableEq

inductive CastExpr where
  | value (s : String)
  | cast (kind : CastKind) (expr : CastExpr) (dataType : CastType)
  | function (name : String) (arg : CastExpr)

namespace CastExpr

def postVisitExpr : CastExpr → CastExpr
  | .cast kind expr dataType =>
    match dataType with
    | .timestamp .none => .function "to_timestamp" expr
    | .timestampNtz => .function "to_timestamp_ntz" expr
    | .custom name rest =>
      match toAsciiLowercase name with
      | "timestamp_tz" => .function "to_timestamp_tz" expr
      | "timestamp_ntz" => .function "to_timestamp_ntz" expr
      | "timestamp_ltz" => .function "to_timestamp_ltz" expr
      | _ => .cast kind expr (.custom name rest)
    | dataType => .cast kind expr dataType
  | other => other

def visit : CastExpr → CastExpr
  | .value s => postVisitExpr (.value s)
  | .cast kind expr dataType => postVisitExpr (.cast kind expr.visit dataType)
  | .function name arg => postVisitExpr (.function name arg.visit)

def timestampFunctions : List (Bool × String) :=
  [(false, "to_timestamp"), (true, "try_to_timestamp"), (false, "to_timestamp_ntz"),
    (true, "try_to_timestamp_ntz"), (false, "to_timestamp_tz"), (true, "try_to_timestamp_tz"),
    (false, "to_timestamp_ltz"), (true, "try_to_timestamp_ltz")]

def evaluate (env : TimestampEnv) (getProperty : String → Option String) :
    CastExpr → Option (Except TimestampError (TimeUnit × List (Option ℤ)))
  | .function name (.value s) =>
    (timestampFunctions.find? (·.2 = name)).map fun entry =>
      (ToTimestampFunc.mk entry.2 entry.1 getProperty).invokeStrings env [⟨s, true⟩]
  | _ => none

end CastExpr

inductive TimestampTarget where
  | timestamp
  | timestampNtz
  | timestampLtz
  | timestampTz

namespace TimestampTarget

open ToTimestampFunc

def dataType : TimestampTarget → CastType
  | .timestamp => .timestamp .none
  | .timestampNtz => .timestampNtz
  | .timestampLtz => .custom "TIMESTAMP_LTZ" []
  | .timestampTz => .custom "TIMESTAMP_TZ" []

def function (getProperty : String → Option String) : TimestampTarget → ToTimestampFunc
  | .timestamp => ⟨"to_timestamp", false, getProperty⟩
  | .timestampNtz => ⟨"to_timestamp_ntz", false, getProperty⟩
  | .timestampLtz => ⟨"to_timestamp_ltz", false, getProperty⟩
  | .timestampTz => ⟨"to_timestamp_tz", false, getProperty⟩

variable (env : TimestampEnv) (getProperty : String → Option String) (target : TimestampTarget)

def runCast (kind : CastKind) (s : String) :
    Option (Except TimestampError (TimeUnit × List (Option ℤ))) :=
  CastExpr.evaluate env getProperty (.visit (.cast kind (.value s) target.dataType))

/-- Digits are an `i64`, and a parser reads another text. -/
def IsTimestamp (func : ToTimestampFunc) (s : String) : Prop :=
  if containsOnlyDigits s then ∃ i, parseI64 s.toList = some i
  else ∃ r, func.readText env (env.removeTimezone s) = some r

/-- Null for a text that is no timestamp. -/
def NeverRaises (s : String) : Prop :=
  (∃ unit value, runCast env getProperty target .tryCast s = some (.ok (unit, [value]))) ∧
    (¬IsTimestamp env (target.function getProperty) s →
      (∃ unit, runCast env getProperty target .tryCast s = some (.ok (unit, [none]))) ∧
        ∃ e, runCast env getProperty target .cast s = some (.error e))

/-- A local time has one time in UTC, for which nanoseconds have room. -/
def HasUtc (func : ToTimestampFunc) (unit : TimeUnit) (n : ℤ) : Prop :=
  ∀ tz ∈ func.timezone, ∃ zone dt utc, env.localZone tz = some zone ∧
    env.localTime n unit = some dt ∧ zone dt = some utc ∧ TimeEnv.IsI64 utc.nanos

/-- A text that is not of digits is read as a number of its unit, which has a time in UTC. -/
def HasTime (func : ToTimestampFunc) (s : String) : Prop :=
  if containsOnlyDigits s then ∃ i, parseI64 s.toList = some i
  else ¬Panics env s ∧ ∃ unit r n,
    (func.NeedsMicros env s ∧ unit = .microsecond ∨
      ¬func.NeedsMicros env s ∧ unit = .nanosecond) ∧
    func.readText env (env.removeTimezone s) = some r ∧ r.number unit = some n ∧
    HasUtc env func unit n

variable {env getProperty target} {s : String} {f : ToTimestampFunc}

lemma runCast_eq (k : CastKind) : runCast env getProperty target k s =
    some ((target.function getProperty).invokeStrings env [⟨s, true⟩]) := by
  cases target <;> rfl

lemma tryMode_function : (target.function getProperty).tryMode = false := by cases target <;> rfl

lemma exists_zoned_iff {unit : TimeUnit} {n : ℤ} (hf : f.tryMode = false) :
    (∃ v, f.zoned env unit (some n) = .ok v) ↔ HasUtc env f unit n := by
  rw [zoned, HasUtc]
  cases f.timezone with
  | none => simp
  | some tz =>
    simp only [TimestampEnv.applyTimezone, hf, Option.mem_some_iff, forall_eq']
    cases env.localZone tz with
    | none => simp [Except.map]
    | some zone =>
      cases env.localTime n unit with
      | none => simp [Except.map]
      | some dt =>
        cases hu : zone dt with
        | none => simp [Except.map, hu]
        | some utc =>
          by_cases hi : TimeEnv.IsI64 utc.nanos <;>
            simp [Except.map, hu, hi, DateTime.timestampNanosOpt]

/-- The plain conversion of a timestamp returns a value exactly if the text has a time. -/
lemma exists_invokeStrings_iff (hf : f.tryMode = false) (ht : IsTimestamp env f s) :
    (∃ unit v, f.invokeStrings env [⟨s, true⟩] = .ok (unit, [v])) ↔ HasTime env f s := by
  rw [IsTimestamp] at ht
  rw [HasTime]
  split_ifs at ht ⊢ with hs
  · obtain ⟨i, hi⟩ := ht
    exact iff_of_true ⟨_, _, by rw [invokeStrings_digits hs, hi]⟩ ⟨i, hi⟩
  · obtain ⟨r, hr⟩ := ht
    have hc : ∀ unit, f.convertRow env unit ⟨s, true⟩ = (r.number unit).elim
        (.error .cantGetTimestamp) fun n => f.zoned env unit (some n) := by
      intro unit
      rw [convertRow, if_pos rfl, convertText_of_not_digits hs, parseText_of_readText_some hr, hf]
      cases r.number unit <;> rfl
    simp only [invokeStrings_singleton_iff, unitForStringInput_eq_ok_iff, hc, hr,
      Option.some.injEq, exists_and_left, exists_eq_left', ← exists_zoned_iff hf, and_assoc]
    refine and_congr_right fun _ => exists_congr fun unit => and_congr_right fun _ => ?_
    cases r.number unit <;> simp

/-! ### Main result -/

/-- **`TRY_CAST` to a timestamp never raises** exactly for the texts that have a time: digits that
are an `i64`, or a text that is read as a number with one time in UTC. -/
theorem neverRaises_iff : NeverRaises env getProperty target s ↔
    HasTime env (target.function getProperty) s := by
  simp only [NeverRaises, runCast_eq, Option.some.injEq]
  have hf : (target.function getProperty).tryMode = false := tryMode_function
  constructor
  · rintro ⟨⟨unit, value, hv⟩, hi⟩
    refine (exists_invokeStrings_iff hf ?_).mp ⟨unit, value, hv⟩
    by_contra hn
    obtain ⟨-, e, he⟩ := hi hn
    rw [hv] at he
    cases he
  · intro ht
    have hi : IsTimestamp env (target.function getProperty) s := by
      rw [HasTime] at ht
      rw [IsTimestamp]
      split_ifs at ht ⊢
      · exact ht
      · obtain ⟨-, unit, r, n, -, hr, -⟩ := ht
        exact ⟨r, hr⟩
    exact ⟨(exists_invokeStrings_iff hf hi).mpr ht, absurd hi⟩

theorem not_neverRaises :
    runCast sampleTimestampEnv (fun _ => none) .timestamp .tryCast "abc" =
        some (.error .cantGetTimestamp) ∧
      ¬NeverRaises sampleTimestampEnv (fun _ => none) .timestamp "abc" := by
  have hc : runCast sampleTimestampEnv (fun _ => none) .timestamp .tryCast "abc" =
      some (.error .cantGetTimestamp) := by decide +kernel
  refine ⟨hc, ?_⟩
  rintro ⟨⟨unit, value, hv⟩, -⟩
  rw [hc] at hv
  cases hv

end TimestampTarget

end Rustice
