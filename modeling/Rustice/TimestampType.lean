import Rustice.ToTimestamp

/-!
# The Type of `TO_TIMESTAMP`

`return_field_from_args` declares the type of a call before it runs, and `invoke_with_args`
chooses the type of its result by itself.
-/

namespace Rustice

inductive TextEncoding where
  | utf8
  | utf8View
  | largeUtf8
  deriving DecidableEq

inductive TimestampInput where
  | null
  | integer
  | floating
  | decimal128
  | decimal256
  | date
  | timestamp (unit : TimeUnit) (tz : Option String)
  | other
  deriving DecidableEq

inductive FirstArg where
  | textLiteral (encoding : TextEncoding) (text : Option String)
  | textColumn (encoding : TextEncoding) (rows : List StringRow)
  | literal (type : TimestampInput)
  | column (type : TimestampInput)
  deriving DecidableEq

inductive SecondArg where
  | scalar (int64 : Option ℤ) (utf8 : Option String)
  | column
  deriving DecidableEq

abbrev TimestampType := TimeUnit × Option String

inductive TypeError where
  | argumentTwoNeedsToBeInteger
  | argumentTwoNeedsToBeString
  | invalidDataType
  | conversion (e : TimestampError)
  deriving DecidableEq

def FirstArg.input? : FirstArg → Option TimestampInput
  | literal type | column type => some type
  | _ => none

def FirstArg.isNumeric (first : FirstArg) : Bool :=
  first.input? ∈ [some .integer, some .floating, some .decimal128, some .decimal256]

def FirstArg.firstText : FirstArg → Option String
  | textLiteral _ text => some (text.getD "")
  | textColumn _ rows => rows.head?.map StringRow.text
  | _ => none

def SecondArg.unit : SecondArg → Except TypeError TimeUnit
  | .scalar none _ => .error .argumentTwoNeedsToBeInteger
  | .scalar (some scale) _ => (unitOfScale scale).mapError .conversion
  | .column => .ok .second

structure TimestampCall where
  func : ToTimestampFunc
  env : TimestampEnv
  first : FirstArg
  rest : List SecondArg

open ToTimestampFunc

namespace TimestampCall

variable (call : TimestampCall)

def defaultType : TimestampType :=
  match call.first.input? with
  | some (.timestamp .microsecond _) => (.microsecond, call.func.timezone)
  | _ => (.nanosecond, call.func.timezone)

def textType (v : String) : Except TypeError TimestampType :=
  match call.func.unitForStringInput call.env v with
  | .ok unit => .ok (unit, call.func.timezone)
  | .error e => .error (.conversion e)

def returnField : Except TypeError TimestampType :=
  match call.rest with
  | [] =>
    if call.first.isNumeric then .ok (.second, call.func.timezone)
    else
      match call.first with
      | .textLiteral .utf8 (some v) =>
        call.textType v
      | _ => .ok call.defaultType
  | [second] =>
    if call.first.isNumeric then
      match second with
      | .scalar _ _ => second.unit.map fun unit => (unit, call.func.timezone)
      | .column => .ok call.defaultType
    else
      match call.first with
      | .literal (.timestamp unit (some tz)) => .ok (unit, some tz)
      | _ => .ok call.defaultType
  | _ => .ok call.defaultType

def resultType : Except TypeError TimestampType :=
  match call.first.input? with
  | some .null | some .date => .ok (.nanosecond, call.func.timezone)
  | some .integer | some .floating | some .decimal128 =>
    (call.rest.head?.elim (.ok .second) SecondArg.unit).map fun unit => (unit, call.func.timezone)
  | some (.timestamp .microsecond _) => .ok (.microsecond, call.func.timezone)
  | some (.timestamp .nanosecond (some _)) => .ok (.nanosecond, call.func.timezone)
  | some (.timestamp _ tz) => .ok (.nanosecond, tz.or call.func.timezone)
  | some .decimal256 | some .other => .error .invalidDataType
  | none =>
    match call.rest, call.first.firstText with
    | .column :: _, _ | .scalar _ none :: _, _ => .error .argumentTwoNeedsToBeString
    | _, none => .error (.conversion .panicked)
    | _, some v => call.textType v

def invoke (run : TimestampType → Except TypeError (List (Option ℤ))) :
    Except TypeError (TimestampType × List (Option ℤ)) := do
  let type ← call.resultType
  let values ← run type
  return (type, values)

def DeclaresType (run : TimestampType → Except TypeError (List (Option ℤ))) : Prop :=
  ∀ type values, call.invoke run = .ok (type, values) → call.returnField = .ok type

/-- The declared type has the unit of the numbers. -/
def ScaleAgrees : List SecondArg → Prop
  | [] | [.scalar _ _] => True
  | [.column] => False
  | second :: _ => second.unit = .ok .nanosecond

def ZoneAgrees (unit : TimeUnit) (tz : Option String) : Prop :=
  (call.first = .literal (.timestamp unit tz) → call.rest.length = 1 → tz ≠ none →
      tz = call.func.timezone ∧ (unit = .microsecond ∨ unit = .nanosecond)) ∧
    (unit = .microsecond ∨ unit = .nanosecond ∨ tz.or call.func.timezone = call.func.timezone)

def Agrees : Prop :=
  match call.first.input? with
  | some .integer | some .floating | some .decimal128 => ScaleAgrees call.rest
  | some (.timestamp unit tz) => call.ZoneAgrees unit tz
  | some _ => True
  | none => ∀ v, call.first.firstText = some v →
      call.func.unitForStringInput call.env v = .ok .nanosecond ∨
        call.rest = [] ∧ call.first = .textLiteral .utf8 (some v)

variable {call} {type : TimestampType}

lemma returnField_number (hn : call.first.isNumeric = true)
    (hd : call.defaultType = (.nanosecond, call.func.timezone))
    (h : (call.rest.head?.elim (.ok .second) SecondArg.unit).map
      (fun u => (u, call.func.timezone)) = .ok type) :
    call.returnField = .ok type ↔ ScaleAgrees call.rest := by
  rw [returnField]
  rcases hr : call.rest with _ | ⟨b, _ | ⟨third, rest⟩⟩
  · rw [hr] at h
    exact iff_of_true ((if_pos hn).trans h) trivial
  · rw [hr] at h
    cases b with
    | scalar int64 utf8 => exact iff_of_true ((if_pos hn).trans h) trivial
    | column =>
      cases h
      simp [hn, hd, ScaleAgrees]
  · rw [hr] at h
    simp only [List.head?_cons, Option.elim_some] at h
    cases hu : b.unit with
    | error e =>
      rw [hu] at h
      cases h
    | ok u =>
      rw [hu] at h
      cases h
      simp [hd, ScaleAgrees, hu, eq_comm]

lemma returnField_eq_default (hn : call.first.isNumeric = false)
    (ht : ∀ v, call.rest = [] → call.first ≠ .textLiteral .utf8 (some v))
    (hz : ∀ u tz, call.rest.length = 1 → call.first ≠ .literal (.timestamp u (some tz))) :
    call.returnField = .ok call.defaultType := by
  simp only [returnField, hn, Bool.false_eq_true, if_false]
  split
  · rename_i hr
    split
    · rename_i v hf
      exact absurd hf (ht v hr)
    · rfl
  · rename_i second hr
    split
    · rename_i u tz hf
      exact absurd hf (hz u tz (by rw [hr]; rfl))
    · rfl
  · rfl

lemma returnField_timestamp {u : TimeUnit} {tz : Option String}
    (hi : call.first.input? = some (.timestamp u tz)) (h : call.resultType = .ok type) :
    call.returnField = .ok type ↔ call.ZoneAgrees u tz := by
  have hd : call.defaultType = (if u = .microsecond then .microsecond else .nanosecond,
      call.func.timezone) := by
    rw [defaultType, hi]
    cases u <;> rfl
  have hn : call.first.isNumeric = false := by simp [FirstArg.isNumeric, hi]
  have ht : type = if u = .microsecond then (.microsecond, call.func.timezone)
      else if u = .nanosecond then (.nanosecond, call.func.timezone)
      else (.nanosecond, tz.or call.func.timezone) := by
    rw [resultType, hi] at h
    cases u <;> cases tz <;> cases h <;> rfl
  have hk : call.returnField = if call.first = .literal (.timestamp u tz) ∧
      call.rest.length = 1 ∧ tz ≠ none then .ok (u, tz) else .ok call.defaultType := by
    split_ifs with hl
    · obtain ⟨hf, hlen, hs⟩ := hl
      obtain ⟨second, hr⟩ := List.length_eq_one_iff.mp hlen
      obtain ⟨z, rfl⟩ := Option.ne_none_iff_exists'.mp hs
      rw [returnField, hr, hf]
      rfl
    · refine returnField_eq_default hn (fun v _ hf => ?_) fun u' z hlen hf => ?_
      · rw [hf] at hi
        cases hi
      · rw [hf] at hi
        cases hi
        exact hl ⟨hf, hlen, Option.some_ne_none z⟩
  rw [hk, hd, ht, ZoneAgrees]
  generalize call.func.timezone = z
  cases u <;> simp only [reduceCtorEq, if_true, if_false] <;> split_ifs with hl <;> grind

lemma returnField_text (hi : call.first.input? = none) (h : call.resultType = .ok type) :
    call.returnField = .ok type ↔ call.Agrees := by
  have hn : call.first.isNumeric = false := by simp [FirstArg.isNumeric, hi]
  have hd : call.defaultType = (.nanosecond, call.func.timezone) := by rw [defaultType, hi]
  obtain ⟨v, ht, htext⟩ : ∃ v, call.first.firstText = some v ∧ call.textType v = .ok type := by
    simp only [resultType, hi] at h
    split at h
    · cases h
    · cases h
    · cases h
    · rename_i v hv _ _
      exact ⟨v, hv, h⟩
  obtain ⟨unit, hu, rfl⟩ : ∃ unit, call.func.unitForStringInput call.env v = .ok unit ∧
      (unit, call.func.timezone) = type := by
    rw [textType] at htext
    split at htext
    · exact ⟨_, ‹_›, Except.ok.inj htext⟩
    · cases htext
  simp only [Agrees, hi, ht, Option.some.injEq, forall_eq']
  by_cases hl : call.rest = [] ∧ call.first = .textLiteral .utf8 (some v)
  · refine iff_of_true ?_ (.inr hl)
    rw [returnField, hl.1, hl.2]
    exact htext
  · rw [or_iff_left hl, returnField_eq_default hn, hd, hu]
    · simp [eq_comm]
    · intro v' hr hf
      rw [hf] at ht
      cases ht
      exact hl ⟨hr, hf⟩
    · intro unit tz _ hf
      rw [hf] at hi
      cases hi

/-! ### Main result -/

/-- **The declared type** is that of the results exactly when both agree on the arguments. -/
theorem declaresType_iff {run : TimestampType → Except TypeError (List (Option ℤ))} :
    call.DeclaresType run ↔ (∃ e, call.invoke run = .error e) ∨ call.Agrees := by
  cases hc : call.invoke run with
  | error e => exact iff_of_true (fun type values h => by rw [hc] at h; cases h) (.inl ⟨e, rfl⟩)
  | ok result =>
    obtain ⟨type, values⟩ := result
    obtain ⟨type', ht, h⟩ := bind_eq_ok.mp hc
    obtain ⟨values', -, h⟩ := bind_eq_ok.mp h
    cases h
    have hd : call.DeclaresType run ↔ call.returnField = .ok type := by
      rw [DeclaresType, hc]
      exact ⟨fun h => h _ _ rfl, fun h _ _ heq => by cases heq; exact h⟩
    rw [hd, or_iff_right (by rintro ⟨e, ⟨⟩⟩)]
    cases hi : call.first.input? with
    | none => exact returnField_text hi ht
    | some input =>
      cases input with
      | integer | floating | decimal128 =>
        rw [Agrees, hi]
        refine returnField_number (by simp [FirstArg.isNumeric, hi]) (by rw [defaultType, hi]) ?_
        rwa [resultType, hi] at ht
      | timestamp unit tz =>
        rw [Agrees, hi]
        exact returnField_timestamp hi ht
      | decimal256 | other => rw [resultType, hi] at ht; cases ht
      | null | date =>
        rw [resultType, hi] at ht
        cases ht
        rw [Agrees, hi]
        refine iff_of_true ?_ trivial
        rw [returnField_eq_default (by simp [FirstArg.isNumeric, hi]), defaultType, hi]
        all_goals
          intros
          rintro hf
          rw [hf] at hi
          cases hi

theorem not_declaresType :
    (TimestampCall.mk plainTimestamp sampleTimestampEnv
        (.textColumn .utf8 [⟨"9999-12-31", true⟩]) []).resultType = .ok (.microsecond, none) ∧
      (TimestampCall.mk plainTimestamp sampleTimestampEnv
        (.textColumn .utf8 [⟨"9999-12-31", true⟩]) []).returnField = .ok (.nanosecond, none) ∧
      ¬(TimestampCall.mk plainTimestamp sampleTimestampEnv
        (.textColumn .utf8 [⟨"9999-12-31", true⟩]) []).DeclaresType
          fun _ => .ok [some 253402214400000000] := by
  refine ⟨by decide +kernel, by decide +kernel, fun h => ?_⟩
  have ht := h (.microsecond, none) [some 253402214400000000] (by decide +kernel)
  exact absurd ht (by decide +kernel)

end TimestampCall

end Rustice
