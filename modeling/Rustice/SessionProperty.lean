import Rustice.Timestamp

/-!
# Session Properties

A session variable is kept as a text with a type: `boolean`, `fixed` for numbers, or `text`.
-/

namespace Rustice

open TimeEnv (IsI64)

inductive IntKind where
  | int8
  | int16
  | int32
  | int64
  | uint8
  | uint16
  | uint32
  | uint64

def IntKind.Fits : IntKind → ℤ → Prop
  | int8, n => -2 ^ 7 ≤ n ∧ n < 2 ^ 7
  | int16, n => -2 ^ 15 ≤ n ∧ n < 2 ^ 15
  | int32, n => -2 ^ 31 ≤ n ∧ n < 2 ^ 31
  | int64, n => IsI64 n
  | uint8, n => 0 ≤ n ∧ n < 2 ^ 8
  | uint16, n => 0 ≤ n ∧ n < 2 ^ 16
  | uint32, n => 0 ≤ n ∧ n < 2 ^ 32
  | uint64, n => 0 ≤ n ∧ n < 2 ^ 64

inductive Utf8Kind where
  | utf8
  | largeUtf8
  | utf8View

inductive SetScalar (F V : Type) where
  | null
  | boolean (value : Option Bool)
  | int (kind : IntKind) (value : Option { n : ℤ // kind.Fits n })
  | decimal (value : Option ℤ) (precision : ℕ) (scale : ℤ)
  | float64 (value : Option F)
  | utf8 (kind : Utf8Kind) (value : Option String)
  | other (value : V)

structure Numeral where
  text : String
  isSome : (readNumeral text.toList).isSome

def Numeral.value (n : Numeral) : ℚ := (readNumeral n.text.toList).get n.isSome

inductive SqlLiteral where
  | number (n : Numeral) (long : Bool)
  | boolean (value : Bool)
  | string (value : String)
  | bytes (text : String)
  | null
  | placeholder (text : String)

inductive SqlValue where
  | boolean (value : Bool)
  | number (value : ℚ)
  | text (value : String)
  | null

structure SetEnv (F V : Type) where
  floatValue : F → Option ℚ
  displayF64 : F → String
  parseF64 : String → Option F
  displayOther : V → String
  parseF64_suffix : ∀ text, parseF64 (text ++ "L") = none

inductive PropertyType where
  | boolean
  | fixed
  | text
  deriving DecidableEq

structure SessionProperty where
  sessionId : Option String
  createdOn : ℤ
  updatedOn : ℤ
  value : String
  propertyType : PropertyType
  comment : Option String
  name : String

def debugOption : Option ℤ → String
  | none => "None"
  | some n => "Some(" ++ toString n ++ ")"

namespace SqlLiteral

def numberText (n : Numeral) (long : Bool) : String := n.text ++ if long then "L" else ""

def intoString : SqlLiteral → Option String
  | string value => some value
  | bytes text => some text
  | _ => none

def denote : SqlLiteral → Option SqlValue
  | number n _ => some (.number n.value)
  | boolean value => some (.boolean value)
  | string value => some (.text value)
  | bytes _ => none
  | null => some .null
  | placeholder _ => none

end SqlLiteral

def SessionProperty.fromValue (now : ℤ) (name : String) (option : SqlLiteral)
    (sessionId : String) : SessionProperty where
  sessionId := some sessionId
  createdOn := now
  updatedOn := now
  value :=
    match option with
    | .number n long => SqlLiteral.numberText n long
    | .boolean value => toString value
    | option => option.intoString.getD ""
  propertyType :=
    match option with
    | .number _ _ => .fixed
    | .boolean _ => .boolean
    | _ => .text
  comment := none
  name := name

namespace SetEnv

variable {F V : Type} (env : SetEnv F V)

def display : SetScalar F V → String
  | .null => "NULL"
  | .boolean value => (value.map toString).getD "NULL"
  | .int _ value => (value.map fun n => toString n.val).getD "NULL"
  | .decimal value precision scale =>
    debugOption value ++ "," ++ toString precision ++ "," ++ toString scale
  | .float64 value => (value.map env.displayF64).getD "NULL"
  | .utf8 _ value => value.getD "NULL"
  | .other value => env.displayOther value

def typeAndValue : SetScalar F V → PropertyType × String
  | .boolean (some b) => (.boolean, toString b)
  | .int .int64 (some i) => (.fixed, toString i.val)
  | .float64 (some f) => (.fixed, env.displayF64 f)
  | value => (.text, env.display value)

def fromScalarValue (now : ℤ) (name : String) (value : SetScalar F V) (sessionId : String) :
    SessionProperty where
  sessionId := some sessionId
  createdOn := now
  updatedOn := now
  value := (env.typeAndValue value).2
  propertyType := (env.typeAndValue value).1
  comment := none
  name := name

def parseInt64 (text : String) : Option { n : ℤ // IntKind.int64.Fits n } :=
  (parseI64 text.toList).attachWith _ fun _ h => (parseI64_cases h).1

def toScalarValue (property : SessionProperty) : Option (SetScalar F V) :=
  match property.propertyType with
  | .boolean => (parseBool property.value).map fun b => .boolean (some b)
  | .fixed =>
    match parseInt64 property.value with
    | some i => some (.int .int64 (some i))
    | none => (env.parseF64 property.value).map fun f => .float64 (some f)
  | .text => some (.utf8 .utf8 (some property.value))

def denote : SetScalar F V → Option SqlValue
  | .null => some .null
  | .boolean value => some ((value.map SqlValue.boolean).getD .null)
  | .int _ value => some ((value.map fun n => SqlValue.number n.val).getD .null)
  | .decimal value _ scale =>
    some ((value.map fun v => SqlValue.number (v / 10 ^ scale)).getD .null)
  | .float64 none => some .null
  | .float64 (some f) => (env.floatValue f).map SqlValue.number
  | .utf8 _ value => some ((value.map SqlValue.text).getD .null)
  | .other _ => none

end SetEnv

inductive SetInput (F V : Type) where
  | scalar (value : SetScalar F V)
  | literal (value : SqlLiteral)

namespace SetEnv

variable {F V : Type} (env : SetEnv F V)

def inputValue : SetInput F V → Option SqlValue
  | .scalar value => env.denote value
  | .literal value => value.denote

def property (now : ℤ) (name sessionId : String) : SetInput F V → SessionProperty
  | .scalar value => env.fromScalarValue now name value sessionId
  | .literal value => .fromValue now name value sessionId

def readValue (property : SessionProperty) : Option SqlValue :=
  (env.toScalarValue property).bind env.denote

def ReadsBack (now : ℤ) (name sessionId : String) (input : SetInput F V) : Prop :=
  ∃ value, env.inputValue input = some value ∧
    env.readValue (env.property now name sessionId input) = some value

def fixedValue (text : String) : Option ℚ :=
  match parseI64 text.toList with
  | some i => some i
  | none => (env.parseF64 text).bind env.floatValue

def Kept : SetInput F V → Prop
  | .scalar (.boolean (some _)) => True
  | .scalar (.int .int64 (some _)) => True
  | .scalar (.utf8 _ (some _)) => True
  | .scalar (.float64 (some f)) =>
    ∃ q, env.floatValue f = some q ∧ env.fixedValue (env.displayF64 f) = some q
  | .scalar _ => False
  | .literal (.number n long) =>
    long = false ∧ ((parseI64 n.text.toList).isSome ∨
      (env.parseF64 n.text).bind env.floatValue = some n.value)
  | .literal (.boolean _) => True
  | .literal (.string _) => True
  | .literal _ => False

variable {env} {property p : SessionProperty} {b : Bool}

lemma readValue_of_fixed (h : p.propertyType = .fixed) :
    env.readValue p = (env.fixedValue p.value).map SqlValue.number := by
  have hp : (parseInt64 p.value).map Subtype.val = parseI64 p.value.toList :=
    Option.attachWith_map_subtype_val ..
  rw [readValue, toScalarValue, h, fixedValue, ← hp]
  cases parseInt64 p.value with
  | none =>
    cases env.parseF64 p.value with
    | none => rfl
    | some f => rfl
  | some i => rfl

lemma readValue_of_text (h : p.propertyType = .text) : env.readValue p = some (.text p.value) := by
  rw [readValue, toScalarValue, h]
  rfl

lemma readValue_of_boolean (h : p.propertyType = .boolean) (hv : p.value = toString b) :
    env.readValue p = some (.boolean b) := by
  rw [readValue, toScalarValue, h, hv]
  cases b with
  | false => rfl
  | true => rfl

section

variable {now : ℤ} {name nm sessionId si : String} {input i : SetInput F V} {t : String}

lemma readsBack_of_text (h : (env.property now nm si i).propertyType = .text) :
    env.ReadsBack now nm si i ↔
      env.inputValue i = some (.text (env.property now nm si i).value) := by
  rw [ReadsBack, readValue_of_text h]
  constructor
  · rintro ⟨value, hv, hr⟩
    rw [hv, hr]
  · intro hv
    exact ⟨_, hv, rfl⟩

lemma readsBack_of_fixed (h : (env.property now nm si i).propertyType = .fixed) :
    env.ReadsBack now nm si i ↔ ∃ q, env.inputValue i = some (.number q) ∧
        env.fixedValue (env.property now nm si i).value = some q := by
  rw [ReadsBack, readValue_of_fixed h]
  constructor
  · rintro ⟨value, hv, hr⟩
    obtain ⟨q, hq, rfl⟩ := Option.map_eq_some_iff.mp hr
    exact ⟨q, hv, hq⟩
  · rintro ⟨q, hv, hq⟩
    exact ⟨_, hv, by rw [hq]; rfl⟩

lemma readsBack_of_boolean (h : (env.property now nm si input).propertyType = .boolean)
    (hk : (env.property now nm si input).value = toString b)
    (hv : env.inputValue input = some (.boolean b)) : env.ReadsBack now nm si input :=
  ⟨_, hv, readValue_of_boolean h hk⟩

lemma fixedValue_of_parseI64 {i : ℤ} (h : parseI64 t.toList = some i) :
    env.fixedValue t = some (i : ℚ) := by
  rw [fixedValue, h]

lemma fixedValue_of_none (h : parseI64 t.toList = none) :
    env.fixedValue t = (env.parseF64 t).bind env.floatValue := by
  rw [fixedValue, h]

lemma not_readsBack (h : (env.property now nm si input).propertyType = .text)
    (hv : ∀ t, env.inputValue input ≠ some (.text t)) : ¬env.ReadsBack now nm si input :=
  fun hr => hv _ ((readsBack_of_text h).mp hr)

lemma scalar_readsBack_iff (value : SetScalar F V) :
    env.ReadsBack now name sessionId (.scalar value) ↔ env.Kept (.scalar value) := by
  cases value with
  | null => exact iff_of_false (not_readsBack rfl (by simp [inputValue, denote])) id
  | boolean value =>
    cases value with
    | none => exact iff_of_false (not_readsBack rfl (by simp [inputValue, denote])) id
    | some b => exact iff_of_true (readsBack_of_boolean rfl rfl rfl) trivial
  | int k value =>
    cases value with
    | none =>
      have ht : (env.property now name sessionId (.scalar (.int k none))).propertyType = .text := by
        cases k <;> rfl
      exact iff_of_false (not_readsBack ht (by simp [inputValue, denote])) (by cases k <;> exact id)
    | some n =>
      cases k with
      | int64 =>
        refine iff_of_true ((readsBack_of_fixed rfl).mpr ⟨n.val, rfl, ?_⟩) trivial
        exact fixedValue_of_parseI64 (parseI64_toString n.property)
      | int8 | int16 | int32 | uint8 | uint16 | uint32 | uint64 =>
        exact iff_of_false (not_readsBack rfl (by simp [inputValue, denote])) id
  | decimal value precision scale =>
    cases value with
    | none => exact iff_of_false (not_readsBack rfl (by simp [inputValue, denote])) id
    | some v => exact iff_of_false (not_readsBack rfl (by simp [inputValue, denote])) id
  | float64 value =>
    cases value with
    | none => exact iff_of_false (not_readsBack rfl (by simp [inputValue, denote])) id
    | some f =>
      rw [readsBack_of_fixed rfl]
      simp [inputValue, denote, property, fromScalarValue, typeAndValue, Kept]
  | utf8 k value =>
    cases value with
    | none => exact iff_of_false (not_readsBack rfl (by simp [inputValue, denote])) id
    | some text => exact iff_of_true ((readsBack_of_text rfl).mpr rfl) trivial
  | other value => exact iff_of_false (not_readsBack rfl (by simp [inputValue, denote])) id

lemma number_readsBack_iff (n : Numeral) (l : Bool) :
    env.ReadsBack now nm si (.literal (.number n l)) ↔ env.Kept (.literal (.number n l)) := by
  rw [readsBack_of_fixed rfl]
  have hv : ∀ q, env.inputValue (.literal (.number n l)) = some (.number q) ↔ n.value = q := by
    simp [inputValue, SqlLiteral.denote]
  simp only [hv, exists_eq_left']
  cases l with
  | true =>
    have hp : parseI64 (n.text ++ "L").toList = none := by
      rw [String.toList_append]
      exact parseI64_append_eq_none rfl _ (by decide) (by decide)
    have ht : (env.property now nm si (.literal (.number n true))).value = n.text ++ "L" := rfl
    rw [ht, fixedValue_of_none hp, env.parseF64_suffix]
    simp [Kept]
  | false =>
    have ht : (env.property now nm si (.literal (.number n false))).value =
        n.text := String.append_empty
    rw [ht]
    cases h : parseI64 n.text.toList with
    | none =>
      rw [fixedValue_of_none h]
      simp [Kept, h]
    | some i =>
      have hn : n.value = i :=
        Option.get_of_eq_some _ (readNumeral_of_parseI64 h)
      rw [fixedValue_of_parseI64 h, hn]
      simp [Kept, h]

/-! ### Main result -/

/-- **What is SET is read** exactly for the types that `Kept` lists. -/
theorem readsBack_iff (input : SetInput F V) :
    env.ReadsBack now name sessionId input ↔ env.Kept input := by
  cases input with
  | scalar value => exact scalar_readsBack_iff value
  | literal value =>
    cases value with
    | number n long => exact number_readsBack_iff n long
    | boolean value => exact iff_of_true (readsBack_of_boolean rfl rfl rfl) trivial
    | string value => exact iff_of_true ((readsBack_of_text rfl).mpr rfl) trivial
    | bytes text =>
      exact iff_of_false (not_readsBack rfl (by simp [inputValue, SqlLiteral.denote])) id
    | null =>
      exact iff_of_false (not_readsBack rfl (by simp [inputValue, SqlLiteral.denote])) id
    | placeholder text =>
      exact iff_of_false (not_readsBack rfl (by simp [inputValue, SqlLiteral.denote])) id

end

def withoutFloats : SetEnv Empty Empty where
  floatValue := Empty.elim
  displayF64 := Empty.elim
  parseF64 := fun _ => none
  displayOther := Empty.elim
  parseF64_suffix := fun _ => rfl

example : withoutFloats.ReadsBack 0 "x" "s1" (.literal (.number ⟨"25", by decide +kernel⟩ false)) :=
  (number_readsBack_iff _ _).mpr ⟨rfl, .inl (by decide +kernel)⟩

theorem readsBack_decimal_null :
    withoutFloats.toScalarValue
        (withoutFloats.fromScalarValue 0 "x" (.decimal (some 25) 22 1) "s1") =
        some (.utf8 .utf8 (some "Some(25),22,1")) ∧
      withoutFloats.denote (.decimal (some 25) 22 1) = some (.number (5 / 2)) ∧
      withoutFloats.toScalarValue (.fromValue 0 "y" .null "s1") = some (.utf8 .utf8 (some "")) ∧
      ¬withoutFloats.ReadsBack 0 "x" "s1" (.scalar (.decimal (some 25) 22 1)) ∧
      ¬withoutFloats.ReadsBack 0 "y" "s1" (.literal .null) := by
  refine ⟨?_, ?_, rfl, ?_, ?_⟩
  · rfl
  · norm_num [denote]
  · exact not_readsBack rfl (by simp [inputValue, denote])
  · exact not_readsBack rfl (by simp [inputValue, SqlLiteral.denote])

end SetEnv

end Rustice
