import Rustice.Columnar
import Rustice.Kleene

/-!
# Boolean Functions of Two Columns

`BOOLAND`, `BOOLOR` and `BOOLXOR` zip the rows of their arguments, and `EQUAL_NULL` compares their
lengths first; a scalar is an array of one row.
-/

namespace Rustice

open List

variable {V : Type} {n : ℕ}

def isTrue' (v : Option Bool) : Bool := v.getD false

def boolAndRow (lhs rhs : Option Bool) : Option Bool :=
  if lhs.isNone ∧ rhs.isNone then none
  else if (lhs.isNone ∨ rhs.isNone) ∧ (isTrue' lhs ∨ isTrue' rhs) then none
  else some (isTrue' lhs && isTrue' rhs)

def boolOrRow (lhs rhs : Option Bool) : Option Bool :=
  if lhs.isNone ∧ rhs.isNone then none
  else if (lhs.isNone ∨ rhs.isNone) ∧ (!isTrue' lhs ∧ !isTrue' rhs) then none
  else some (isTrue' lhs || isTrue' rhs)

def boolXorRow (lhs rhs : Option Bool) : Option Bool :=
  if lhs.isNone ∧ rhs.isNone then none
  else if lhs.isNone ∨ rhs.isNone then none
  else if (isTrue' lhs ∧ !isTrue' rhs) ∨ (!isTrue' lhs ∧ isTrue' rhs) then some true
  else if (isTrue' lhs ∧ isTrue' rhs) ∨ (!isTrue' lhs ∧ !isTrue' rhs) then some false
  else none

inductive EqualNullError where
  | mustBeOfTheSameLength

/-- Two arguments of one type, with the comparison of its values with zero and with each other. -/
structure BoolArgs (V : Type) (n : ℕ) where
  nonZero : V → Bool
  equal : V → V → Bool
  lhs : Columnar (Option V)
  rhs : Columnar (Option V)
  lhs_rows : lhs.HasRows n
  rhs_rows : rhs.HasRows n

namespace BoolArgs

variable (args : BoolArgs V n)

def arrayToBoolean (arr : List (Option V)) : List (Option Bool) := arr.map (·.map args.nonZero)

def invoke (row : Option Bool → Option Bool → Option Bool) : List (Option Bool) :=
  ((args.arrayToBoolean args.lhs.toArray).zip (args.arrayToBoolean args.rhs.toArray)).map
    fun p => row p.1 p.2

def compare : Option V → Option V → Option Bool
  | some a, some b => some (args.equal a b)
  | _, _ => none

def equalNullRow (lhs rhs : Option V) : Option Bool :=
  match args.compare lhs rhs with
  | some v => some v
  | none => if lhs.isNone ∧ rhs.isNone then some true else none

def equalNull : Except EqualNullError (List (Option Bool)) :=
  if args.lhs.toArray.length ≠ args.rhs.toArray.length then .error .mustBeOfTheSameLength
  else .ok ((args.lhs.toArray.zip args.rhs.toArray).map fun p => args.equalNullRow p.1 p.2)

/-- Equality that takes NULL for a value. -/
def nullSafeEqual : Option V → Option V → Bool
  | some a, some b => args.equal a b
  | none, none => true
  | _, _ => false

def rows : List (Option V × Option V) := (args.lhs.intoArray n).zip (args.rhs.intoArray n)

/-- Every row of the batch has the value of `f` at its truth values. -/
def IsRowwise (row f : Option Bool → Option Bool → Option Bool) : Prop :=
  args.invoke row = args.rows.map fun p => f (p.1.map args.nonZero) (p.2.map args.nonZero)

def Broadcasts : Prop :=
  args.IsRowwise boolAndRow Truth.and ∧ args.IsRowwise boolOrRow Truth.or ∧
    args.IsRowwise boolXorRow (fun a b => a.bind fun a => b.map (xor a)) ∧
    args.equalNull = .ok (args.rows.map fun p => some (args.nullSafeEqual p.1 p.2))

end BoolArgs

lemma boolAndRow_eq : boolAndRow = Truth.and := by
  funext a b
  rcases a with _ | (_ | _) <;> rcases b with _ | (_ | _) <;> rfl

lemma boolOrRow_eq : boolOrRow = Truth.or := by
  funext a b
  rcases a with _ | (_ | _) <;> rcases b with _ | (_ | _) <;> rfl

lemma boolXorRow_eq : boolXorRow = fun a b => a.bind fun a => b.map (xor a) := by
  funext a b
  rcases a with _ | (_ | _) <;> rcases b with _ | (_ | _) <;> rfl

lemma Columnar.toArray_eq_intoArray {α : Type} {a : Columnar α} (h : a.toArray.length = n) :
    a.toArray = a.intoArray n := by
  cases a with
  | scalar value =>
    subst h
    rfl
  | array values => rfl

namespace BoolArgs

variable {args ar : BoolArgs V n}

lemma length_rows : ar.rows.length = n := by
  rw [rows, length_zip, Columnar.length_intoArray ar.lhs_rows,
    Columnar.length_intoArray ar.rhs_rows, Nat.min_self]

lemma equalNullRow_eq_iff {a b : Option V} :
    ar.equalNullRow a b = some (ar.nullSafeEqual a b) ↔ a.isNone = b.isNone := by
  cases a <;> cases b <;> simp [equalNullRow, compare, nullSafeEqual]

lemma zip_toArray (hl : ar.lhs.toArray.length = n) (hr : ar.rhs.toArray.length = n) :
    ar.lhs.toArray.zip ar.rhs.toArray = ar.rows := by
  rw [Columnar.toArray_eq_intoArray hl, Columnar.toArray_eq_intoArray hr, rows]

lemma isRowwise_self (hl : ar.lhs.toArray.length = n) (hr : ar.rhs.toArray.length = n)
    (f : Option Bool → Option Bool → Option Bool) : ar.IsRowwise f f := by
  rw [IsRowwise, invoke, arrayToBoolean, arrayToBoolean, zip_map, zip_toArray hl hr, map_map]
  rfl

/-! ### Main result -/

/-- **The functions broadcast exactly if both arguments are read as `n` rows and have their NULLs
in the same rows.** -/
theorem broadcasts_iff (args : BoolArgs V n) :
    args.Broadcasts ↔ (args.lhs.toArray.length = n ∧ args.rhs.toArray.length = n) ∧
      ∀ p ∈ args.rows, p.1.isNone = p.2.isNone := by
  constructor
  · rintro ⟨-, -, -, h⟩
    rw [equalNull] at h
    split at h
    case isTrue => cases h
    case isFalse hlen =>
      have hn := congrArg length (Except.ok.inj h)
      rw [length_map, length_map, length_zip, length_rows] at hn
      have hl : args.lhs.toArray.length = n := by omega
      have hr : args.rhs.toArray.length = n := by omega
      rw [zip_toArray hl hr, Except.ok.injEq, map_inj_left] at h
      exact ⟨⟨hl, hr⟩, fun p hp => equalNullRow_eq_iff.mp (h p hp)⟩
  · rintro ⟨⟨hl, hr⟩, h⟩
    refine ⟨?_, ?_, ?_, ?_⟩
    · rw [boolAndRow_eq]
      exact isRowwise_self hl hr _
    · rw [boolOrRow_eq]
      exact isRowwise_self hl hr _
    · rw [boolXorRow_eq]
      exact isRowwise_self hl hr _
    · rw [equalNull, if_neg (by omega), zip_toArray hl hr, Except.ok.injEq, map_inj_left]
      exact fun p hp => equalNullRow_eq_iff.mpr (h p hp)

/-- A column with the scalar TRUE. -/
def withScalar : BoolArgs Bool 2 where
  nonZero := id
  equal a b := a == b
  lhs := .array [some true, some false]
  rhs := .scalar (some true)
  lhs_rows := rfl
  rhs_rows := trivial

theorem not_broadcasts :
    withScalar.invoke boolAndRow = [some true] ∧
      withScalar.equalNull = .error .mustBeOfTheSameLength ∧
      withScalar.equalNullRow none (some true) = none ∧ ¬withScalar.Broadcasts := by
  refine ⟨rfl, rfl, rfl, fun h => ?_⟩
  cases h.2.2.2

end BoolArgs

end Rustice
