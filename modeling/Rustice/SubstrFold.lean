import Mathlib.Data.List.TakeDrop
import Rustice.RegexpPositions

/-!
# `SUBSTR` of Literals

`simplify` takes the text of the literal, whatever its type, and drops a length that is negative or
not a literal.
-/

namespace Rustice

open List

inductive SubstrValue where
  | text (value : List Char)
  | binary (value : List UInt8)

inductive LengthArg where
  | absent
  | literal (length : Option ℤ)
  | expr (rows : List (Option ℤ))

inductive SubstrError where
  | negativeSubstringLength (start length : ℤ)

def computeSubstrBinary (input : List UInt8) (start : ℤ) (length : Option ℕ) : List UInt8 :=
  let first := actualStart input.length start
  if input = [] then []
  else if first ≤ 0 ∨ (input.length : ℤ) < first then []
  else
    let startIdx := (first - 1).toNat
    match length with
    | some 0 => []
    | some (n + 1) => (input.take (min (startIdx + (n + 1)) input.length)).drop startIdx
    | none => input.drop startIdx

namespace SubstrValue

def compute (start : ℤ) (length : Option ℕ) : SubstrValue → SubstrValue
  | text value => text (computeSubstrString value start length)
  | binary value => binary (computeSubstrBinary value start length)

def processRow (base : Option SubstrValue) (start : Option ℤ) (length : Option (Option ℤ)) :
    Except SubstrError (Option SubstrValue) :=
  match base, start, length with
  | some base, some start, none => .ok (base.compute start none)
  | some base, some start, some (some length) =>
    if length < 0 then .error (.negativeSubstringLength start length)
    else .ok (base.compute start (some length.toNat))
  | _, _, _ => .ok none

def invoke (base : Option SubstrValue) (start : Option ℤ) :
    LengthArg → Except SubstrError (List (Option SubstrValue))
  | .absent => [none].mapM (processRow base start)
  | .literal length => [some length].mapM (processRow base start)
  | .expr rows => rows.mapM fun length => processRow base start (some length)

variable (display : List UInt8 → List Char)

def toText : SubstrValue → List Char
  | text value => value
  | binary value => display value

def simplify (base : Option SubstrValue) (start : Option ℤ) (length : LengthArg) :
    Option SubstrValue :=
  match base, start, length with
  | some _, some _, .literal none => none
  | some base, some start, .literal (some length) =>
    some (.text (computeSubstrString (base.toText display) start
      (if 0 ≤ length then some length.toNat else none)))
  | some base, some start, _ => some (.text (computeSubstrString (base.toText display) start none))
  | _, _, _ => none

/-- The literal that the call is folded to is its value in every row. -/
def FoldsRight (base : SubstrValue) (start : ℤ) (length : LengthArg) : Prop :=
  ∃ out, invoke (some base) (some start) length = .ok out ∧
    ∀ value ∈ out, value = simplify display (some base) (some start) length

/-- A text whose length is missing, not negative or of no effect; or a length that is NULL. -/
def FoldCondition (start : ℤ) : SubstrValue → LengthArg → Prop
  | _, .literal none => True
  | text _, .absent => True
  | text _, .literal (some length) => 0 ≤ length
  | text value, .expr rows =>
    ∀ row ∈ rows, ∃ length, row = some length ∧
      ((computeSubstrString value start none).length : ℤ) ≤ length
  | binary _, .expr rows => rows = []
  | binary _, _ => False

end SubstrValue

lemma computeSubstrString_some (i : List Char) (s : ℤ) (n : ℕ) :
    computeSubstrString i s (some n) = (computeSubstrString i s none).take n := by
  simp only [computeSubstrString]
  split_ifs with hnil hr
  · rw [take_nil]
  · rw [take_nil]
  · cases n with
    | zero => rw [take_zero]
    | succ n =>
      rw [take_drop]
      exact congrArg (drop _) take_eq_take_min.symm

namespace SubstrValue

variable {display : List UInt8 → List Char} {start s : ℤ}

lemma processRow_text_iff (v : List Char) (r : Option ℤ) :
    processRow (some (text v)) (some s) (some r) =
        .ok (some (text (computeSubstrString v s none))) ↔
      ∃ length, r = some length ∧ ((computeSubstrString v s none).length : ℤ) ≤ length := by
  cases r with
  | none => exact iff_of_false (fun h => by cases h) fun ⟨_, h, _⟩ => by cases h
  | some length =>
    simp only [processRow, Option.some.injEq, exists_eq_left']
    split_ifs with hneg
    · exact iff_of_false (fun h => by cases h) (by omega)
    · rw [compute, computeSubstrString_some, Except.ok.injEq, Option.some.injEq, text.injEq,
        take_eq_self_iff]
      omega

/-! ### Main result -/

/-- **The literal is right exactly under `FoldCondition`.** -/
theorem foldsRight_iff (base : SubstrValue) (length : LengthArg) :
    base.FoldsRight display start length ↔ FoldCondition start base length := by
  cases length with
  | absent =>
    cases base with
    | text value => exact iff_of_true ⟨_, rfl, fun _ h => mem_singleton.mp h⟩ trivial
    | binary value =>
      refine iff_of_false ?_ id
      rintro ⟨_, ⟨⟩, h⟩
      cases h _ mem_cons_self
  | literal length =>
    cases length with
    | none => cases base <;> exact iff_of_true ⟨_, rfl, fun _ h => mem_singleton.mp h⟩ trivial
    | some length =>
      rw [FoldsRight]
      simp only [invoke, mapM_cons, mapM_nil, processRow, simplify]
      by_cases hl : 0 ≤ length
      · rw [if_neg (not_lt.mpr hl), if_pos hl]
        cases base with
        | text value => exact iff_of_true ⟨_, rfl, fun _ h => mem_singleton.mp h⟩ hl
        | binary value =>
          refine iff_of_false ?_ id
          rintro ⟨_, ⟨⟩, h⟩
          cases h _ mem_cons_self
      · rw [if_pos (not_le.mp hl)]
        refine iff_of_false (fun ⟨_, h, _⟩ => by cases h) ?_
        cases base with
        | text value => exact hl
        | binary value => exact id
  | expr rows =>
    cases base with
    | text value =>
      simp only [FoldCondition, ← processRow_text_iff]
      constructor
      · rintro ⟨out, ho, h⟩ row hr
        obtain ⟨value, hv, heq⟩ := exists_mem_of_mapM_eq_ok ho hr
        rw [heq, h value hv]
        rfl
      · intro h
        refine ⟨_, mapM_eq_ok_map h, fun out ho => ?_⟩
        obtain ⟨_, -, rfl⟩ := mem_map.mp ho
        rfl
    | binary value =>
      constructor
      · rintro ⟨out, ho, h⟩
        by_contra hne
        obtain ⟨row, hr⟩ := exists_mem_of_ne_nil rows hne
        obtain ⟨out, hm, heq⟩ := exists_mem_of_mapM_eq_ok ho hr
        rw [h out hm] at heq
        cases row with
        | none => cases heq
        | some length =>
          simp only [processRow] at heq
          split_ifs at heq
          cases heq
      · rintro rfl
        exact ⟨[], rfl, fun _ h => absurd h not_mem_nil⟩

theorem not_foldsRight_negative :
    ¬ FoldsRight (fun _ => []) (text ['a', 'b']) 1 (.literal (some (-1))) := by
  rintro ⟨_, h, -⟩
  cases h

end SubstrValue

end Rustice
