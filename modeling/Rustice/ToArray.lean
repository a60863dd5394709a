import Rustice.JsonPath
import Rustice.Regexp

/-!
# `TO_ARRAY`

A column becomes a column of lists, given by the values of all lists and the offsets of each.
-/

namespace Rustice

open List

variable {ν T V γ : Type}

/-- A column of strings, of another type `T` with values in `V`, or of lists or NULLs, which is
returned as it is. -/
inductive ToArrayColumn (T V : Type) where
  | strings (type : StringType) (rows : List (Option String))
  | values (type : T) (rows : List (Option V))
  | asIs

inductive ItemType (T : Type) where
  | string (type : StringType)
  | other (type : T)

/-- A column of lists with the type of their items. -/
structure ListColumn (T γ : Type) where
  itemType : ItemType T
  rows : List (Option (List γ))

inductive ToArrayError where
  | invalidIntegerConversion

/-- The rows, unless an offset is not an `i32`; `len` is the number of values before them. -/
def pushOffsets : ℕ → List (List γ) → Except ToArrayError (List (List γ))
  | _, [] => .ok []
  | len, row :: rows =>
    if len + row.length < 2 ^ 31 then (pushOffsets (len + row.length) rows).map (row :: ·)
    else .error .invalidIntegerConversion

/-- `serde_json`; the text of a string has its quotes. -/
structure SerdeText (ν : Type) where
  fromStr : String → Option (JsonValue ν)
  toText : JsonValue ν → String
  toText_string_ne : ∀ s, toText (.string s) ≠ s

namespace SerdeText

variable (json : SerdeText ν)

def stringRow : Option String → List String
  | none => []
  | some s =>
    match json.fromStr s with
    | some (.array items) => items.map json.toText
    | _ => [s]

/-- The list array of the rows, without NULLs; its item type is that of the values, if any. -/
def listArray (valueType emptyType : ItemType T) (rows : List (List γ)) :
    Except ToArrayError (ListColumn T γ) :=
  (pushOffsets 0 rows).map fun rows =>
    ⟨if rows.flatten = [] then emptyType else valueType, rows.map some⟩

def toArrayStrings (type : StringType) (rows : List (Option String)) :
    Except ToArrayError (ListColumn T String) :=
  listArray (.string .utf8) (.string type) (rows.map json.stringRow)

def toArrayValues (type : T) (rows : List (Option V)) : Except ToArrayError (ListColumn T V) :=
  listArray (.other type) (.other type) (rows.map Option.toList)

def itemText : JsonValue ν → String
  | .string s => s
  | item => json.toText item

def expectedRow : Option String → Option (List String)
  | none => none
  | some s =>
    match json.fromStr s with
    | some .null => none
    | some (.array items) => some (items.map json.itemText)
    | _ => some [s]

/-- The column is of the declared type and has the row for each row. -/
def Follows : ToArrayColumn T V → Prop
  | .strings type rows => json.toArrayStrings (T := T) type rows =
    .ok ⟨.string type, rows.map json.expectedRow⟩
  | .values type rows => toArrayValues type rows =
    .ok ⟨.other type, rows.map (Option.map fun v => [v])⟩
  | .asIs => True

/-- A text that is neither a JSON null nor a JSON array with a string. -/
def Plain (s : String) : Prop :=
  match json.fromStr s with
  | some .null => False
  | some (.array items) => ∀ x ∈ items, ∀ e, x ≠ .string e
  | _ => True

def Sound : ToArrayColumn T V → Prop
  | .strings type rows => (∀ row ∈ rows, ∃ s, row = some s ∧ json.Plain s) ∧
    (rows.flatMap json.stringRow).length < 2 ^ 31 ∧
    (type = .utf8 ∨ ∀ row ∈ rows, json.stringRow row = [])
  | .values _ rows => none ∉ rows ∧ rows.length < 2 ^ 31
  | .asIs => True

variable {json}

lemma pushOffsets_eq {l : ℕ} (hlen : l < 2 ^ 31) (rs : List (List γ)) : pushOffsets l rs =
    if l + rs.flatten.length < 2 ^ 31 then .ok rs else .error .invalidIntegerConversion := by
  induction rs generalizing l with
  | nil => exact (if_pos hlen).symm
  | cons row rs ih =>
    rw [pushOffsets, flatten_cons, length_append, ← Nat.add_assoc]
    split
    case isTrue h =>
      rw [ih h]
      split <;> rfl
    case isFalse h => rw [if_neg (by omega)]

lemma listArray_eq_ok_iff {vt et it : ItemType T} {rows : List (List γ)}
    {rows' : List (Option (List γ))} :
    listArray vt et rows = .ok ⟨it, rows'⟩ ↔ rows.flatten.length < 2 ^ 31 ∧
      (if rows.flatten = [] then et else vt) = it ∧ rows.map some = rows' := by
  rw [listArray, pushOffsets_eq (by decide), Nat.zero_add]
  split
  case isTrue h =>
    rw [Except.map, Except.ok.injEq, ListColumn.mk.injEq]
    exact (and_iff_right h).symm
  case isFalse h => exact iff_of_false (fun hr => by cases hr) fun hr => h hr.1

lemma toText_eq_itemText_iff {x : JsonValue ν} :
    json.toText x = json.itemText x ↔ ∀ e, x ≠ .string e := by
  cases x <;> simp [itemText, json.toText_string_ne]

lemma some_stringRow_eq_iff {r : Option String} :
    some (json.stringRow r) = json.expectedRow r ↔ ∃ s, r = some s ∧ json.Plain s := by
  cases r with
  | none => simp [expectedRow]
  | some s =>
    cases hf : json.fromStr s with
    | none => simp [stringRow, expectedRow, Plain, hf]
    | some v => cases v <;> simp [stringRow, expectedRow, Plain, hf, toText_eq_itemText_iff]

lemma length_flatMap_toList {rs : List (Option V)} (h : none ∉ rs) :
    (rs.flatMap Option.toList).length = rs.length := by
  induction rs with
  | nil => rfl
  | cons r rs ih =>
    obtain ⟨hr, hrs⟩ := not_or.mp (mt mem_cons.mpr h)
    cases r with
    | none => exact absurd rfl hr
    | some v => rw [flatMap_cons, length_append, ih hrs, length_cons, Nat.add_comm]; rfl

/-! ### Main result -/

/-- **A column follows the contract exactly if it has no NULL, no JSON null and no JSON array with
a string, its values fit an `i32`, and its strings, if there is a value, are `Utf8`.** -/
theorem follows_iff (json : SerdeText ν) (column : ToArrayColumn T V) :
    json.Follows column ↔ json.Sound column := by
  cases column with
  | strings ty rows =>
    rw [Follows, toArrayStrings, listArray_eq_ok_iff, ← flatMap_def, map_map, map_inj_left, Sound]
    have hr : (∀ row ∈ rows, (some ∘ json.stringRow) row = json.expectedRow row) ↔
        ∀ row ∈ rows, ∃ s, row = some s ∧ json.Plain s :=
      forall₂_congr fun _ _ => some_stringRow_eq_iff
    have ht : (if rows.flatMap json.stringRow = [] then ItemType.string ty
        else (.string .utf8 : ItemType T)) = .string ty ↔
        ty = .utf8 ∨ ∀ row ∈ rows, json.stringRow row = [] := by
      split
      case isTrue h => exact iff_of_true rfl (.inr (flatMap_eq_nil_iff.mp h))
      case isFalse h =>
        rw [ItemType.string.injEq, or_iff_left (mt flatMap_eq_nil_iff.mpr h), eq_comm]
    rw [hr, ht]
    tauto
  | values ty rows =>
    rw [Follows, toArrayValues, listArray_eq_ok_iff, ← flatMap_def, map_map, map_inj_left, Sound,
      ite_self]
    have hr : (∀ row ∈ rows, (some ∘ Option.toList) row = row.map fun v => [v]) ↔ none ∉ rows := by
      refine ⟨fun h hm => Option.some_ne_none _ (h none hm), fun h row hm => ?_⟩
      cases row with
      | none => exact absurd hm h
      | some v => rfl
    rw [hr, and_iff_right rfl]
    exact ⟨fun h => ⟨h.2, length_flatMap_toList h.2 ▸ h.1⟩,
      fun h => ⟨(length_flatMap_toList h.1).symm ▸ h.2, h.1⟩⟩
  | asIs => exact Iff.rfl

def sampleText : SerdeText Unit where
  fromStr s :=
    if s = "null" then some .null else if s = "[\"a\"]" then some (.array [.string "a"]) else none
  toText
    | .string s => "\"" ++ s ++ "\""
    | _ => "null"
  toText_string_ne s h := by
    have hl := congrArg String.length h
    simp only [String.length_append] at hl
    have hq : ("\"" : String).length = 1 := rfl
    omega

/-- A NULL, a JSON null, a JSON array with a string, and a column that is not `Utf8`. -/
theorem not_follows : ¬sampleText.Follows (T := Unit) (V := Unit) (.strings .utf8 [none]) ∧
    ¬sampleText.Follows (T := Unit) (V := Unit) (.strings .utf8 [some "null"]) ∧
    ¬sampleText.Follows (T := Unit) (V := Unit) (.strings .utf8 [some "[\"a\"]"]) ∧
    ¬sampleText.Follows (T := Unit) (V := Unit) (.strings .largeUtf8 [some "x"]) := by
  have hr : ∀ {rows}, sampleText.toArrayStrings .utf8 rows =
      .ok (⟨.string .utf8, rows.map sampleText.expectedRow⟩ : ListColumn Unit String) →
      rows.map (some ∘ sampleText.stringRow) = rows.map sampleText.expectedRow := fun h => by
    rw [toArrayStrings, listArray_eq_ok_iff, map_map] at h
    exact h.2.2
  refine ⟨fun h => absurd (hr h) (by decide), fun h => absurd (hr h) (by decide),
    fun h => absurd (hr h) (by decide), fun h => ?_⟩
  cases congrArg ListColumn.itemType (Except.ok.inj h)

end SerdeText

end Rustice
