import Rustice.Flatten

/-!
# Functions of JSON Arrays

`ARRAY_EXCEPT` and `ARRAY_INTERSECTION` look for each element of one array in the other, so they
drop or keep an element with all its copies.
-/

namespace Rustice

open List

variable {ν : Type}

inductive ArrayError where
  | failedToDeserializeJson
  | inputMustBeJsonArray
  | argumentsMustBeJsonArrays
  | invalidArgumentTypesForArrayConcat

def readJson (fromStr : String → Option (JsonValue ν)) (text : String) :
    Except ArrayError (JsonValue ν) :=
  match fromStr text with
  | some value => .ok value
  | none => .error .failedToDeserializeJson

structure JsonReader (ν : Type) where
  fromStr : String → Option (JsonValue ν)
  eq : JsonValue ν → JsonValue ν → Bool
  equivalence : Equivalence fun v w => eq v w = true

namespace JsonReader

variable (json : JsonReader ν)

def contains (items : List (JsonValue ν)) (v : JsonValue ν) : Bool := items.any (json.eq · v)

def arrayExcept : Option String → Option String → Except ArrayError (Option (JsonValue ν))
  | some text1, some text2 => do
    match ← readJson json.fromStr text1, ← readJson json.fromStr text2 with
    | .array arr1, .array arr2 =>
      return some (.array (arr1.filter fun item => !json.contains arr2 item))
    | _, _ => return none
  | _, _ => .ok none

def arrayIntersection : Option String → Option String → Except ArrayError (Option (JsonValue ν))
  | some text1, some text2 => do
    match ← readJson json.fromStr text1, ← readJson json.fromStr text2 with
    | .array arr1, .array arr2 => return some (.array (arr2.filter (json.contains arr1)))
    | _, _ => return none
  | _, _ => .ok none

def count (items : List (JsonValue ν)) (v : JsonValue ν) : ℕ := items.countP (json.eq · v)

structure ArrayArg where
  text : String
  items : List (JsonValue ν)
  reads : json.fromStr text = some (.array items)

/-- The intersection is symmetric, and makes up the first array with the difference. -/
def MultisetLaws (a b : json.ArrayArg) : Prop :=
  ∃ e int int' : List (JsonValue ν), json.arrayExcept a.text b.text = .ok (some (.array e)) ∧
    json.arrayIntersection a.text b.text = .ok (some (.array int)) ∧
    json.arrayIntersection b.text a.text = .ok (some (.array int')) ∧
    ∀ v, json.count int v = json.count int' v ∧
      json.count int v = min (json.count a.items v) (json.count b.items v) ∧
      json.count a.items v = json.count e v + json.count int v

variable {json} {a b : json.ArrayArg} {xs : List (JsonValue ν)} {v w : JsonValue ν}

lemma arrayExcept_text : json.arrayExcept a.text b.text =
    .ok (some (.array (a.items.filter fun x => !json.contains b.items x))) := by
  rw [arrayExcept, readJson, readJson, a.reads, b.reads]
  rfl

lemma arrayIntersection_text : json.arrayIntersection a.text b.text =
    .ok (some (.array (b.items.filter (json.contains a.items)))) := by
  rw [arrayIntersection, readJson, readJson, a.reads, b.reads]
  rfl

lemma contains_iff : json.contains xs v = true ↔ 0 < json.count xs v := by
  rw [contains, count, countP_pos_iff, any_eq_true]

lemma contains_congr (h : json.eq v w = true) : json.contains xs v = json.contains xs w := by
  rw [Bool.eq_iff_iff, contains, contains, any_eq_true, any_eq_true]
  refine exists_congr fun x => and_congr_right fun _ => ⟨fun hx => json.equivalence.trans hx h, ?_⟩
  exact fun hx => json.equivalence.trans hx (json.equivalence.symm h)

lemma count_filter {p : JsonValue ν → Bool} (hp : ∀ x, json.eq x v = true → p x = p v) :
    json.count (xs.filter p) v = if p v then json.count xs v else 0 := by
  rw [count, countP_filter]
  split_ifs with h
  · refine countP_congr fun x _ => ?_
    rw [Bool.and_eq_true]
    exact ⟨And.left, fun hx => ⟨hx, (hp x hx).trans h⟩⟩
  · refine countP_eq_zero.mpr fun x _ hx => h ?_
    rw [Bool.and_eq_true] at hx
    exact hp x hx.1 ▸ hx.2

/-! ### Main results -/

/-- **The two functions are multiset operations exactly if every value that is in both arrays
occurs as often in one as in the other.** -/
theorem multisetLaws_iff : json.MultisetLaws a b ↔
    ∀ v, 0 < json.count a.items v → 0 < json.count b.items v →
      json.count a.items v = json.count b.items v := by
  have hin (a b : json.ArrayArg) (v) : json.count (b.items.filter (json.contains a.items)) v =
      if json.contains a.items v then json.count b.items v else 0 :=
    count_filter fun x => contains_congr
  constructor
  · rintro ⟨except, int, int', -, hi, hi', h⟩ v ha hb
    rw [arrayIntersection_text] at hi hi'
    cases hi
    cases hi'
    have hs := (h v).1
    rw [hin, hin, if_pos (contains_iff.mpr ha), if_pos (contains_iff.mpr hb)] at hs
    exact hs.symm
  · intro h
    refine ⟨_, _, _, arrayExcept_text, arrayIntersection_text, arrayIntersection_text, fun v => ?_⟩
    rw [hin, hin, count_filter fun x hx => congrArg _ (contains_congr hx)]
    have := h v
    simp only [Bool.not_eq_true', ← Bool.not_eq_true, contains_iff]
    split_ifs <;> omega

end JsonReader

def sampleReader : JsonReader ℕ where
  fromStr
    | "[null]" => some (.array [.null])
    | "[null,null]" => some (.array [.null, .null])
    | _ => none
  eq v w := jsonText v == jsonText w
  equivalence := ⟨fun _ => beq_self_eq_true _, fun h => beq_iff_eq.mpr (beq_iff_eq.mp h).symm,
    fun h h' => beq_iff_eq.mpr ((beq_iff_eq.mp h).trans (beq_iff_eq.mp h'))⟩

theorem not_multisetLaws : ¬ sampleReader.MultisetLaws ⟨"[null]", [.null], rfl⟩
    ⟨"[null,null]", [.null, .null], rfl⟩ := by
  rintro ⟨except, int, int', -, hi, hi', h⟩
  cases hi
  cases hi'
  exact absurd (h .null).1 (by decide)

structure JsonText (ν : Type) extends JsonReader ν where
  toText : JsonValue ν → String
  fromStr_toText : ∀ {text items selection}, fromStr text = some (.array items) →
    selection ⊆ items → fromStr (toText (.array selection)) = some (.array selection)

namespace JsonText

variable (json : JsonText ν)

def sliceArray (fromIndex toIndex : ℤ) : JsonValue ν → Except ArrayError (Option String)
  | .array array =>
    let arrayLen : ℤ := array.length
    let actualFrom := if fromIndex < 0 then fromIndex + arrayLen else fromIndex
    let actualTo := if toIndex < 0 then toIndex + arrayLen else toIndex
    if actualFrom < 0 ∨ arrayLen ≤ actualFrom ∨ actualTo < actualFrom ∨ arrayLen < actualTo then
      .ok none
    else .ok (some (json.toText (.array ((array.take actualTo.toNat).drop actualFrom.toNat))))
  | _ => .error .inputMustBeJsonArray

def arraySlice (text : String) (fromIndex toIndex : ℤ) : Except ArrayError (Option String) :=
  readJson json.fromStr text >>= json.sliceArray fromIndex toIndex

def concatenateArrays (arrays : List String) : Except ArrayError String := do
  let parts ← arrays.mapM fun text => do
    match ← readJson json.fromStr text with
    | .array array => return array
    | _ => throw .argumentsMustBeJsonArrays
  return json.toText (.array parts.flatten)

def arrayCat : Option String → Option String → Except ArrayError String
  | some s1, some s2 => json.concatenateArrays [s1, s2]
  | _, _ => .error .invalidArgumentTypesForArrayConcat

/-- The slices at `n` make up the array, and have their lengths. -/
def InverseLaws (a : json.ArrayArg) (n i j : ℕ) : Prop :=
  (∃ l r text, json.arraySlice a.text 0 n = .ok l ∧
    json.arraySlice a.text n a.items.length = .ok r ∧ json.arrayCat l r = .ok text ∧
    json.fromStr text = some (.array a.items)) ∧
  ∃ text items, json.arraySlice a.text i j = .ok (some text) ∧
    json.fromStr text = some (.array items) ∧ items.length = j - i

variable {json} {a : json.ArrayArg} {n i j : ℕ}

lemma arraySlice_eq (hij : i ≤ j) (hj : j ≤ a.items.length) : json.arraySlice a.text i j =
    .ok (if i < a.items.length then some (json.toText (.array ((a.items.take j).drop i)))
      else none) := by
  rw [arraySlice, readJson, a.reads]
  show json.sliceArray i j (.array a.items) = _
  simp only [sliceArray, if_neg (Int.natCast_nonneg _).not_gt, Int.toNat_natCast]
  split_ifs
  all_goals first | rfl | omega

lemma fromStr_drop_take (json : JsonText ν) (a : json.ArrayArg) (i j : ℕ) :
    json.fromStr (json.toText (.array ((a.items.take j).drop i))) =
      some (.array ((a.items.take j).drop i)) :=
  json.fromStr_toText a.reads fun _ h => mem_of_mem_take (mem_of_mem_drop h)

end JsonText

/-- Arrays of numbers, one for each character between the brackets. -/
def charsText : JsonText ℕ where
  fromStr text := some (.array ((text.toList.drop 1).dropLast.map fun c => .number c.toNat))
  eq := sampleReader.eq
  equivalence := sampleReader.equivalence
  toText
    | .array items => .ofList ('[' :: items.map (fun
        | .number n => .ofNat n
        | _ => ' ') ++ [']'])
    | _ => ""
  fromStr_toText := by
    intro text items selection h hsub
    cases h
    simp only [String.toList_ofList, cons_append, drop_one, tail_cons, dropLast_concat, map_map]
    refine congrArg (fun xs => some (JsonValue.array xs))
      ((map_congr_left fun v hv => ?_).trans selection.map_id)
    obtain ⟨c, -, rfl⟩ := mem_map.mp (hsub hv)
    exact congrArg (fun c => JsonValue.number c.toNat) c.ofNat_toNat

def charsArg : charsText.ArrayArg := ⟨"[123]", [.number 49, .number 50, .number 51], rfl⟩

def emptyArrayArg : charsText.ArrayArg := ⟨"[]", [], rfl⟩

end Rustice
