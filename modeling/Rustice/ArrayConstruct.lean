import Rustice.Columnar
import Rustice.JsonPath

/-!
# `ARRAY_CONSTRUCT` and the elements of an array

A text that is JSON goes into an array as its value, and an element comes out as a text again.
-/

namespace Rustice

open List

variable {ν : Type} {n : ℕ}

/-- An argument in an array: a text that is JSON stands for its value. -/
def constructElement (fromStr : String → Option (JsonValue ν)) : Option String → JsonValue ν
  | none => .null
  | some s =>
    match fromStr s with
    | some parsed => parsed
    | none => .string s

def indexPath (k : ℕ) : String := "$[" ++ toString k ++ "]"

structure VariantEnv (ν : Type) where
  fromStr : String → Option (JsonValue ν)
  toText : JsonValue ν → String
  select : String → String → Option (List (JsonValue ν))
  fromStr_ne_string : ∀ s, fromStr s ≠ some (.string s)
  select_index : ∀ text items k v, fromStr text = some (.array items) → items[k]? = some v →
    select text (indexPath k) = some [v]

namespace VariantEnv

variable (env : VariantEnv ν)

def ReadsBack (items : List (JsonValue ν)) : Prop :=
  env.fromStr (env.toText (.array items)) = some (.array items)

def arrayConstruct (n : ℕ) (args : List (Columnar (Option String))) : List (Option String) :=
  (range n).map fun i => some (env.toText (.array (args.map fun arg =>
    constructElement env.fromStr ((arg.intoArray n).getD i none))))

def elementText : JsonValue ν → Option String
  | .null => none
  | .string s => some s
  | v => some (env.toText v)

def elementRow (flatten : Bool) : Option String → Option String → Option String
  | some json, some path =>
    match env.select json path with
    | none => none
    | some [] => none
    | some (v :: values) =>
      if flatten then env.elementText v else some (env.toText (.array (v :: values)))
  | _, _ => none

def flattenArg : Option (Columnar (Option Bool)) → Bool
  | some (.scalar (some b)) => b
  | _ => false

def variantElement (n : ℕ) (array path : Columnar (Option String))
    (flatten : Option (Columnar (Option Bool))) : List (Option String) :=
  zipWith (env.elementRow (flattenArg flatten)) (array.intoArray n) (path.intoArray n)

end VariantEnv

open VariantEnv

def constructRow (env : VariantEnv ν) (columns : List (Columnar String)) (i : ℕ) :
    List (JsonValue ν) :=
  columns.map fun column => constructElement env.fromStr (column.row? i)

/-- The array of the row is read as it was printed, and so is an array of the text alone. -/
structure ConstructCell (env : VariantEnv ν) (n : ℕ) where
  columns : List (Columnar String)
  hasRows : ∀ column ∈ columns, column.HasRows n
  row : ℕ
  row_lt : row < n
  index : ℕ
  text : String
  text_eq : ∃ column, columns[index]? = some column ∧ column.row? row = some text
  readsBack : env.ReadsBack (constructRow env columns row)
  readsBack_text : env.ReadsBack [constructElement env.fromStr (some text)]

namespace ConstructCell

variable {env : VariantEnv ν} (cell cl : ConstructCell env n)
  (flatten f : Option (Columnar (Option Bool)))

def extracted : List (Option String) :=
  env.variantElement n (.array (env.arrayConstruct n (cell.columns.map (Columnar.map some))))
    (.scalar (some (indexPath cell.index))) flatten

/-- The text comes out of the array as it went in. -/
def Survives : Prop := (cell.extracted flatten)[cell.row]? = some (some cell.text)

def KeepsText : Prop :=
  ∀ v, env.fromStr cell.text = some v → v ≠ .null ∧ (∀ s, v ≠ .string s) ∧ env.toText v = cell.text

lemma getD_intoArray {c : Columnar String} {i : ℕ} (h : c.HasRows n) (hi : i < n) :
    ((c.map some).intoArray n).getD i none = c.row? i := by
  obtain ⟨s, hs⟩ := Columnar.exists_row? h hi
  rw [getD_eq_getElem?_getD, Columnar.getElem?_intoArray _ hi, hs]
  cases c with
  | scalar value => exact hs
  | array vs =>
    rw [Columnar.map, Columnar.row?, getElem?_map, show vs[i]? = some s from hs]
    rfl

lemma arrayConstruct_row : (env.arrayConstruct n (cl.columns.map (Columnar.map some)))[cl.row]? =
    some (some (env.toText (.array (constructRow env cl.columns cl.row)))) := by
  rw [arrayConstruct, getElem?_map, getElem?_range cl.row_lt, Option.map_some, map_map,
    constructRow]
  refine congrArg (fun xs => some (some (env.toText (.array xs)))) (map_congr_left fun c hc => ?_)
  rw [Function.comp_apply, getD_intoArray (cl.hasRows c hc) cl.row_lt]

lemma extracted_eq : (cl.extracted f)[cl.row]? = some (if flattenArg f then
      env.elementText (constructElement env.fromStr (some cl.text))
    else some (env.toText (.array [constructElement env.fromStr (some cl.text)]))) := by
  obtain ⟨column, hc, ht⟩ := cl.text_eq
  have hi : (constructRow env cl.columns cl.row)[cl.index]? =
      some (constructElement env.fromStr (some cl.text)) := by
    rw [constructRow, getElem?_map, hc, ← ht]
    rfl
  have hs := env.select_index _ _ cl.index _ cl.readsBack hi
  rw [extracted, variantElement, Columnar.intoArray, Columnar.intoArray,
    getElem?_zipWith, cl.arrayConstruct_row, getElem?_replicate_of_lt cl.row_lt]
  simp only [elementRow, hs]

lemma toText_singleton_ne :
    env.toText (.array [constructElement env.fromStr (some cl.text)]) ≠ cl.text := by
  intro heq
  have hr := cl.readsBack_text
  rw [VariantEnv.ReadsBack, heq] at hr
  have hs : constructElement env.fromStr (some cl.text) =
      .array [constructElement env.fromStr (some cl.text)] := by
    conv_lhs => rw [constructElement, hr]
  have hsiz := congrArg sizeOf hs
  simp only [JsonValue.array.sizeOf_spec, cons.sizeOf_spec, nil.sizeOf_spec] at hsiz
  omega

lemma elementText_eq_iff :
    env.elementText (constructElement env.fromStr (some cl.text)) = some cl.text ↔
      cl.KeepsText := by
  rw [KeepsText, constructElement]
  cases hr : env.fromStr cl.text with
  | none => simp [elementText]
  | some v =>
    cases v with
    | null => simp [elementText]
    | string s =>
      have hne : s ≠ cl.text := by
        rintro rfl
        exact env.fromStr_ne_string _ hr
      simp [elementText, hne]
    | _ => simp [elementText]

/-! ### Main result -/

/-- **A text survives** just when it is asked for as a text, and is not JSON or is printed as it is.
-/
theorem survives_iff :
    cell.Survives flatten ↔ flattenArg flatten = true ∧ cell.KeepsText := by
  rw [Survives, extracted_eq, Option.some_inj, ← elementText_eq_iff]
  cases flattenArg flatten with
  | true => simp
  | false => simpa using cell.toText_singleton_ne

end ConstructCell

def nullEnv : VariantEnv ℕ where
  fromStr text :=
    if text = "null" then some .null else if text = "[null]" then some (.array [.null]) else none
  toText _ := "[null]"
  select _ _ := some [.null]
  fromStr_ne_string s := by split_ifs <;> simp
  select_index text items k v htext hv := by
    split_ifs at htext
    · cases htext
    · cases htext
      obtain rfl : v = .null := mem_singleton.mp (mem_of_getElem? hv)
      rfl

def nullCell : ConstructCell nullEnv 1 where
  columns := [.scalar "null"]
  hasRows := forall_mem_singleton.mpr trivial
  row := 0
  row_lt := Nat.zero_lt_one
  index := 0
  text := "null"
  text_eq := ⟨_, rfl, rfl⟩
  readsBack := rfl
  readsBack_text := rfl

theorem not_survives_null :
    nullCell.extracted (some (.scalar (some true))) = [none] ∧
      ¬nullCell.Survives (some (.scalar (some true))) :=
  ⟨rfl, fun h => by cases h⟩

end Rustice
