import Rustice.Columnar
import Rustice.JsonPath
import Rustice.LastWrite

/-!
# Object Constructors

`OBJECT_CONSTRUCT` takes keys and values in turn, each of them a scalar or a column, and returns an
object.
-/

namespace Rustice

open List Option

variable {ν φ : Type} {k : String}

abbrev JsonObject (ν : Type) := AList fun _ : String => JsonValue ν

def SameObject (object object' : JsonObject ν) : Prop := ∀ k, object.lookup k = object'.lookup k

inductive Slot (φ : Type) where
  | null
  | nullType
  | utf8 (s : String)
  | int64 (i : ℤ)
  | float64 (f : φ)
  | boolean (b : Bool)
  | other

def itemKey (toText : JsonValue ν → String) : JsonValue ν → Option String
  | .string s => some s
  | .null => none
  | v => some (toText v)

structure ObjectEnv (ν φ : Type) where
  fromStr : String → Option (JsonValue ν)
  toText : JsonValue ν → String
  ofInt : ℤ → ν
  ofFloat : φ → Option ν
  itemKey_ne : ∀ text items v, fromStr text = some (.array items) → v ∈ items →
    itemKey toText v ≠ some text

inductive ObjectError where
  | requiresEvenNumberOfArguments
  | keyCannotBeNull
  | keyMustBeAString
  | valueMustBeANumber
  | valueMustBeAStringNumberOrBoolean
  | failedToDeserializeJsonEntity (entity : String)
  | argumentsMustBeJsonArrays
  | notAStringArray

def chunkPairs {α : Type} : List α → List (α × α)
  | key :: value :: rest => (key, value) :: chunkPairs rest
  | _ => []

def constructKey : Slot φ → Except ObjectError String
  | .null => .error .keyCannotBeNull
  | .utf8 s => .ok s
  | _ => .error .keyMustBeAString

section Construct

variable (env : ObjectEnv ν φ) (keepNull : Bool)

def textValue (s : String) : JsonValue ν :=
  match env.fromStr s with
  | some v => v
  | none => .string s

def constructValue : Slot φ → Except ObjectError (Option (JsonValue ν))
  | .null => .ok (some .null)
  | .utf8 s => .ok (some (textValue env s))
  | .int64 i => .ok (some (.number (env.ofInt i)))
  | .float64 f =>
    match env.ofFloat f with
    | some n => .ok (some (.number n))
    | none => .error .valueMustBeANumber
  | .boolean b => .ok (some (.bool b))
  | .nullType => if keepNull then .ok (some .null) else .ok none
  | .other => .error .valueMustBeAStringNumberOrBoolean

def rowValue : Slot φ → Except ObjectError (Option (JsonValue ν))
  | .null => if keepNull then .ok (some .null) else .ok none
  | slot => constructValue env keepNull slot

def pairEntry (value : Slot φ → Except ObjectError (Option (JsonValue ν)))
    (pair : Slot φ × Slot φ) :
    Except ObjectError (Option (String × JsonValue ν)) := do
  let key ← constructKey pair.1
  let value ← value pair.2
  .ok (value.map fun v => (key, v))

def insertOption (object : JsonObject ν) : Option (String × JsonValue ν) → JsonObject ν
  | some (key, value) => object.insert key value
  | none => object

def insertPairs (value : Slot φ → Except ObjectError (Option (JsonValue ν)))
    (object : JsonObject ν) (pairs : List (Slot φ × Slot φ)) :
    Except ObjectError (JsonObject ν) :=
  pairs.foldlM (fun object pair => do
    let entry ← pairEntry value pair
    .ok (insertOption object entry)) object

def argColumns (numberRows : ℕ) (args : List (Columnar (Slot φ))) : List (List (Slot φ × Slot φ)) :=
  (chunkPairs args).map fun chunk =>
    (chunk.1.intoArray numberRows).zip (chunk.2.intoArray numberRows)

def objectConstruct (numberRows : ℕ) (args : List (Columnar (Slot φ))) :
    Except ObjectError (Columnar (JsonObject ν)) :=
  if args.isEmpty then .ok (.scalar ∅)
  else if args.length % 2 ≠ 0 then .error .requiresEvenNumberOfArguments
  else do
    let object ← (argColumns numberRows args).foldlM
      (fun object pairs => insertPairs (constructValue env keepNull) object pairs) ∅
    .ok (.scalar object)

def rowObject (values : List (Slot φ)) : Except ObjectError (JsonObject ν) :=
  if values.length % 2 ≠ 0 then .error .requiresEvenNumberOfArguments
  else insertPairs (rowValue env keepNull) ∅ (chunkPairs values)

end Construct

section Construct

variable {env : ObjectEnv ν φ} {keepNull kn : Bool}
  {value val : Slot φ → Except ObjectError (Option (JsonValue ν))}
  {pair p : Slot φ × Slot φ} {n : ℕ} {args ars : List (Columnar (Slot φ))}
  {cs : List (List (Slot φ × Slot φ))} {i : ℕ}

def entryOf (value : Slot φ → Except ObjectError (Option (JsonValue ν))) (pair : Slot φ × Slot φ) :
    Option (String × JsonValue ν) :=
  match pairEntry value pair with
  | .ok entry => entry
  | .error _ => none

lemma insertPairs_eq_ok_iff {o o' : JsonObject ν} {pairs : List (Slot φ × Slot φ)} :
    insertPairs val o pairs = .ok o' ↔ (∀ p ∈ pairs, ∃ entry, pairEntry val p = .ok entry) ∧
        o' = insertAll (entryOf val) o pairs := by
  rw [insertPairs, insertAll]
  induction pairs generalizing o with
  | nil =>
    rw [foldlM_nil, pure_eq_ok, foldl_nil, eq_comm]
    simp
  | cons p pairs ih =>
    rw [foldlM_cons, bind_eq_ok, forall_mem_cons, foldl_cons]
    cases hp : pairEntry val p with
    | error e =>
      constructor
      · rintro ⟨m, hm, -⟩
        cases hm
      · rintro ⟨⟨⟨entry, hen⟩, -⟩, -⟩
        cases hen
    | ok entry =>
      have hi : insertEntry (entryOf val) o p = insertOption o entry := by
        rw [insertEntry, entryOf, hp]
        cases entry with
        | none => rfl
        | some entry => rfl
      have he : ∃ entry', (Except.ok entry : Except ObjectError _) = .ok entry' :=
        ⟨entry, rfl⟩
      rw [hi, and_iff_right he, ← ih]
      constructor
      · rintro ⟨m, hm, h⟩
        cases hm
        exact h
      · intro h
        exact ⟨_, rfl, h⟩

lemma foldlM_insertPairs (cs : List (List (Slot φ × Slot φ))) (o : JsonObject ν) :
    cs.foldlM (fun o ps => insertPairs val o ps) o = insertPairs val o cs.flatten := by
  induction cs generalizing o with
  | nil => rfl
  | cons column cs ih =>
    rw [foldlM_cons, flatten_cons, insertPairs, insertPairs, foldlM_append]
    simp only [ih]
    rfl

lemma exists_pairEntry_iff : (∃ entry, pairEntry (rowValue env kn) p = .ok entry) ↔
    ∃ entry, pairEntry (constructValue env kn) p = .ok entry := by
  obtain ⟨k, s⟩ := p
  cases s with
  | null => cases kn <;> cases k <;> simp [pairEntry, constructKey, rowValue, constructValue,
      bind, Except.bind]
  | _ => rfl

def Dropped (keepNull : Bool) (pair : Slot φ × Slot φ) : Prop :=
  keepNull = false ∧ pair.2 = .null

lemma entryOf_rowValue (h : ¬ Dropped kn pair) :
    entryOf (rowValue env kn) pair = entryOf (constructValue env kn) pair := by
  obtain ⟨key, s⟩ := pair
  cases s with
  | null =>
    cases kn with
    | false => exact absurd ⟨rfl, rfl⟩ h
    | true => rfl
  | _ => rfl

lemma entryOf_of_dropped (h : Dropped kn p) : entryOf (rowValue env kn) p = none ∧
    ∀ e, entryOf (constructValue env kn) p = some e → e.2 = .null := by
  obtain ⟨key, slot⟩ := p
  obtain ⟨rfl, rfl⟩ := h
  cases key with
  | utf8 s => exact ⟨rfl, fun e he => by cases he; rfl⟩
  | _ => exact ⟨rfl, fun e he => by cases he⟩

lemma lookup_row_of_lastMatch
    (h : lastMatch (entryFor (entryOf (constructValue env kn)) k) (tableRow cs i) =
      some p) (hp : ¬ Dropped kn p) :
    (insertAll (entryOf (rowValue env kn)) ∅ (tableRow cs i)).lookup k =
      (entryOf (constructValue env kn) p).map Prod.snd := by
  have hi : ∀ p, entryFor (entryOf (rowValue env kn)) k p = true →
      entryFor (entryOf (constructValue env kn)) k p = true := by
    intro p he
    by_cases hd : Dropped kn p
    · rw [entryFor, (entryOf_of_dropped hd).1] at he
      simp at he
    · rwa [entryFor, entryOf_rowValue hd] at he
  have he : entryFor (entryOf (rowValue env kn)) k p = true := by
    rw [entryFor, entryOf_rowValue hp]
    exact (lastMatch_eq_some h).2
  rw [lookup_insertAll, lastMatch_of_imp hi h he, ← entryOf_rowValue hp]

lemma lookup_of_dropped {ps : List (Slot φ × Slot φ)}
    (hl : lastMatch (entryFor (entryOf (constructValue env kn)) k) ps = some p)
    (hp : Dropped kn p) :
    (insertAll (entryOf (constructValue env kn)) ∅ ps).lookup k = some .null := by
  have he := (lastMatch_eq_some hl).2
  rw [entryFor, decide_eq_true_eq] at he
  obtain ⟨e, he, -⟩ := map_eq_some_iff.mp he
  rw [lookup_insertAll, hl]
  simp only [he, map_some, (entryOf_of_dropped hp).2 e he]

lemma sameObject_rows_iff (hn : ∀ c ∈ cs, c.length = n) :
    (∀ i < n, SameObject (insertAll (entryOf (constructValue env kn)) ∅ cs.flatten)
        (insertAll (entryOf (rowValue env kn)) ∅ (tableRow cs i))) ↔ (∀ i < n, ∀ j < n,
        SameObject (insertAll (entryOf (rowValue env kn)) ∅ (tableRow cs i))
          (insertAll (entryOf (rowValue env kn)) ∅ (tableRow cs j))) ∧
      ∀ k p, lastMatch (entryFor (entryOf (constructValue env kn)) k) cs.flatten =
          some p → Dropped kn p →
        ∀ i < n, (insertAll (entryOf (rowValue env kn)) ∅ (tableRow cs i)).lookup k =
          some .null := by
  constructor
  · intro h
    refine ⟨fun i hi j hj k => (h i hi k).symm.trans (h j hj k), ?_⟩
    intro k p hl hp i hi
    rw [← h i hi k]
    exact lookup_of_dropped hl hp
  · rintro ⟨ha, hnul⟩ i hi k
    cases hl : lastMatch (entryFor (entryOf (constructValue env kn)) k) cs.flatten with
    | none =>
      -- no row has an entry for the key
      have hr : lastMatch (entryFor (entryOf (rowValue env kn)) k) (tableRow cs i) = none := by
        rw [lastMatch_eq_none_iff] at hl ⊢
        intro p hp
        by_cases hd : Dropped kn p
        · rw [entryFor, (entryOf_of_dropped hd).1]
          simp
        · rw [entryFor, entryOf_rowValue hd]
          exact hl p (mem_flatten_of_mem_tableRow hp)
      rw [lookup_insertAll, lookup_insertAll, hl, hr]
    | some p =>
      by_cases hp : Dropped kn p
      · rw [lookup_of_dropped hl hp, hnul k p hl hp i hi]
      · obtain ⟨j, hj, hr⟩ := exists_lastMatch_tableRow hn hl
        rw [ha i hi j hj k, lookup_row_of_lastMatch hr hp, lookup_insertAll, hl]

def rowValues (args : List (Columnar (Slot φ))) (i : ℕ) : List (Slot φ) :=
  args.filterMap fun arg => arg.row? i

lemma length_rowValues (ha : ∀ a ∈ ars, a.HasRows n) (hi : i < n) :
    (rowValues ars i).length = ars.length := by
  rw [rowValues, length_filterMap_eq_countP, countP_eq_length]
  intro a har
  exact isSome_iff_exists.mpr (Columnar.exists_row? (ha a har) hi)

lemma chunkPairs_rowValues (ha : ∀ a ∈ ars, a.HasRows n) (hi : i < n) :
    chunkPairs (rowValues ars i) = tableRow (argColumns n ars) i := by
  have hr : ∀ a ∈ ars, ∃ slot, a.row? i = some slot := fun a har =>
    Columnar.exists_row? (ha a har) hi
  clear ha
  induction ars using chunkPairs.induct with
  | case1 ky val rest ih =>
    obtain ⟨k, hk⟩ := hr ky (by simp)
    obtain ⟨v, hv⟩ := hr val (by simp)
    have hp : ((ky.intoArray n).zip (val.intoArray n))[i]? = some (k, v) := by
      rw [getElem?_zip_eq_some]
      simp only [Columnar.getElem?_intoArray _ hi]
      exact ⟨hk, hv⟩
    have hres := ih fun a har => hr a (by simp [har])
    simp only [rowValues, argColumns, tableRow, filterMap_cons, hk, hv, chunkPairs,
      map_cons, hp] at hres ⊢
    rw [hres]
  | case2 ars ha =>
    cases ars with
    | nil => rfl
    | cons a ars =>
      cases ars with
      | nil =>
        obtain ⟨slot, hs⟩ := hr a (by simp)
        simp [rowValues, hs, chunkPairs, argColumns, tableRow]
      | cons val ars => exact absurd rfl (ha a val ars)

lemma length_argColumns (ha : ∀ arg ∈ ars, arg.HasRows n) :
    ∀ c ∈ argColumns n ars, c.length = n := by
  induction ars using chunkPairs.induct with
  | case1 key val rest ih =>
    rw [argColumns, chunkPairs, map_cons, forall_mem_cons]
    refine ⟨?_, ih fun arg har => ha arg (by simp [har])⟩
    rw [length_zip, Columnar.length_intoArray (ha key (by simp)),
      Columnar.length_intoArray (ha val (by simp)), min_self]
  | case2 ars ha' =>
    rw [argColumns, chunkPairs]
    · exact forall_mem_nil _
    · exact ha'

def ConstructsRows (env : ObjectEnv ν φ) (keepNull : Bool) (n : ℕ)
    (args : List (Columnar (Slot φ))) : Prop :=
  ∀ i < n, ∃ result o ro, objectConstruct env keepNull n args = .ok result ∧
    result.row? i = some o ∧ rowObject env keepNull (rowValues args i) = .ok ro ∧ SameObject o ro

def pairFor (k : String) : Slot φ × Slot φ → Bool
  | (.utf8 _, .nullType) => false
  | (.utf8 s, _) => s = k
  | _ => false

/-- All rows have the same object, and a key that ends with a typed null holds null anyway. -/
def AllRowsAlike (env : ObjectEnv ν φ) (keepNull : Bool) (n : ℕ)
    (args : List (Columnar (Slot φ))) : Prop :=
  (∀ i < n, ∀ j < n, ∀ o o', rowObject env keepNull (rowValues args i) = .ok o →
      rowObject env keepNull (rowValues args j) = .ok o' → SameObject o o') ∧
  (keepNull = false → ∀ k key, lastMatch (pairFor k) (argColumns n args).flatten =
      some (key, .null) →
    ∀ i < n, ∀ o, rowObject env keepNull (rowValues args i) = .ok o → o.lookup k = some .null)

lemma rowObject_eq_ok_iff {o : JsonObject ν}
    (ha : ∀ arg ∈ ars, arg.HasRows n) (hi : i < n) : rowObject env kn (rowValues ars i) = .ok o ↔
      ars.length % 2 = 0 ∧
        (∀ p ∈ tableRow (argColumns n ars) i, ∃ e, pairEntry (constructValue env kn) p = .ok e) ∧
        o = insertAll (entryOf (rowValue env kn)) ∅ (tableRow (argColumns n ars) i) := by
  rw [rowObject, length_rowValues ha hi, chunkPairs_rowValues ha hi]
  split_ifs with hodd
  · simp [hodd]
  · simp only [insertPairs_eq_ok_iff, exists_pairEntry_iff, not_not.mp hodd, true_and]

lemma objectConstruct_eq (hev : ars.length % 2 = 0)
    (hp : ∀ p ∈ (argColumns n ars).flatten, ∃ e, pairEntry (constructValue env kn) p = .ok e) :
    objectConstruct env kn n ars = .ok (.scalar
      (insertAll (entryOf (constructValue env kn)) ∅ (argColumns n ars).flatten)) := by
  rw [objectConstruct]
  split_ifs with he hodd
  · rw [List.isEmpty_iff] at he
    subst he
    rfl
  · exact absurd hev hodd
  · rw [foldlM_insertPairs, insertPairs_eq_ok_iff.mpr ⟨hp, rfl⟩]
    rfl

lemma entryFor_eq_pairFor (h : ∃ e, pairEntry (constructValue env false) pair = .ok e) :
    entryFor (entryOf (constructValue env false)) k pair = pairFor k pair := by
  obtain ⟨e, he⟩ := h
  obtain ⟨ky, sl⟩ := pair
  cases ky with
  | utf8 s =>
    cases sl with
    | float64 f =>
      simp only [entryFor, entryOf, he, pairFor]
      cases hf : env.ofFloat f with
      | none => simp [pairEntry, constructKey, constructValue, hf, bind, Except.bind] at he
      | some n =>
        simp only [pairEntry, constructKey, constructValue, hf, bind, Except.bind,
          map_some, Except.ok.injEq] at he
        simp [← he]
    | other => cases he
    | _ => simp [entryFor, entryOf, pairEntry, constructKey, constructValue, pairFor, bind,
        Except.bind]
  | _ => cases he

lemma constructsRows_iff (ha : ∀ arg ∈ args, arg.HasRows n)
    (hrw : ∀ i < n, ∃ o, rowObject env kn (rowValues args i) = .ok o) :
    ConstructsRows env kn n args ↔ AllRowsAlike env kn n args := by
  rcases Nat.eq_zero_or_pos n with rfl | hn
  · simp [ConstructsRows, AllRowsAlike]
  have hc := length_argColumns ha
  obtain ⟨o, ho⟩ := hrw 0 hn
  have he : args.length % 2 = 0 := ((rowObject_eq_ok_iff ha hn).mp ho).1
  have hpai : ∀ p ∈ (argColumns n args).flatten,
      ∃ entry, pairEntry (constructValue env kn) p = .ok entry := by
    intro p hp
    obtain ⟨i, hi, hm⟩ := exists_mem_tableRow hc hp
    obtain ⟨o, ho⟩ := hrw i hi
    exact ((rowObject_eq_ok_iff ha hi).mp ho).2.1 p hm
  have hr : ∀ i < n, ∀ o, rowObject env kn (rowValues args i) = .ok o ↔
      o = insertAll (entryOf (rowValue env kn)) ∅ (tableRow (argColumns n args) i) := by
    intro i hi o
    rw [rowObject_eq_ok_iff ha hi, and_iff_right he, and_iff_right]
    exact fun p hp => hpai p (mem_flatten_of_mem_tableRow hp)
  have hcon : ConstructsRows env kn n args ↔ ∀ i < n, SameObject
        (insertAll (entryOf (constructValue env kn)) ∅ (argColumns n args).flatten)
        (insertAll (entryOf (rowValue env kn)) ∅ (tableRow (argColumns n args) i)) := by
    rw [ConstructsRows, objectConstruct_eq he hpai]
    refine forall₂_congr fun i hi => ?_
    simp only [hr i hi]
    constructor
    · rintro ⟨_, _, _, ⟨⟩, ⟨⟩, rfl, h⟩
      exact h
    · intro h
      exact ⟨_, _, _, rfl, rfl, rfl, h⟩
  rw [hcon, sameObject_rows_iff hc, AllRowsAlike]
  refine and_congr ?_ ?_
  · refine forall₂_congr fun i hi => forall₂_congr fun j hj => ?_
    simp only [hr i hi, hr j hj]
    constructor
    · rintro h _ _ rfl rfl
      exact h
    · intro h
      exact h _ _ rfl rfl
  · cases kn with
    | true => simp [Dropped]
    | false =>
      simp only [Dropped, true_and, true_imp_iff]
      refine forall_congr' fun k => ?_
      rw [lastMatch_congr fun p hp => entryFor_eq_pairFor (hpai p hp)]
      constructor
      · intro h key hl i hi o ho
        rw [(hr i hi o).mp ho]
        exact h _ hl rfl i hi
      · rintro h ⟨key, slot⟩ hl rfl i hi
        exact h key hl i hi _ ((hr i hi _).mpr rfl)

end Construct

def objectEntry (entry : Option String × JsonValue ν) : Option (String × JsonValue ν) :=
  entry.1.map fun key => (key, entry.2)

def createObject (keys : List (Option String)) (values : List (JsonValue ν)) :
    Option (JsonObject ν) :=
  if keys.length ≠ values.length then none
  else some (insertAll objectEntry ∅ (keys.zip values))

def stringEntry : Slot φ → Except ObjectError (Option String)
  | .null => .ok none
  | .utf8 s => .ok (some s)
  | _ => .error .notAStringArray

section Arrays

variable (env : ObjectEnv ν φ)

def arraysToObjectScalar : Slot φ → Slot φ → Except ObjectError (Option (JsonObject ν))
  | .utf8 keysStr, .utf8 valuesStr =>
    match env.fromStr keysStr with
    | none => .error (.failedToDeserializeJsonEntity "keys")
    | some keys =>
      match env.fromStr valuesStr with
      | none => .error (.failedToDeserializeJsonEntity "values")
      | some values =>
        match keys, values with
        | .array keyArray, .array valueArray =>
          .ok (createObject (keyArray.map (itemKey env.toText)) valueArray)
        | _, _ => .error .argumentsMustBeJsonArrays
  | _, _ => .ok none

def columnValue : Option String → JsonValue ν
  | none => .null
  | some s => textValue env s

def arraysToObject :
    Columnar (Slot φ) → Columnar (Slot φ) → Except ObjectError (Columnar (Option (JsonObject ν)))
  | .array keysArray, .array valuesArray => do
    let keys ← keysArray.mapM stringEntry
    let values ← valuesArray.mapM stringEntry
    .ok (.array ((keys.zip values).map fun row =>
      if row.1 = none ∧ row.2 = none then none
      else createObject keys (values.map (columnValue env))))
  | .scalar keysValue, .scalar valuesValue => do
    let object ← arraysToObjectScalar env keysValue valuesValue
    .ok (.scalar object)
  | _, _ => .error .argumentsMustBeJsonArrays

def SameRow : Option (JsonObject ν) → Option (JsonObject ν) → Prop
  | some object, some object' => SameObject object object'
  | none, none => True
  | _, _ => False

def ArraysRow (keys values : Columnar (Slot φ)) (i : ℕ) (object : Option (JsonObject ν)) : Prop :=
  ∃ k v, keys.row? i = some k ∧ values.row? i = some v ∧ arraysToObjectScalar env k v = .ok object

def ArraysToRows (n : ℕ) (keys values : Columnar (Slot φ)) : Prop :=
  ∀ i < n, ∃ result o ro, arraysToObject env keys values = .ok result ∧
    result.row? i = some o ∧ ArraysRow env keys values i ro ∧ SameRow o ro

end Arrays

/-- Two scalars, two columns of NULL, or no rows. -/
def ScalarsOrNull (n : ℕ) : Columnar (Slot φ) → Columnar (Slot φ) → Prop
  | .scalar _, .scalar _ => True
  | .array keys, .array values => (∀ k ∈ keys, k = .null) ∧ ∀ v ∈ values, v = .null
  | _, _ => n = 0

section Arrays

variable {env : ObjectEnv ν φ} {keys ks : List (Option String)} {values vs : List (JsonValue ν)}

lemma lookup_insertAll_ne_none (hlen : ks.length = values.length) (hk : some k ∈ ks) :
    (insertAll objectEntry ∅ (ks.zip values)).lookup k ≠ none := by
  rw [lookup_insertAll]
  cases hl : lastMatch (entryFor objectEntry k) (ks.zip values) with
  | none =>
    rw [lastMatch_eq_none_iff] at hl
    obtain ⟨i, hi, hget⟩ := getElem_of_mem hk
    have hm : (some k, values[i]) ∈ ks.zip values := by
      rw [← hget]
      exact mem_iff_getElem.mpr ⟨i, by simp [hi, ← hlen], by simp⟩
    have hen := hl _ hm
    simp [entryFor, objectEntry] at hen
  | some entry =>
    have hen := (lastMatch_eq_some hl).2
    rw [entryFor, decide_eq_true_eq] at hen
    obtain ⟨e, he, -⟩ := map_eq_some_iff.mp hen
    simp [he]

lemma lookup_insertAll_eq_none (hk : some k ∉ ks) :
    (insertAll objectEntry ∅ (ks.zip vs)).lookup k = none := by
  have hl : lastMatch (entryFor objectEntry k) (ks.zip vs) = none := by
    rw [lastMatch_eq_none_iff]
    rintro ⟨ky, val⟩ hm
    have hky : ky ≠ some k := fun h => hk (h ▸ (of_mem_zip hm).1)
    cases ky with
    | none => simp [entryFor, objectEntry]
    | some ky => simpa [entryFor, objectEntry] using hky
  rw [lookup_insertAll, hl]
  rfl

lemma arraysToObjectScalar_eq_some {k v : Slot φ} {o : JsonObject ν}
    (h : arraysToObjectScalar env k v = .ok (some o)) :
    ∃ s ka va, k = .utf8 s ∧ env.fromStr s = some (.array ka) ∧
      o = insertAll objectEntry ∅ ((ka.map (itemKey env.toText)).zip va) := by
  rw [arraysToObjectScalar.eq_def] at h
  split at h
  case h_2 => cases h
  case h_1 s s' =>
    split at h
    case h_1 => cases h
    case h_2 ks hk =>
      split at h
      case h_1 => cases h
      case h_2 vs hv =>
        split at h
        case h_2 => cases h
        case h_1 ka va =>
          rw [Except.ok.injEq, createObject] at h
          split_ifs at h with hl
          rw [some.injEq] at h
          exact ⟨s, ka, va, rfl, hk, h.symm⟩

lemma not_sameRow_createObject {k v : Slot φ} {t : Option String} {object : Option (JsonObject ν)}
    (hl : ks.length = vs.length) (hk : stringEntry k = .ok t) (hm : t ∈ ks)
    (ho : arraysToObjectScalar env k v = .ok object) : ¬ SameRow (createObject ks vs) object := by
  rw [createObject, if_neg (not_not.mpr hl)]
  cases object with
  | none => exact id
  | some object =>
    intro hsam
    obtain ⟨s, ka, valueArray, rfl, hkey, rfl⟩ := arraysToObjectScalar_eq_some ho
    cases hk
    have hn : some s ∉ ka.map (itemKey env.toText) := by
      intro hs
      obtain ⟨x, hi, heq⟩ := mem_map.mp hs
      exact env.itemKey_ne s ka x hkey hi heq
    refine lookup_insertAll_ne_none hl hm ?_
    rw [hsam s, lookup_insertAll_eq_none hn]

lemma eq_null_of_stringEntry {s : Slot φ} (h : stringEntry s = .ok none) : s = .null := by
  cases s with
  | null => rfl
  | _ => cases h

lemma null_of_arraysToObject {n i : ℕ} {ks vs : List (Slot φ)} (hkey : ks.length = n)
    (hval : vs.length = n) {r : Columnar (Option (JsonObject ν))} {o ro : Option (JsonObject ν)}
    (hr : arraysToObject env (.array ks) (.array vs) = .ok r) (ho : r.row? i = some o)
    (hrw : ArraysRow env (.array ks) (.array vs) i ro) (hs : SameRow o ro) :
    ks[i]? = some .null ∧ vs[i]? = some .null := by
  rw [arraysToObject, bind_eq_ok] at hr
  obtain ⟨kt, hkt, hr⟩ := hr
  rw [bind_eq_ok] at hr
  obtain ⟨vt, hvt, hr⟩ := hr
  rw [Except.ok.injEq] at hr
  have hl : kt.length = (vt.map (columnValue env)).length := by
    rw [length_map, length_of_mapM_eq_ok hkt, length_of_mapM_eq_ok hvt, hkey, hval]
  obtain ⟨k, v, hk, hv, hro⟩ := hrw
  obtain ⟨t, ht, hkT⟩ := getElem?_of_mapM_eq_ok hkt hk
  obtain ⟨t', ht', hvT⟩ := getElem?_of_mapM_eq_ok hvt hv
  have hz : (kt.zip vt)[i]? = some (t, t') :=
    getElem?_zip_eq_some.mpr ⟨ht, ht'⟩
  rw [← hr, Columnar.row?, getElem?_map, hz, map_some, some.injEq]
    at ho
  split_ifs at ho with hn
  · obtain ⟨rfl, rfl⟩ := hn
    rw [eq_null_of_stringEntry hkT] at hk
    rw [eq_null_of_stringEntry hvT] at hv
    exact ⟨hk, hv⟩
  · rw [← ho] at hs
    exact absurd hs (not_sameRow_createObject hl hkT (mem_of_getElem? ht) hro)

lemma arraysToObject_replicate (n : ℕ) :
    arraysToObject env (.array (List.replicate n .null)) (.array (List.replicate n .null)) =
      .ok (.array (List.replicate n none)) := by
  have hmm : (List.replicate n (Slot.null : Slot φ)).mapM stringEntry =
      .ok ((List.replicate n (Slot.null : Slot φ)).map fun _ => none) := by
    refine mapM_eq_ok_map fun slot hs => ?_
    rw [eq_of_mem_replicate hs]
    rfl
  rw [arraysToObject, hmm, map_replicate]
  simp [bind, Except.bind, zip_replicate']

lemma arraysToRows_columns_iff {n : ℕ} {ks vs : List (Slot φ)} (hke : ks.length = n)
    (hva : vs.length = n) :
    ArraysToRows env n (.array ks) (.array vs) ↔ (∀ k ∈ ks, k = .null) ∧ ∀ v ∈ vs, v = .null := by
  constructor
  · intro hrw
    have hn : ∀ i < n, ks[i]? = some .null ∧ vs[i]? = some .null := by
      intro i hi
      obtain ⟨result, object, rowObj, hr, ho, hrow, hs⟩ := hrw i hi
      exact null_of_arraysToObject hke hva hr ho hrow hs
    constructor
    · intro k hk
      obtain ⟨i, hi⟩ := mem_iff_getElem?.mp hk
      obtain ⟨hlt, -⟩ := List.getElem?_eq_some_iff.mp hi
      exact some.inj (hi.symm.trans (hn i (hke ▸ hlt)).1)
    · intro v hv
      obtain ⟨i, hi⟩ := mem_iff_getElem?.mp hv
      obtain ⟨hlt, -⟩ := List.getElem?_eq_some_iff.mp hi
      exact some.inj (hi.symm.trans (hn i (hva ▸ hlt)).2)
  · rintro ⟨hk, hv⟩ i hi
    have hget : (List.replicate n (Slot.null : Slot φ))[i]? = some .null :=
      getElem?_replicate_of_lt hi
    rw [eq_replicate_iff.mpr ⟨hke, hk⟩, eq_replicate_iff.mpr ⟨hva, hv⟩]
    exact ⟨_, none, none, arraysToObject_replicate n, getElem?_replicate_of_lt hi,
      ⟨.null, .null, hget, hget, rfl⟩, trivial⟩

lemma arraysToRows_iff {n : ℕ} {ks values : Columnar (Slot φ)}
    (hkey : ks.HasRows n) (hval : values.HasRows n)
    (hrow : ∀ i < n, ∃ o, ArraysRow env ks values i o) :
    ArraysToRows env n ks values ↔ ScalarsOrNull n ks values := by
  have hm : (∀ r, arraysToObject env ks values ≠ .ok r) →
      (ArraysToRows env n ks values ↔ n = 0) := by
    intro he
    constructor
    · intro h
      by_contra hn
      obtain ⟨r, -, -, hr, -⟩ := h 0 (Nat.pos_of_ne_zero hn)
      exact he r hr
    · rintro rfl i hi
      exact absurd hi (Nat.not_lt_zero i)
  cases ks with
  | scalar k =>
    cases values with
    | scalar v =>
      refine iff_of_true (fun i hi => ?_) trivial
      obtain ⟨o, k', v', hk, hv, ho⟩ := hrow i hi
      cases hk
      cases hv
      refine ⟨.scalar o, o, o, ?_, rfl, ⟨k, v, rfl, rfl, ho⟩, ?_⟩
      · rw [arraysToObject, ho]
        rfl
      · cases o with
        | none => trivial
        | some o => exact fun _ => rfl
    | array values =>
      refine hm fun r hr => ?_
      cases hr
  | array ks =>
    cases values with
    | scalar v =>
      refine hm fun r hr => ?_
      cases hr
    | array values => exact arraysToRows_columns_iff hkey hval

/-! ### Main result -/

/-- **The object constructors are row by row** exactly if all rows are alike and the arrays are
scalars, or NULL. -/
theorem objectConstructors_iff {keepNull : Bool} {n : ℕ} {args : List (Columnar (Slot φ))}
    {keys values : Columnar (Slot φ)} (hargs : ∀ arg ∈ args, arg.HasRows n)
    (hkeys : keys.HasRows n) (hvalues : values.HasRows n)
    (hrows : ∀ i < n, ∃ object, rowObject env keepNull (rowValues args i) = .ok object)
    (harrays : ∀ i < n, ∃ object, ArraysRow env keys values i object) :
    ConstructsRows env keepNull n args ∧ ArraysToRows env n keys values ↔
      AllRowsAlike env keepNull n args ∧ ScalarsOrNull n keys values :=
  and_congr (constructsRows_iff hargs hrows) (arraysToRows_iff hkeys hvalues harrays)

end Arrays

def sampleFromStr (text : String) : Option (JsonValue ℤ) :=
  if text = "[\"a\"]" then some (.array [.string "a"])
  else if text = "[1]" then some (.array [.number 1])
  else none

lemma sampleFromStr_itemKey_ne (text : String) (xs : List (JsonValue ℤ)) (v : JsonValue ℤ)
    (h : sampleFromStr text = some (.array xs)) (hv : v ∈ xs) :
    itemKey (fun _ => "1") v ≠ some text := by
  rw [sampleFromStr] at h
  split_ifs at h with ha ho
  · cases h
    rw [mem_singleton.mp hv, ha]
    decide
  · cases h
    rw [mem_singleton.mp hv, ho]
    decide

def sampleEnv : ObjectEnv ℤ Unit where
  fromStr := sampleFromStr
  toText _ := "1"
  ofInt i := i
  ofFloat _ := none
  itemKey_ne := sampleFromStr_itemKey_ne

theorem objectConstructors_two_rows :
    ConstructsRows sampleEnv false 2 [.scalar (.utf8 "a"), .array [.int64 1, .int64 1]] ∧
      ArraysToRows sampleEnv 2 (.scalar (.utf8 "[\"a\"]")) (.scalar (.utf8 "[1]")) := by
  have hr : ∀ i < 2, rowObject sampleEnv false
      (rowValues [.scalar (.utf8 "a"), .array [.int64 1, .int64 1]] i) =
        .ok (AList.singleton "a" (.number 1)) := by
    intro i hi
    match i, hi with
    | 0, _ => rfl
    | 1, _ => rfl
  refine (objectConstructors_iff ?_ ?_ ?_ ?_ ?_).mpr ⟨⟨?_, ?_⟩, trivial⟩
  · simp [Columnar.HasRows]
  · trivial
  · trivial
  · exact fun i hi => ⟨_, hr i hi⟩
  · exact fun i hi => ⟨_, _, _, rfl, rfl, rfl⟩
  · intro i hi j hj o o' ho ho'
    rw [hr i hi, Except.ok.injEq] at ho
    rw [hr j hj, Except.ok.injEq] at ho'
    exact ho ▸ ho' ▸ fun _ => rfl
  · intro _ k key hl
    have hm := (lastMatch_eq_some hl).1
    simp [argColumns, chunkPairs, Columnar.intoArray] at hm

theorem objectConstructors_mix_rows :
    (∃ object rowObj, objectConstruct sampleEnv false 2
          [.scalar (.utf8 "a"), .array [.int64 1, .int64 2]] = .ok (.scalar object) ∧
        object.lookup "a" = some (.number 2) ∧
        rowObject sampleEnv false [.utf8 "a", .int64 1] = .ok rowObj ∧
        rowObj.lookup "a" = some (.number 1)) ∧
      (∃ object rowObj, objectConstruct sampleEnv false 1
          [.scalar (.utf8 "a"), .scalar .null] = .ok (.scalar object) ∧
        object.lookup "a" = some .null ∧
        rowObject sampleEnv false [.utf8 "a", .null] = .ok rowObj ∧ rowObj.lookup "a" = none) ∧
      ∃ object rowObj, arraysToObject sampleEnv (.array [.utf8 "[\"a\"]"]) (.array [.utf8 "[1]"]) =
          .ok (.array [some object]) ∧
        object.lookup "a" = none ∧ object.lookup "[\"a\"]" = some (.array [.number 1]) ∧
        arraysToObjectScalar sampleEnv (.utf8 "[\"a\"]") (.utf8 "[1]") = .ok (some rowObj) ∧
        rowObj.lookup "a" = some (.number 1) := by
  exact ⟨⟨_, _, rfl, rfl, rfl, rfl⟩, ⟨_, _, rfl, rfl, rfl, rfl⟩, _, _, rfl, rfl, rfl, rfl, rfl⟩

end Rustice
