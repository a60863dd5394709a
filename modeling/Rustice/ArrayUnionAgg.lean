import Rustice.Fallible
import Rustice.JsonPath
import Rustice.PartialAggregation

/-!
# `ARRAY_UNION_AGG`

The elements of the arrays of a group are kept as texts. The type of the last element that was
seen decides how all of them are read back.
-/

namespace Rustice

open List

inductive DType where
  | boolean
  | float64
  | utf8
  | semiStructured

def DType.code : DType → ℕ
  | boolean => 0
  | float64 => 1
  | utf8 => 2
  | semiStructured => 3

def DType.ofCode : ℕ → Option DType
  | 0 => some boolean
  | 1 => some float64
  | 2 => some utf8
  | 3 => some semiStructured
  | _ => none

open DType

inductive UnionError where
  | failedToSerializeValue
  | onlySupportsJsonArray
  | onlySupportsBooleanFloat64AndUtf8
  | failedToParseBoolean
  | failedToParseFloat
  | rowOutOfBounds

variable {ν φ : Type} {v : JsonValue ν}

def JsonValue.dtype : JsonValue ν → Option DType
  | .null => none
  | .bool _ => some .boolean
  | .number _ => some .float64
  | .string _ => some .utf8
  | .array _ => some .semiStructured
  | .object _ => some .semiStructured

open JsonValue

structure UnionOps (ν φ : Type) where
  fromStr : String → Option (JsonValue ν)
  toText : JsonValue ν → String
  parseF64 : String → Option φ
  isIntegral : φ → Bool
  asI64 : φ → ℤ
  ofI64 : ℤ → ν
  ofF64 : φ → Option ν

structure UnionAccumulator where
  values : List String
  hash : List String
  dataType : Option DType
  mem_hash : ∀ text, text ∈ hash ↔ text ∈ values

def UnionAccumulator.new : UnionAccumulator := ⟨[], [], none, fun _ => Iff.rfl⟩

def UnionAccumulator.extend (acc : UnionAccumulator) (dataType : Option DType) (buf : List String) :
    UnionAccumulator where
  values := acc.values ++ buf
  hash := buf.reverse ++ acc.hash
  dataType := dataType
  mem_hash text := by rw [mem_append, mem_append, mem_reverse, acc.mem_hash, or_comm]

namespace UnionOps

variable (ops : UnionOps ν φ)

def pushElement (hash : List String) (st : Option DType × List String) (v : JsonValue ν) :
    Option DType × List String :=
  match v.dtype with
  | none => st
  | some dataType =>
    (some dataType, if ops.toText v ∈ hash then st.2 else st.2 ++ [ops.toText v])

def updateRow (acc : UnionAccumulator) : Option String → Except UnionError UnionAccumulator
  | none => .ok acc
  | some text =>
    match ops.fromStr text with
    | none => .error .failedToSerializeValue
    | some (.array items) =>
      let (dataType, buf) := items.foldl (ops.pushElement acc.hash) (acc.dataType, [])
      .ok (acc.extend dataType buf)
    | some _ => .error .onlySupportsJsonArray

def mergedType (acc : UnionAccumulator) : Option ℕ → Except UnionError (Option DType)
  | none => .ok acc.dataType
  | some code =>
    match ofCode code with
    | some dataType => .ok (some dataType)
    | none => .error .onlySupportsBooleanFloat64AndUtf8

/-- Only the first row of the states is read. -/
def mergeBatch (acc : UnionAccumulator) :
    List (List String × Option ℕ) → Except UnionError UnionAccumulator
  | [] => .error .rowOutOfBounds
  | (values, code) :: _ => do
    let dataType ← mergedType acc code
    return acc.extend dataType (values.filter (· ∉ acc.hash))

def decodeFloat (text : String) : Except UnionError (JsonValue ν) :=
  match ops.parseF64 text with
  | none => .error .failedToParseFloat
  | some f =>
    if ops.isIntegral f then .ok (.number (ops.ofI64 (ops.asI64 f)))
    else
      match ops.ofF64 f with
      | some n => .ok (.number n)
      | none => .error .failedToParseFloat

def decode (dataType : Option DType) (text : String) : Except UnionError (JsonValue ν) :=
  match dataType with
  | none => .ok (.string text)
  | some .boolean =>
    match parseBool text with
    | some b => .ok (.bool b)
    | none => .error .failedToParseBoolean
  | some .float64 => ops.decodeFloat text
  | some .utf8 => .ok (.string text)
  | some .semiStructured =>
    match ops.fromStr text with
    | some v => .ok v
    | none => .error .failedToSerializeValue

/-- `ARRAY_UNION_AGG`; the result is the array of the values. -/
def arrayUnionAgg : FallibleAggregate (List (Option String)) UnionAccumulator
    (List String × Option ℕ) (List (JsonValue ν)) UnionError where
  new := .new
  updateBatch acc rows := rows.foldlM ops.updateRow acc
  state acc := (acc.values, acc.dataType.map code)
  mergeBatch := mergeBatch
  evaluate acc := acc.values.mapM (ops.decode acc.dataType)

end UnionOps

open UnionOps

def UnionOps.IsElement (ops : UnionOps ν φ) (v : JsonValue ν) : Prop :=
  ∃ text items, ops.fromStr text = some (.array items) ∧ v ∈ items

/-- `serde_json`: its equality, which does not see the order of the fields of an object, and its
texts. They are read back, only booleans have theirs, and that of a string is longer than the
string. A number that comes out of the float decoding equals no other one and is left by it. -/
structure UnionEnv (ν φ : Type) extends UnionOps ν φ where
  same : JsonValue ν → JsonValue ν → Bool
  same_self : ∀ v, same v v = true
  same_bool : ∀ v b, same v (.bool b) = true → v = .bool b
  same_string : ∀ v s, same v (.string s) = true → v = .string s
  fromStr_toText : ∀ v, toUnionOps.IsElement v → fromStr (toText v) = some v
  parseBool_toText : ∀ v b, toUnionOps.IsElement v →
    (parseBool (toText v) = some b ↔ v = .bool b)
  length_lt_toText : ∀ s, toUnionOps.IsElement (.string s) → s.length < (toText (.string s)).length
  decodeFloat_same : ∀ u v w, toUnionOps.IsElement u → toUnionOps.IsElement v →
    toUnionOps.decodeFloat (toText u) = .ok w → same v w = true →
      toUnionOps.decodeFloat (toText v) = .ok v

structure ArrayRow (env : UnionEnv ν φ) where
  text : String
  items : List (JsonValue ν)
  reads : env.fromStr text = some (.array items)
  ne_null : .null ∉ items

namespace ArrayRow

variable {env : UnionEnv ν φ}

def texts (row : ArrayRow env) : List String := row.items.map env.toText

/-- How many elements of the array are equal to `v` as JSON. -/
def multiplicity (row : ArrayRow env) (v : JsonValue ν) : ℕ := row.items.countP (env.same v)

/-- The elements of which no array before has the text, nor is it in `seen`. -/
def newItems (seen : List String) : List (ArrayRow env) → List (JsonValue ν)
  | [] => []
  | row :: rows => row.items.filter (env.toText · ∉ seen) ++ newItems (row.texts ++ seen) rows

end ArrayRow

open ArrayRow

/-- The rows of a group, in the batches of the partial accumulators of the calls. -/
abbrev UnionCalls (env : UnionEnv ν φ) := List (List (List (List (ArrayRow env))))

namespace UnionCalls

variable {env : UnionEnv ν φ} (calls : UnionCalls env)

def rows : List (ArrayRow env) := calls.flatten.flatten.flatten

def run : Except UnionError (List (JsonValue ν)) :=
  env.arrayUnionAgg.run (calls.map (map (map (map fun row => some row.text))))

/-- The array that has `v` most often has it `n` times. -/
def IsMaximum (v : JsonValue ν) (n : ℕ) : Prop :=
  (∀ row ∈ calls.rows, row.multiplicity v ≤ n) ∧ ∃ row ∈ calls.rows, row.multiplicity v = n

/-- The result has each element as often as the array that has it most often, and no others. -/
def IsUnion : Prop :=
  ∃ result, calls.run = .ok result ∧
    (∀ v ∈ result, ∃ row ∈ calls.rows, ∃ w ∈ row.items, env.same v w = true) ∧
    ∀ row ∈ calls.rows, ∀ v ∈ row.items, calls.IsMaximum v (result.countP (env.same v))

/-- The rows that the calls read, in the order in which they do. -/
def readRows : List (ArrayRow env) := (firstRows calls).flatten.flatten

/-- Whether the type of the last element is right for all of them. -/
def DecodesAll : Prop :=
  match (calls.readRows.flatMap items).getLast? with
  | none => True
  | some (.bool _) => ∀ row ∈ calls.readRows, ∀ v ∈ row.items, ∃ b, v = .bool b
  | some (.number _) =>
    ∀ row ∈ calls.readRows, ∀ v ∈ row.items, env.decodeFloat (env.toText v) = .ok v
  | some (.string _) => False
  | some _ => True

/-- The arrays that are read have each element as often as the one that has it most often, if they
count only the elements with a text that none of them had before. -/
def UnionCondition : Prop :=
  [] ∉ calls ∧ calls.DecodesAll ∧ ∀ row ∈ calls.rows, ∀ v ∈ row.items,
    calls.IsMaximum v ((newItems [] calls.readRows).countP (env.same v))

end UnionCalls

def typeAfter (dataType : Option DType) (items : List (JsonValue ν)) : Option DType :=
  items.foldl (fun dataType v => v.dtype.or dataType) dataType

lemma typeAfter_eq_or (dataType : Option DType) (xs : List (JsonValue ν)) :
    typeAfter dataType xs = (typeAfter none xs).or dataType := by
  induction xs generalizing dataType with
  | nil => rfl
  | cons v xs ih =>
    simp only [typeAfter, foldl_cons] at ih ⊢
    rw [ih, ih (v.dtype.or none), Option.or_none, Option.or_assoc]

lemma exists_dtype (h : v ≠ .null) : ∃ dataType, v.dtype = some dataType := by
  cases v with
  | null => exact absurd rfl h
  | _ => exact ⟨_, rfl⟩

lemma typeAfter_none_eq {xs : List (JsonValue ν)} (h : .null ∉ xs) :
    typeAfter none xs = xs.getLast?.bind dtype := by
  induction xs using reverseRecOn with
  | nil => rfl
  | append_singleton xs v _ =>
    obtain ⟨dataType, hv⟩ := exists_dtype (v := v) fun heq => h (by simp [heq])
    rw [typeAfter, foldl_append, getLast?_concat, foldl_cons, foldl_nil, hv]
    exact hv.symm

lemma DType.ofCode_code (dataType : DType) : ofCode dataType.code = some dataType := by
  cases dataType <;> rfl

lemma UnionAccumulator.filter_hash (acc : UnionAccumulator) (ts : List String) :
    ts.filter (· ∉ acc.hash) = ts.filter (· ∉ acc.values) :=
  filter_congr fun t _ => decide_eq_decide.mpr (not_congr (acc.mem_hash t))

section Accumulate

variable {env : UnionEnv ν φ} {acc : UnionAccumulator} (bs : List (List (ArrayRow env)))

lemma foldl_pushElement {xs : List (JsonValue ν)} (h : .null ∉ xs) (hash : List String)
    (dt : Option DType) (b : List String) : xs.foldl (env.pushElement hash) (dt, b) =
      (typeAfter dt xs, b ++ (xs.map env.toText).filter (· ∉ hash)) := by
  induction xs generalizing dt b with
  | nil => simp [typeAfter]
  | cons v xs ih =>
    rw [mem_cons, not_or] at h
    obtain ⟨dt', hv⟩ := exists_dtype (Ne.symm h.1)
    have hp : env.pushElement hash (dt, b) v =
        (some dt', b ++ [env.toText v].filter (· ∉ hash)) := by
      by_cases hm : env.toText v ∈ hash <;> simp [pushElement, hv, hm]
    rw [foldl_cons, hp, ih h.2, typeAfter, typeAfter, foldl_cons, hv, append_assoc,
      ← filter_append, singleton_append, map_cons]
    rfl

lemma exists_updateRow (acc : UnionAccumulator) (r : ArrayRow env) :
    ∃ acc', env.updateRow acc (some r.text) = .ok acc' ∧ acc'.values = keepNew acc.values r.texts ∧
      acc'.dataType = typeAfter acc.dataType r.items := by
  refine ⟨acc.extend (typeAfter acc.dataType r.items) (r.texts.filter (· ∉ acc.hash)), ?_,
    congrArg (acc.values ++ ·) (acc.filter_hash r.texts), rfl⟩
  simp only [updateRow, r.reads, foldl_pushElement r.ne_null, nil_append]
  rfl

lemma exists_updateRows (acc : UnionAccumulator) (rs : List (ArrayRow env)) :
    ∃ acc', (rs.map fun r => some r.text).foldlM env.updateRow acc = .ok acc' ∧
      acc'.values = (rs.map texts).foldl keepNew acc.values ∧
      acc'.dataType = typeAfter acc.dataType (rs.flatMap items) := by
  induction rs generalizing acc with
  | nil => exact ⟨acc, rfl, rfl, rfl⟩
  | cons r rs ih =>
    obtain ⟨n, hn, hv, hdt⟩ := exists_updateRow acc r
    obtain ⟨acc', ha', hv', hdt'⟩ := ih n
    refine ⟨acc', bind_eq_ok.mpr ⟨n, hn, ha'⟩, ?_, ?_⟩
    · rw [hv', hv, map_cons, foldl_cons]
    · rw [hdt', hdt, flatMap_cons, typeAfter, typeAfter, typeAfter, foldl_append]

def stateOf (batches : List (List (ArrayRow env))) : List String × Option ℕ :=
  (firstUnion (batches.flatten.map texts),
    (typeAfter none (batches.flatten.flatMap items)).map code)

lemma state_accumulate : env.arrayUnionAgg.state <$> env.arrayUnionAgg.accumulate
    (bs.map (map fun r => some r.text)) = .ok (stateOf bs) := by
  obtain ⟨acc, hac, hv, hdt⟩ := exists_updateRows .new bs.flatten
  have ha : env.arrayUnionAgg.accumulate (bs.map (map fun r => some r.text)) = .ok acc := by
    rw [← hac, map_flatten, ← foldlM_flatten_eq]
    rfl
  rw [ha, stateOf, firstUnion]
  exact congrArg Except.ok (Prod.ext hv (congrArg (Option.map code) hdt))

lemma states_eq (cs : UnionCalls env) :
    env.arrayUnionAgg.states (cs.map (map (map (map fun r => some r.text)))) =
      .ok (cs.map (map stateOf)) :=
  mapM_map_eq_ok_map_iff.mpr fun _ _ => mapM_map_eq_ok_map_iff.mpr fun bs _ =>
    state_accumulate bs

def mergeState (acc : UnionAccumulator) (row : List String × Option ℕ) : UnionAccumulator :=
  acc.extend ((row.2.bind ofCode).or acc.dataType) (row.1.filter (· ∉ acc.hash))

lemma mergeBatch_stateOf (rows : List (List String × Option ℕ)) :
    mergeBatch acc (stateOf bs :: rows) = .ok (mergeState acc (stateOf bs)) := by
  rw [stateOf, mergeBatch]
  cases typeAfter none (bs.flatten.flatMap items) with
  | none => rfl
  | some dataType =>
    rw [mergeState]
    simp only [Option.map_some, mergedType, Option.bind_some, ofCode_code]
    rfl

lemma foldl_mergeState (gs : List (List (List (ArrayRow env)))) (acc : UnionAccumulator) :
    ((gs.map stateOf).foldl mergeState acc).values =
        (gs.map fun bs => firstUnion (bs.flatten.map texts)).foldl keepNew acc.values ∧
      ((gs.map stateOf).foldl mergeState acc).dataType =
        typeAfter acc.dataType (gs.flatten.flatten.flatMap items) := by
  induction gs generalizing acc with
  | nil => exact ⟨rfl, rfl⟩
  | cons bs gs ih =>
    obtain ⟨hv, hdt⟩ := ih (mergeState acc (stateOf bs))
    rw [map_cons, foldl_cons, hv, hdt]
    constructor
    · rw [map_cons, foldl_cons]
      exact congrArg (foldl keepNew · _) (congrArg (acc.values ++ ·) (acc.filter_hash _))
    · have ht : (mergeState acc (stateOf bs)).dataType =
          typeAfter acc.dataType (bs.flatten.flatMap items) := by
        rw [typeAfter_eq_or acc.dataType]
        change ((Option.map code _).bind ofCode).or _ = _
        rw [Option.bind_map, show ofCode ∘ code = some from funext ofCode_code,
          Option.bind_fun_some]
      rw [ht, flatten_cons, flatten_append, flatMap_append, typeAfter, typeAfter, typeAfter,
        foldl_append]

variable {calls cs : UnionCalls env} (r : ArrayRow env)

lemma readRows_ne_null : .null ∉ cs.readRows.flatMap items := by
  rw [mem_flatMap]
  rintro ⟨r, -, hr⟩
  exact r.ne_null hr

def UnionCalls.kept (calls : UnionCalls env) : List String :=
  firstUnion (calls.readRows.map texts)

lemma UnionCalls.run_eq_ok_iff {result : List (JsonValue ν)} :
    cs.run = .ok result ↔ [] ∉ cs ∧ cs.kept.mapM (env.decode
      ((cs.readRows.flatMap items).getLast?.bind dtype)) = .ok result := by
  have hm : ∀ acc, env.arrayUnionAgg.merge
      (cs.map (map (map (map fun row => some row.text)))) = .ok acc ↔
        (firstRows (cs.map (map stateOf))).foldl mergeState .new = acc ∧
          [] ∉ cs.map (map stateOf) := by
    refine fun acc => FallibleAggregate.merge_of_firstRow mergeState (states_eq cs)
      (fun _ => rfl) fun acc row rows hmm => ?_
    obtain ⟨call, -, hcal⟩ := mem_map.mp hmm
    obtain ⟨bs, m, rfl, rfl, rfl⟩ := map_eq_cons_iff.mp hcal
    exact mergeBatch_stateOf bs (map stateOf m)
  have he : ([] ∉ cs.map (map stateOf)) = ([] ∉ cs) := by simp
  obtain ⟨hv, hdt⟩ := foldl_mergeState (firstRows cs) .new
  have hk : ((firstRows cs).map fun bs =>
      firstUnion (bs.flatten.map texts)).foldl keepNew [] = cs.kept := by
    rw [UnionCalls.kept, UnionCalls.readRows, flatten_flatten, map_flatten, map_map,
      ← firstUnion_map_firstUnion, map_map]
    rfl
  have hev : env.arrayUnionAgg.evaluate ((firstRows (cs.map (map stateOf))).foldl mergeState .new) =
      cs.kept.mapM (env.decode
        ((cs.readRows.flatMap items).getLast?.bind dtype)) := by
    rw [firstRows_map, ← typeAfter_none_eq readRows_ne_null, ← hk]
    exact congrArg₂ (fun vs dt => mapM (env.decode dt) vs) hv hdt
  rw [run, FallibleAggregate.run, bind_eq_ok, ← hev, ← he]
  constructor
  · rintro ⟨acc, ha, hr⟩
    obtain ⟨rfl, hc⟩ := (hm acc).mp ha
    exact ⟨hc, hr⟩
  · rintro ⟨hc, hr⟩
    exact ⟨_, (hm _).mpr ⟨rfl, hc⟩, hr⟩

lemma ArrayRow.isElement (hv : v ∈ r.items) : env.IsElement v :=
  ⟨r.text, r.items, r.reads, hv⟩

lemma ArrayRow.foldl_keepNew_texts {acc seen : List String} (h : ∀ text, text ∈ seen ↔ text ∈ acc)
    (rs : List (ArrayRow env)) :
    (rs.map texts).foldl keepNew acc = acc ++ (newItems seen rs).map env.toText := by
  induction rs generalizing acc seen with
  | nil => simp [newItems]
  | cons r rs ih =>
    have hf : r.texts.filter (· ∉ acc) = (r.items.filter (env.toText · ∉ seen)).map env.toText := by
      rw [texts, filter_map]
      exact congrArg _ (filter_congr fun v _ => decide_eq_decide.mpr (not_congr (h _).symm))
    have hs (text : String) : text ∈ r.texts ++ seen ↔ text ∈ keepNew acc r.texts := by
      rw [mem_append, h, mem_keepNew, or_comm]
    rw [map_cons, foldl_cons, ih hs, keepNew, hf, newItems, map_append, append_assoc]

lemma UnionCalls.kept_eq : cs.kept = (newItems [] cs.readRows).map env.toText :=
  foldl_keepNew_texts (fun _ => Iff.rfl) cs.readRows

lemma ArrayRow.exists_of_mem_newItems {seen : List String} {rs : List (ArrayRow env)}
    (h : v ∈ newItems seen rs) : ∃ r ∈ rs, v ∈ r.items := by
  induction rs generalizing seen with
  | nil => cases h
  | cons r rs ih =>
    obtain h | h := mem_append.mp h
    · exact ⟨r, mem_cons_self, (mem_filter.mp h).1⟩
    · obtain ⟨r', hr, hv⟩ := ih h
      exact ⟨r', mem_cons_of_mem _ hr, hv⟩

lemma UnionCalls.decode_eq (h : cs.DecodesAll) {row : ArrayRow env} (hr : row ∈ cs.readRows)
    (hv : v ∈ row.items) :
    env.decode ((cs.readRows.flatMap items).getLast?.bind dtype)
    (env.toText v) = .ok v := by
  have hrea := env.fromStr_toText v (row.isElement hv)
  have hs : env.decode (some .semiStructured) (env.toText v) = .ok v := by
    simp only [decode, hrea]
  rw [DecodesAll] at h
  cases hl : (cs.readRows.flatMap items).getLast? with
  | none =>
    rw [getLast?_eq_none_iff] at hl
    exact absurd (mem_flatMap.mpr ⟨row, hr, hv⟩) (hl ▸ not_mem_nil)
  | some l =>
    rw [hl] at h
    cases l with
    | null => exact absurd (mem_of_getLast? hl) readRows_ne_null
    | bool b =>
      obtain ⟨b, rfl⟩ := h row hr v hv
      have hp := (env.parseBool_toText _ b (row.isElement hv)).mpr rfl
      simp only [Option.bind_some, dtype, decode, hp]
    | number n => exact h row hr v hv
    | string s => exact h.elim
    | array items => exact hs
    | object fields => exact hs

lemma UnionCalls.mem_rows_of_mem_readRows {r : ArrayRow env} (h : r ∈ cs.readRows) :
    r ∈ cs.rows := by
  obtain ⟨batch, hb, hr⟩ := mem_flatten.mp h
  obtain ⟨batches, hbat, hb⟩ := mem_flatten.mp hb
  exact mem_flatten_of_mem (mem_flatten_of_mem ((firstRows_sublist cs).subset hbat) hb) hr

lemma UnionCalls.mapM_kept (h : cs.DecodesAll) :
    cs.kept.mapM (env.decode ((cs.readRows.flatMap items).getLast?.bind
      dtype)) = .ok (newItems [] cs.readRows) := by
  rw [kept_eq, ← map_id (newItems [] cs.readRows), map_map]
  refine mapM_map_eq_ok_map_iff.mpr fun v hv => ?_
  obtain ⟨r, hr, hv⟩ := exists_of_mem_newItems hv
  exact decode_eq h hr hv

lemma ArrayRow.multiplicity_pos (hv : v ∈ r.items) : 0 < r.multiplicity v :=
  countP_pos_iff.mpr ⟨v, hv, env.same_self v⟩

lemma UnionCalls.false_of_strings {xs : List (JsonValue ν)} (hne : xs ≠ [])
    (he : ∀ v ∈ xs, env.IsElement v)
    (h : ∀ v ∈ xs, ∃ u ∈ xs, v = .string (env.toText u)) : False := by
  have ha : ∀ n, ∀ v ∈ xs, (env.toText v).length ≠ n := by
    intro n
    induction n using Nat.strongRecOn with
    | ind n ih =>
      rintro v hv rfl
      obtain ⟨u, hu, rfl⟩ := h v hv
      exact ih _ (env.length_lt_toText _ (he _ hv)) u hu rfl
  obtain ⟨v, xs, rfl⟩ := exists_cons_of_ne_nil hne
  exact ha _ v mem_cons_self rfl

lemma exists_bool_of_decode {t : String}
    (h : env.decode (some .boolean) t = .ok v) : ∃ b, v = .bool b := by
  simp only [decode] at h
  split at h
  · exact ⟨_, (Except.ok.inj h).symm⟩
  · cases h

lemma UnionCalls.decodesAll_of_decode
    (h : ∀ r ∈ cs.readRows, ∀ v ∈ r.items, ∃ r' ∈ cs.readRows, ∃ u ∈ r'.items, ∃ w,
      env.decode ((cs.readRows.flatMap items).getLast?.bind dtype)
        (env.toText u) = .ok w ∧ env.same v w = true) : cs.DecodesAll := by
  rw [DecodesAll]
  cases hl : (cs.readRows.flatMap items).getLast? with
  | none => trivial
  | some l =>
    rw [hl] at h
    cases l with
    | null => trivial
    | bool b =>
      intro r hr v hv
      obtain ⟨r', -, u, -, w, hd, hs⟩ := h r hr v hv
      obtain ⟨b, rfl⟩ := exists_bool_of_decode hd
      exact ⟨b, env.same_bool v b hs⟩
    | number n =>
      intro r hr v hv
      obtain ⟨r', -, u, hu, w, hd, hs⟩ := h r hr v hv
      exact env.decodeFloat_same u v w (r'.isElement hu) (r.isElement hv) hd hs
    | string s =>
      refine @false_of_strings _ _ env _ (ne_nil_of_mem (mem_of_getLast? hl)) ?_ ?_
      · intro v hv
        obtain ⟨r, -, hv⟩ := mem_flatMap.mp hv
        exact r.isElement hv
      · intro v hv
        obtain ⟨r, hr, hv⟩ := mem_flatMap.mp hv
        obtain ⟨r', hr', u, hu, w, hd, hs⟩ := h r hr v hv
        obtain rfl := Except.ok.inj hd
        exact ⟨u, mem_flatMap.mpr ⟨r', hr', hu⟩, env.same_string v _ hs⟩
    | array items => trivial
    | object fields => trivial

/-! ### Main result -/

end Accumulate

def onesOps : UnionOps ℤ ℤ where
  fromStr text :=
    if text = "[1]" then some (.array [.number 1])
    else if text = "[1,1]" then some (.array [.number 1, .number 1])
    else if text = "1" then some (.number 1)
    else none
  toText _ := "1"
  parseF64 _ := some 1
  isIntegral _ := true
  asI64 := id
  ofI64 := id
  ofF64 _ := none

lemma eq_one_of_isElement {v : JsonValue ℤ} (h : onesOps.IsElement v) : v = .number 1 := by
  obtain ⟨text, items, ht, hv⟩ := h
  simp only [onesOps] at ht
  split at ht
  · cases ht
    exact mem_singleton.mp hv
  · split at ht
    · cases ht
      simpa using hv
    · split at ht <;> cases ht

def onesEnv : UnionEnv ℤ ℤ where
  toUnionOps := onesOps
  same v w :=
    match v, w with
    | .number a, .number b => a == b
    | .bool a, .bool b => a == b
    | .string a, .string b => a == b
    | .null, .null => true
    | .array _, .array _ => true
    | .object _, .object _ => true
    | _, _ => false
  same_self v := by cases v <;> simp
  same_bool v b h := by cases v <;> simp_all
  same_string v s h := by cases v <;> simp_all
  fromStr_toText v hv := by
    rw [eq_one_of_isElement hv]
    rfl
  parseBool_toText v b hv := by
    rw [eq_one_of_isElement hv]
    exact iff_of_false (fun h => by cases h) fun h => by cases h
  length_lt_toText s hs := by cases eq_one_of_isElement hs
  decodeFloat_same _ v _ _ hv _ _ := by
    rw [eq_one_of_isElement hv]
    rfl

def oneRow : ArrayRow onesEnv := ⟨"[1]", [.number 1], rfl, by simp⟩

def twoOnesRow : ArrayRow onesEnv := ⟨"[1,1]", [.number 1, .number 1], rfl, by simp⟩

end Rustice
