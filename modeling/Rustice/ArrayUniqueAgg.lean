import Rustice.Fallible
import Rustice.PartialAggregation
import Mathlib.Data.List.Dedup
import Mathlib.Data.List.Perm.Subperm
import Mathlib.Data.List.ReduceOption
import Mathlib.Data.Option.Basic

/-!
# Distinct Values as an Array

`ARRAY_UNIQUE_AGG` collects the distinct values of a column in the order in which it meets them.
-/

namespace Rustice

open List

inductive Json where
  | null
  | bool (b : Bool)
  | number (n : Int)
  | text (s : String)
  | array (items : List Json)
  | object (fields : List (String × Json))

inductive ArrayUniqueError where
  | rowOutOfBounds
  | emptyIterator
  | invalidArgument (message : String)

structure ColumnType (V : Type) where
  encode : V → Except ArrayUniqueError Json
  dictionary : Bool

variable {V : Type}

def encodeArray (T : ColumnType V) (values : List V) : Except ArrayUniqueError Json := do
  let items ← values.mapM T.encode
  if T.dictionary then
    let keys := (List.range values.length).map fun key => Json.number key
    .ok (.object [("keys", .array keys), ("values", .array items)])
  else .ok (.array items)

def iterToArray (values : List V) : Except ArrayUniqueError (List V) :=
  match values with
  | [] => .error .emptyIterator
  | values => .ok values

structure UniqueAccumulator (V : Type) where
  values : List V
  hash : List V
  mem_hash : ∀ v, v ∈ hash ↔ v ∈ values
  nodup : values.Nodup

namespace UniqueAccumulator

def new : UniqueAccumulator V :=
  ⟨[], [], fun _ => Iff.rfl, nodup_nil⟩

def push (acc : UniqueAccumulator V) (v : V) (hv : v ∉ acc.hash) : UniqueAccumulator V where
  values := acc.values ++ [v]
  hash := v :: acc.hash
  mem_hash w := by
    rw [mem_cons, mem_append, mem_singleton, acc.mem_hash, or_comm]
  nodup := by
    rw [acc.mem_hash] at hv
    exact acc.nodup.append (nodup_singleton v) (disjoint_singleton.mpr hv)

variable [DecidableEq V]

def insertValue (acc : UniqueAccumulator V) (value : Option V) : UniqueAccumulator V :=
  match value with
  | none => acc
  | some v => if hv : v ∈ acc.hash then acc else acc.push v hv

def insertAll (acc : UniqueAccumulator V) (scalars : List (Option V)) : UniqueAccumulator V :=
  scalars.foldl insertValue acc

lemma mem_values_insertValue (acc : UniqueAccumulator V) (vl : Option V) (v : V) :
    v ∈ (acc.insertValue vl).values ↔ v ∈ acc.values ∨ vl = some v := by
  cases vl with
  | none => simp [insertValue]
  | some w =>
    rw [insertValue]
    split_ifs with hw
    · have hm : w ∈ acc.values := (acc.mem_hash w).mp hw
      refine (or_iff_left_of_imp fun hv => ?_).symm
      rwa [← Option.some.inj hv]
    · simp [push, eq_comm]

lemma mem_values_insertAll (acc : UniqueAccumulator V) (scalars : List (Option V)) (v : V) :
    v ∈ (acc.insertAll scalars).values ↔ v ∈ acc.values ∨ some v ∈ scalars := by
  rw [insertAll]
  induction scalars generalizing acc with
  | nil => simp
  | cons vl scalars ih =>
    rw [foldl_cons, ih, mem_values_insertValue, mem_cons, or_assoc, eq_comm (a := vl)]

end UniqueAccumulator

open UniqueAccumulator

variable [DecidableEq V]

def arrayUniqueMergeBatch (acc : UniqueAccumulator V) (states : List (List V)) :
    Except ArrayUniqueError (UniqueAccumulator V) :=
  match states with
  | [] => .error .rowOutOfBounds
  | values :: _ => .ok (acc.insertAll (values.map some))

def arrayUniqueEvaluate (T : ColumnType V) (acc : UniqueAccumulator V) :
    Except ArrayUniqueError Json := do
  let array ← iterToArray acc.values
  encodeArray T array

def arrayUniqueAgg (T : ColumnType V) :
    Aggregate (List (Option V)) (UniqueAccumulator V) (List V) Json ArrayUniqueError where
  new := .new
  updateBatch := UniqueAccumulator.insertAll
  state := values
  mergeBatch := arrayUniqueMergeBatch
  evaluate := arrayUniqueEvaluate T

/-- The encodings of the distinct non-NULL values. -/
def ReturnsDistinct (T : ColumnType V) (values : List (Option V))
    (result : Except ArrayUniqueError Json) : Prop :=
  ∃ items es, result = .ok (.array items) ∧
    values.reduceOption.dedup.mapM T.encode = .ok es ∧ items.Perm es

variable {T : ColumnType V} {acc : UniqueAccumulator V}

lemma mem_arrayUniqueAgg_accumulate (bs : List (List (Option V))) (v : V) :
    v ∈ ((arrayUniqueAgg T).accumulate bs).values ↔ some v ∈ bs.flatten := by
  have ha : (arrayUniqueAgg T).accumulate bs =
      new.insertAll bs.flatten := foldl_flatten.symm
  rw [ha, mem_values_insertAll]
  exact or_iff_right not_mem_nil

lemma arrayUniqueAgg_merge_eq_ok_iff {calls : List (List (List (List (Option V))))} :
    (arrayUniqueAgg T).merge calls = .ok acc ↔
      new.insertAll ((firstRows calls).flatMap fun bs =>
          ((arrayUniqueAgg T).accumulate bs).values.map some) = acc ∧ [] ∉ calls := by
  have hr : firstRows ((arrayUniqueAgg T).states calls) =
      (firstRows calls).map fun bs => ((arrayUniqueAgg T).accumulate bs).values :=
    firstRows_map _ calls
  rw [Aggregate.merge_of_firstRow (fun _ => False) (fun acc r => acc.insertAll (r.map some))
    (fun _ _ h => h.elim) (fun _ _ => rfl) (fun _ _ _ _ => rfl) (fun _ _ h => h.elim),
    hr, false_or, foldl_map, UniqueAccumulator.insertAll, foldl_flatMap]
  exact Iff.rfl

lemma mem_arrayUniqueAgg_merge {cs : List (List (List (List (Option V))))}
    (hm : (arrayUniqueAgg T).merge cs = .ok acc) (v : V) :
    v ∈ acc.values ↔ ∃ bs ∈ firstRows cs, some v ∈ bs.flatten := by
  obtain ⟨rfl, -⟩ := arrayUniqueAgg_merge_eq_ok_iff.mp hm
  rw [mem_values_insertAll, mem_flatMap]
  refine (or_iff_right not_mem_nil).trans ?_
  simp only [mem_map_of_injective (Option.some_injective V), mem_arrayUniqueAgg_accumulate]

omit [DecidableEq V] in
lemma arrayUniqueEvaluate_eq_array_iff {items : List Json} :
    arrayUniqueEvaluate T acc = .ok (.array items) ↔
      acc.values ≠ [] ∧ T.dictionary = false ∧ acc.values.mapM T.encode = .ok items := by
  rw [arrayUniqueEvaluate, bind_eq_ok]
  cases hv : acc.values with
  | nil => simp [iterToArray]
  | cons v vs =>
    simp only [iterToArray, encodeArray, Except.ok.injEq, exists_eq_left', bind_eq_ok]
    cases T.dictionary <;> simp

/-! ### Main result -/

/-- **`ARRAY_UNIQUE_AGG`** is right exactly if every value is in a state that is read and has JSON.
-/
theorem arrayUniqueAgg_run_iff (T : ColumnType V) (values : List (Option V))
    (calls : List (List (List (List (Option V))))) (hcut : IsCut calls values) :
    ReturnsDistinct T values ((arrayUniqueAgg T).run calls) ↔
      T.dictionary = false ∧ [] ∉ calls ∧ (∃ v, some v ∈ values) ∧ ∀ v, some v ∈ values →
          (∃ json, T.encode v = .ok json) ∧
            ∃ batches ∈ firstRows calls, some v ∈ batches.flatten := by
  have hd : ∀ v, v ∈ values.reduceOption.dedup ↔ some v ∈ values := by
    intro v
    rw [mem_dedup, reduceOption_mem_iff]
  have hsub : ∀ {acc}, (arrayUniqueAgg T).merge calls = .ok acc →
      acc.values ⊆ values.reduceOption.dedup := by
    intro acc hm v hv
    obtain ⟨batches, hr, hmm⟩ := (mem_arrayUniqueAgg_merge hm v).mp hv
    exact (hd v).mpr (hcut.mem hr hmm)
  constructor
  · rintro ⟨items, encodings, hrun, he, hp⟩
    obtain ⟨acc, hm, hev⟩ := bind_eq_ok.mp hrun
    obtain ⟨hne, hdic, hi⟩ := arrayUniqueEvaluate_eq_array_iff.mp hev
    -- As many values are kept as there are distinct ones, so all of them are kept.
    have hl : values.reduceOption.dedup.length = acc.values.length := by
      rw [← length_of_mapM_eq_ok hi, ← length_of_mapM_eq_ok he, hp.length_eq]
    have hval : acc.values.Perm values.reduceOption.dedup :=
      (subperm_of_subset acc.nodup (hsub hm)).perm_of_length_le (Nat.le_of_eq hl)
    obtain ⟨v, hv⟩ := exists_mem_of_ne_nil _ hne
    refine ⟨hdic, (arrayUniqueAgg_merge_eq_ok_iff.mp hm).2,
      ⟨v, (hd v).mp (hval.mem_iff.mp hv)⟩, fun w hw => ⟨?_, ?_⟩⟩
    · exact exists_of_mapM_eq_ok he ((hd w).mpr hw)
    · exact (mem_arrayUniqueAgg_merge hm w).mp (hval.mem_iff.mpr ((hd w).mpr hw))
  · rintro ⟨hdic, hrow, ⟨v, hv⟩, ha⟩
    obtain ⟨acc, hm⟩ : ∃ acc, (arrayUniqueAgg T).merge calls = .ok acc :=
      ⟨_, arrayUniqueAgg_merge_eq_ok_iff.mpr ⟨rfl, hrow⟩⟩
    have hval : acc.values.Perm values.reduceOption.dedup := by
      refine (perm_ext_iff_of_nodup acc.nodup (nodup_dedup _)).mpr fun w =>
        ⟨fun hw => hsub hm hw, fun hw => ?_⟩
      exact (mem_arrayUniqueAgg_merge hm w).mpr (ha w ((hd w).mp hw)).2
    have he : ∀ w ∈ values.reduceOption.dedup,
        T.encode w = .ok ((T.encode w).toOption.getD .null) := by
      intro w hw
      obtain ⟨json, hj⟩ := (ha w ((hd w).mp hw)).1
      rw [hj]
      rfl
    refine ⟨_, _, bind_eq_ok.mpr ⟨acc, hm, arrayUniqueEvaluate_eq_array_iff.mpr
      ⟨?_, hdic, mapM_eq_ok_map fun w hw => he w (hval.mem_iff.mp hw)⟩⟩,
      mapM_eq_ok_map he, hval.map _⟩
    exact ne_nil_of_mem (hval.mem_iff.mpr ((hd v).mpr hv))

def intColumn : ColumnType Int where
  encode n := .ok (.number n)
  dictionary := false

theorem arrayUniqueAgg_run_one_by_one :
    ReturnsDistinct intColumn [some 1, none, some 2, some 1]
      ((arrayUniqueAgg intColumn).run [[[[some 1, none], [some 2]]], [[[some 1]]]]) := by
  refine (arrayUniqueAgg_run_iff _ _ _ (List.Perm.refl _)).mpr
    ⟨rfl, by simp, ⟨1, by simp⟩, fun v hv => ⟨⟨_, rfl⟩, _, mem_cons_self, ?_⟩⟩
  have hc : v = 1 ∨ v = 2 ∨ v = 1 := by simpa using hv
  rcases hc with rfl | rfl | rfl <;> simp

theorem arrayUniqueAgg_run_ne :
    (arrayUniqueAgg intColumn).run [[[[none]]]] = .error .emptyIterator ∧
      (arrayUniqueAgg intColumn).run [[[[some 1]], [[some 2]]]] = .ok (.array [.number 1]) := by
  constructor <;> rfl

end Rustice
