import Rustice.PartialAggregation
import Mathlib.Data.List.ReduceOption

/-!
# Boolean Aggregates

`BOOLOR_AGG`, `BOOLAND_AGG` and `BOOLXOR_AGG` keep one optional Boolean as their state.
-/

namespace Rustice

open List

open Aggregate

abbrev BoolColumn := List (Option Bool)

inductive AccumulatorError where
  | rowOutOfBounds
deriving DecidableEq

def tryFromArray (array : BoolColumn) : Except AccumulatorError (Option Bool) :=
  match array with
  | [] => .error .rowOutOfBounds
  | v :: _ => .ok v

section OrAnd

def boolLoop (dominant : Bool) (state : Option Bool) : Bool → BoolColumn → Option Bool
  | nonNull, [] => if nonNull then some (!dominant) else state
  | nonNull, v :: vs =>
    if v = some dominant then some dominant
    else boolLoop dominant state (nonNull || v.isSome) vs

/-- `dominant` is TRUE for `BOOLOR_AGG` and FALSE for `BOOLAND_AGG`. -/
def boolUpdateBatch (dominant : Bool) (state : Option Bool) (values : List BoolColumn) :
    Option Bool :=
  match values with
  | [] => state
  | column :: _ =>
    if state = some false then state
    else boolLoop dominant state false column

/-- Early return on the dominant value, then row 0 of the state. -/
def boolMergeBatch (dominant : Bool) (state : Option Bool) (states : List BoolColumn) :
    Except AccumulatorError (Option Bool) :=
  match states with
  | [] => .ok state
  | column :: _ =>
    if state = some dominant then .ok state
    else do
      let v ← tryFromArray column
      if v = some dominant then .ok (some dominant)
      else if v.isSome then .ok (some (!dominant))
      else .ok state

def boolAgg (dominant : Bool) :
    Aggregate BoolColumn (Option Bool) (Option Bool) (Option Bool) AccumulatorError where
  new := none
  updateBatch state column := boolUpdateBatch dominant state [column]
  state := id
  mergeBatch state rows := boolMergeBatch dominant state [rows]
  evaluate := .ok

def boolOrAgg := boolAgg true

def boolAndAgg := boolAgg false

def boolOr (values : BoolColumn) : Option Bool :=
  if values.reduceOption = [] then none else some (values.reduceOption.any id)

def boolAnd (values : BoolColumn) : Option Bool :=
  if values.reduceOption = [] then none else some (values.reduceOption.all id)

def verdict (dominant : Bool) (values : BoolColumn) : Option Bool :=
  if some dominant ∈ values then some dominant
  else if some (!dominant) ∈ values then some (!dominant)
  else none

variable {d : Bool} {values vls : BoolColumn} (state : Option Bool)

lemma reduceOption_eq_nil_iff :
    values.reduceOption = [] ↔ some true ∉ values ∧ some false ∉ values := by
  simp only [eq_nil_iff_forall_not_mem, reduceOption_mem_iff, Bool.forall_bool]
  exact and_comm

lemma boolOr_eq_verdict : boolOr values = verdict true values := by
  have ha : values.reduceOption.any id = decide (some true ∈ values) := by
    rw [Bool.eq_iff_iff]
    simp [reduceOption_mem_iff]
  simp only [boolOr, verdict, ha, reduceOption_eq_nil_iff]
  by_cases ht : some true ∈ values <;> by_cases hf : some false ∈ values <;> simp [ht, hf]

lemma boolAnd_eq_verdict : boolAnd values = verdict false values := by
  have ha : values.reduceOption.all id = decide (some false ∉ values) := by
    rw [Bool.eq_iff_iff]
    simp [reduceOption_mem_iff]
  simp only [boolAnd, verdict, ha, reduceOption_eq_nil_iff]
  by_cases ht : some true ∈ values <;> by_cases hf : some false ∈ values <;> simp [ht, hf]

lemma verdict_eq_dominant_iff : verdict d values = some d ↔ some d ∈ values := by
  rw [verdict]
  split_ifs <;> simp_all

lemma verdict_eq_other_iff :
    verdict d values = some (!d) ↔ some d ∉ values ∧ some (!d) ∈ values := by
  rw [verdict]
  split_ifs <;> simp_all

lemma verdict_eq_none_iff : verdict d values = none ↔ some d ∉ values ∧ some (!d) ∉ values := by
  rw [verdict]
  split_ifs <;> simp_all

lemma mem_of_verdict_eq_some {b : Bool} (h : verdict d values = some b) : some b ∈ values := by
  rw [verdict] at h
  split_ifs at h <;> simp_all

lemma boolLoop_eq (nn : Bool) : boolLoop d state nn vls = if some d ∈ vls then some d
    else if nn = true ∨ some (!d) ∈ vls then some (!d) else state := by
  induction vls generalizing nn with
  | nil => simp [boolLoop]
  | cons v vs ih =>
    rw [boolLoop]
    by_cases hv : v = some d
    · simp [hv]
    · rw [if_neg hv, ih]
      have ho : v.isSome = true ↔ some (!d) = v := by
        cases v with
        | none => simp
        | some b => cases b <;> cases d <;> simp_all
      simp [mem_cons, Ne.symm hv, ho, or_assoc]

lemma boolUpdateBatch_eq : boolUpdateBatch d state [vls] =
    if state = some false then some false else (verdict d vls).or state := by
  rw [boolUpdateBatch, boolLoop_eq, verdict]
  split_ifs <;> simp_all

def mergeRow (d : Bool) (state v : Option Bool) : Option Bool :=
  if state = some d then state else v.or state

lemma foldl_mergeRow (rs : BoolColumn) (state : Option Bool) :
    rs.foldl (mergeRow d) state = if state = some d then some d else (verdict d rs).or state := by
  induction rs generalizing state with
  | nil => simp [verdict]
  | cons v rs ih =>
    rw [foldl_cons, ih, mergeRow]
    cases v with
    | none => cases state <;> simp [verdict]
    | some b =>
      by_cases hb : b = d
      · subst hb
        by_cases hs : state = some b <;> simp [hs, verdict]
      · obtain rfl : b = !d := by cases b <;> cases d <;> simp_all
        by_cases hs : state = some d <;> by_cases hd : some d ∈ rs <;>
          by_cases ho : some (!d) ∈ rs <;> simp [hs, hd, ho, verdict]

lemma boolAgg_run_eq_ok_iff {calls : List (List (List BoolColumn))} {r : Option Bool} :
    (boolAgg d).run calls = .ok r ↔ verdict d ((firstRows calls).map (boolAgg d).accumulate) = r ∧
        (r = some d ∨ [] ∉ calls) := by
  have hrun : (boolAgg d).run calls = (boolAgg d).merge calls := by
    rw [run]
    cases (boolAgg d).merge calls <;> rfl
  have hr : firstRows ((boolAgg d).states calls) = (firstRows calls).map (boolAgg d).accumulate :=
    firstRows_map _ calls
  have hf := foldl_mergeRow (d := d) ((firstRows calls).map (boolAgg d).accumulate) none
  rw [if_neg (by simp), Option.or_none] at hf
  rw [hrun, merge_of_firstRow (· = some d) (mergeRow d), hr]
  · show (List.foldl (mergeRow d) none _ = _ ∧ _) ↔ _
    rw [hf]
  · rintro s rs rfl
    exact if_pos rfl
  · intro s hs
    exact if_neg hs
  · intro s row rs hs
    show boolMergeBatch d s [row :: rs] = _
    rw [boolMergeBatch, if_neg hs, mergeRow, if_neg hs]
    cases row with
    | none => rfl
    | some b => cases b <;> cases d <;> rfl
  · rintro s row rfl
    exact if_pos rfl

variable {batches : List BoolColumn}

def Holds (v : Bool) (batches : List BoolColumn) : Prop :=
  some v ∈ batches.flatten

/-- TRUE, and no FALSE without it in a batch. -/
def ShowsTrue (batches : List BoolColumn) : Prop :=
  Holds true batches ∧ ∀ b ∈ batches, some false ∈ b → some true ∈ b

lemma boolAgg_accumulate (batches : List BoolColumn) :
    (boolAgg d).accumulate batches = verdict false (batches.map (verdict d)) := by
  have hst : ∀ (state : Option Bool) (b : BoolColumn),
      (boolAgg d).updateBatch state b = mergeRow false state (verdict d b) := by
    intro state b
    refine (boolUpdateBatch_eq state).trans ?_
    rw [mergeRow]
    by_cases hs : state = some false <;> simp [hs]
  have hf : ∀ state : Option Bool, batches.foldl (boolAgg d).updateBatch state =
        (batches.map (verdict d)).foldl (mergeRow false) state := by
    induction batches with
    | nil => exact fun _ => rfl
    | cons b bs ih =>
      intro state
      rw [foldl_cons, map_cons, foldl_cons, hst, ih]
  refine (hf none).trans ((foldl_mergeRow _ none).trans ?_)
  rw [if_neg (by simp), Option.or_none]

lemma dominant_mem_map_verdict : some d ∈ batches.map (verdict d) ↔ Holds d batches := by
  simp only [mem_map, verdict_eq_dominant_iff, Holds, mem_flatten]

lemma other_mem_map_verdict :
    some (!d) ∈ batches.map (verdict d) ↔ ∃ b ∈ batches, some d ∉ b ∧ some (!d) ∈ b := by
  simp only [mem_map, verdict_eq_other_iff]

lemma other_mem_map_verdict_of_not_holds (h : ¬ Holds d batches) :
    some (!d) ∈ batches.map (verdict d) ↔ Holds (!d) batches := by
  rw [other_mem_map_verdict, Holds, mem_flatten]
  refine exists_congr fun b => and_congr_right fun hb => and_iff_right fun hd => h ?_
  exact mem_flatten.mpr ⟨b, hb, hd⟩

lemma boolOrAgg_accumulate_eq_true_iff :
    (boolAgg true).accumulate batches = some true ↔ ShowsTrue batches := by
  rw [boolAgg_accumulate]
  refine (verdict_eq_other_iff (d := false)).trans ?_
  rw [Bool.not_false, dominant_mem_map_verdict, and_comm, ShowsTrue]
  refine and_congr_right fun _ => ?_
  rw [show some false = some (!true) from rfl, other_mem_map_verdict]
  push Not
  exact forall₂_congr fun b _ => not_imp_not

lemma boolAndAgg_accumulate_eq_false_iff :
    (boolAgg false).accumulate batches = some false ↔ Holds false batches := by
  rw [boolAgg_accumulate, verdict_eq_dominant_iff, dominant_mem_map_verdict]

lemma boolAgg_accumulate_of_not_holds (h : ¬ Holds d batches) :
    (boolAgg d).accumulate batches = some (!d) ↔ Holds (!d) batches := by
  have hd : some d ∉ batches.map (verdict d) := fun hm => h (dominant_mem_map_verdict.mp hm)
  rw [boolAgg_accumulate, ← other_mem_map_verdict_of_not_holds h]
  cases d with
  | false => exact verdict_eq_other_iff.trans (and_iff_right hd)
  | true => exact verdict_eq_dominant_iff

/-- The states that are read tell the verdict on the whole group. -/
def ReadInTime (d : Bool) (decides : List BoolColumn → Prop) (values : BoolColumn)
    (calls : List (List (List BoolColumn))) : Prop :=
  (some d ∈ values → ∃ batches ∈ firstRows calls, decides batches) ∧ (some d ∉ values → [] ∉ calls ∧
      (some (!d) ∈ values → ∃ batches ∈ firstRows calls, Holds (!d) batches))

lemma boolAgg_run_eq_verdict_iff {ds : List BoolColumn → Prop}
    (hdec : ∀ batches, (boolAgg d).accumulate batches = some d ↔ ds batches)
    {calls : List (List (List BoolColumn))} (hc : IsCut calls vls) :
    (boolAgg d).run calls = .ok (verdict d vls) ↔ ReadInTime d ds vls calls := by
  rw [boolAgg_run_eq_ok_iff, ReadInTime]
  by_cases hd : some d ∈ vls
  · rw [verdict_eq_dominant_iff.mpr hd, verdict_eq_dominant_iff]
    simp only [mem_map, hdec, hd, true_or, and_true, forall_const, not_true_eq_false, false_implies]
  · -- No partial accumulator that is read holds the dominant value.
    have hn : ∀ batches ∈ firstRows calls, ¬ Holds d batches :=
      fun batches hr hm => hd (hc.mem hr hm)
    have hot : some (!d) ∈ (firstRows calls).map (boolAgg d).accumulate ↔
        ∃ batches ∈ firstRows calls, Holds (!d) batches := by
      rw [mem_map]
      exact exists_congr fun batches => and_congr_right fun hr =>
        boolAgg_accumulate_of_not_holds (hn batches hr)
    have hdm : some d ∉ (firstRows calls).map (boolAgg d).accumulate := by
      intro hm
      obtain ⟨batches, hr, ha⟩ := mem_map.mp hm
      rw [boolAgg_accumulate] at ha
      exact hn batches hr (dominant_mem_map_verdict.mp (mem_of_verdict_eq_some ha))
    have hv : verdict d vls ≠ some d := fun h => hd (verdict_eq_dominant_iff.mp h)
    simp only [hd, hv, false_implies, not_false_eq_true, forall_const, true_and, false_or,
      and_comm (b := [] ∉ calls)]
    refine and_congr_right fun _ => ?_
    by_cases ho : some (!d) ∈ vls
    · rw [verdict_eq_other_iff.mpr ⟨hd, ho⟩, verdict_eq_other_iff, and_iff_right hdm, hot,
        forall_prop_of_true ho]
    · have hnon : ¬ ∃ batches ∈ firstRows calls, Holds (!d) batches := by
        rintro ⟨batches, hr, hm⟩
        exact ho (hc.mem hr hm)
      rw [verdict_eq_none_iff.mpr ⟨hd, ho⟩, verdict_eq_none_iff, and_iff_right hdm, hot]
      exact iff_of_true hnon fun h => absurd h ho

/-! ### Main results -/

/-- **`BOOLOR_AGG` and `BOOLAND_AGG`** are right exactly if the states that are read tell the
result. -/
theorem boolAgg_run_eq_iff (values : BoolColumn) (calls : List (List (List BoolColumn)))
    (hcut : IsCut calls values) :
    (boolOrAgg.run calls = .ok (boolOr values) ↔ ReadInTime true ShowsTrue values calls) ∧
      (boolAndAgg.run calls = .ok (boolAnd values) ↔
        ReadInTime false (Holds false) values calls) := by
  rw [boolOr_eq_verdict, boolAnd_eq_verdict]
  exact ⟨boolAgg_run_eq_verdict_iff (fun _ => boolOrAgg_accumulate_eq_true_iff) hcut,
    boolAgg_run_eq_verdict_iff (fun _ => boolAndAgg_accumulate_eq_false_iff) hcut⟩

theorem boolAgg_run_eq_one_by_one :
    boolOrAgg.run [[[[some true, none], [some false, some true]]], [[[some false]]]] =
        .ok (boolOr [some true, none, some false, some true, some false]) ∧
      boolAndAgg.run [[[[some true, none], [some false, some true]]], [[[some false]]]] =
        .ok (boolAnd [some true, none, some false, some true, some false]) := by
  have hc : IsCut [[[[some true, none], [some false, some true]]], [[[some false]]]]
      [some true, none, some false, some true, some false] := List.Perm.refl _
  obtain ⟨ho, hand⟩ := boolAgg_run_eq_iff _ _ hc
  refine ⟨ho.mpr ⟨fun _ => ⟨_, mem_cons_self, ?_⟩, ?_⟩,
    hand.mpr ⟨fun _ => ⟨_, mem_cons_self, ?_⟩, ?_⟩⟩
  · simp [ShowsTrue, Holds]
  · simp
  · simp [Holds]
  · simp

theorem boolAgg_run_ne :
    boolOrAgg.run [[[[some true], [some false]]]] = .ok (some false) ∧
      boolOr [some true, some false] = some true ∧
      boolAndAgg.run [[[[some true]], [[some false]]]] = .ok (some true) ∧
      boolAnd [some true, some false] = some false := by
  refine ⟨?_, ?_, ?_, ?_⟩ <;> rfl

end OrAnd

section Xor

def xorLoop : Option Bool → Bool → BoolColumn → Option Bool
  | state, isNull, [] => if !isNull && state != some true then some false else state
  | state, isNull, v :: vs =>
    if v = some true then
      if state = some true then some false
      else xorLoop (some true) (isNull && !v.isSome) vs
    else xorLoop state (isNull && !v.isSome) vs

def xorUpdateBatch (state : Option Bool) (values : List BoolColumn) : Option Bool :=
  match values with
  | [] => state
  | column :: _ => if state = some false then state else xorLoop state true column

def xorMergeLoop : Option Bool → Bool → List BoolColumn → Except AccumulatorError (Option Bool)
  | state, isNull, [] => .ok (if !isNull && state != some true then some false else state)
  | state, isNull, column :: columns => do
    let v ← tryFromArray column
    if v = some true then
      if state = some true then .ok (some false)
      else xorMergeLoop (some true) (isNull && !v.isSome) columns
    else xorMergeLoop state (isNull && !v.isSome) columns

def xorMergeBatch (state : Option Bool) (states : List BoolColumn) :
    Except AccumulatorError (Option Bool) :=
  match states with
  | [] => .ok state
  | columns => if state = some false then .ok state else xorMergeLoop state true columns

def boolXorAgg :
    Aggregate BoolColumn (Option Bool) (Option Bool) (Option Bool) AccumulatorError where
  new := none
  updateBatch state column := xorUpdateBatch state [column]
  state := id
  mergeBatch state rows := xorMergeBatch state [rows]
  evaluate := .ok

def boolXor (values : BoolColumn) : Option Bool :=
  if values.reduceOption = [] then none else some (values.count (some true) = 1)

def hasValue (values : BoolColumn) : Bool :=
  values.any Option.isSome

variable {batches : List BoolColumn} {values vls : BoolColumn} {b : BoolColumn} (i : Bool)

lemma hasValue_eq_false_iff : hasValue vls = false ↔ vls.reduceOption = [] := by
  simp [hasValue, eq_nil_iff_forall_not_mem, reduceOption_mem_iff, Option.forall]

lemma count_eq_zero_of_hasValue (h : hasValue vls = false) : vls.count (some true) = 0 := by
  rw [count_eq_zero]
  intro hm
  rw [hasValue, any_eq_false] at h
  exact h _ hm rfl

lemma xorLoop_some_true :
    xorLoop (some true) i vls = if some true ∈ vls then some false else some true := by
  induction vls generalizing i with
  | nil => simp [xorLoop]
  | cons v vs ih =>
    rw [xorLoop]
    by_cases hv : v = some true
    · simp [hv]
    · rw [if_neg hv, ih]
      simp [Ne.symm hv]

lemma xorLoop_none : xorLoop none i vls = if i = true ∧ hasValue vls = false then none
    else some (decide (vls.count (some true) = 1)) := by
  induction vls generalizing i with
  | nil => cases i <;> rfl
  | cons v vs ih =>
    rw [xorLoop]
    rcases v with _ | _ | _
    · rw [if_neg (by simp), ih]
      simp [hasValue]
    · rw [if_neg (by simp), ih]
      simp [hasValue]
    · rw [if_pos rfl, if_neg (by simp), xorLoop_some_true]
      have hc : vs.count (some true) = 0 ↔ some true ∉ vs := count_eq_zero
      by_cases hm : some true ∈ vs <;> simp [hm, hasValue, hc]

lemma boolXorAgg_foldl_false : batches.foldl boolXorAgg.updateBatch (some false) = some false := by
  induction batches with
  | nil => rfl
  | cons b bs ih => exact ih

lemma boolXorAgg_foldl_true : batches.foldl boolXorAgg.updateBatch (some true) =
    if some true ∈ batches.flatten then some false else some true := by
  induction batches with
  | nil => rfl
  | cons b bs ih =>
    have hs : boolXorAgg.updateBatch (some true) b =
        if some true ∈ b then some false else some true := xorLoop_some_true true
    rw [foldl_cons, hs, flatten_cons]
    by_cases hm : some true ∈ b
    · rw [if_pos hm, boolXorAgg_foldl_false, if_pos (mem_append_left _ hm)]
    · rw [if_neg hm, ih]
      simp [hm]

/-- One TRUE, in the first batch that holds a value. -/
def TrueFirst (batches : List BoolColumn) : Prop :=
  batches.flatten.count (some true) = 1 ∧ ∃ b ∈ batches.find? hasValue, some true ∈ b

lemma trueFirst_cons_of_hasValue (hb : hasValue b = true) :
    TrueFirst (b :: batches) ↔ b.count (some true) = 1 ∧ some true ∉ batches.flatten := by
  rw [TrueFirst, find?_cons_of_pos hb, flatten_cons, count_append, ← count_eq_zero]
  simp only [Option.mem_def, Option.some.injEq, exists_eq_left', ← count_pos_iff]
  omega

lemma trueFirst_cons_of_not_hasValue (hb : hasValue b = false) :
    TrueFirst (b :: batches) ↔ TrueFirst batches := by
  rw [TrueFirst, TrueFirst, find?_cons_of_neg (by simp [hb]), flatten_cons,
    count_append, count_eq_zero_of_hasValue hb, Nat.zero_add]

instance : DecidablePred TrueFirst :=
  fun batches => inferInstanceAs (Decidable (batches.flatten.count (some true) = 1 ∧
    ∃ b ∈ batches.find? hasValue, some true ∈ b))

lemma boolXorAgg_accumulate (batches : List BoolColumn) : boolXorAgg.accumulate batches =
    if hasValue batches.flatten = false then none else some (decide (TrueFirst batches)) := by
  rw [accumulate]
  induction batches with
  | nil => rfl
  | cons b bs ih =>
    have hs : boolXorAgg.updateBatch none b =
        if hasValue b = false then none else some (decide (b.count (some true) = 1)) := by
      refine (xorLoop_none true).trans ?_
      simp
    have hf : hasValue (b ++ bs.flatten) = (hasValue b || hasValue bs.flatten) :=
      any_append
    have hn : boolXorAgg.new = none := rfl
    rw [hn] at ih ⊢
    rw [foldl_cons, hs, flatten_cons, hf]
    cases hb : hasValue b with
    | false =>
      rw [if_pos rfl, ih, Bool.false_or, decide_eq_decide.mpr (trueFirst_cons_of_not_hasValue hb)]
    | true =>
      simp only [Bool.true_or, Bool.true_eq_false, if_false, trueFirst_cons_of_hasValue hb]
      by_cases ho : b.count (some true) = 1
      · simp only [ho, decide_true, boolXorAgg_foldl_true, true_and]
        by_cases hm : some true ∈ bs.flatten
        · rw [if_pos hm, decide_eq_false (not_not.mpr hm)]
        · rw [if_neg hm, decide_eq_true hm]
      · simp only [ho, decide_false, boolXorAgg_foldl_false, false_and]

lemma boolXorAgg_run_eq_ok_iff {calls : List (List (List BoolColumn))} {r : Option Bool} :
    boolXorAgg.run calls = .ok r ↔ boolXorAgg.accumulate ((firstRows calls).map fun batches =>
          [boolXorAgg.accumulate batches]) = r ∧ (r = some false ∨ [] ∉ calls) := by
  have hrun : boolXorAgg.run calls = boolXorAgg.merge calls := by
    rw [run]
    cases boolXorAgg.merge calls <;> rfl
  have hr : firstRows (boolXorAgg.states calls) = (firstRows calls).map boolXorAgg.accumulate :=
    firstRows_map _ calls
  rw [hrun, merge_of_firstRow (· = some false)
    (fun st v => boolXorAgg.updateBatch st [v]), hr]
  · rw [accumulate, foldl_map, foldl_map]
  · rintro s rs rfl
    rfl
  · intro s hs
    exact if_neg hs
  · intro s row rs hs
    rcases s with _ | _ | _
    · rcases row with _ | _ | _ <;> rfl
    · exact absurd rfl hs
    · rcases row with _ | _ | _ <;> rfl
  · rintro s row rfl
    rfl

variable {rows rs : List (List BoolColumn)}

lemma hasValue_of_trueFirst (h : TrueFirst batches) : hasValue batches.flatten = true := by
  obtain ⟨hc, -⟩ := h
  by_contra hn
  rw [Bool.not_eq_true] at hn
  rw [count_eq_zero_of_hasValue hn] at hc
  exact absurd hc (by simp)

lemma isSome_boolXorAgg_accumulate :
    (boolXorAgg.accumulate batches).isSome = hasValue batches.flatten := by
  rw [boolXorAgg_accumulate]
  cases hasValue batches.flatten <;> rfl

lemma boolXorAgg_accumulate_eq_true_iff :
    boolXorAgg.accumulate batches = some true ↔ TrueFirst batches := by
  rw [boolXorAgg_accumulate]
  by_cases ho : TrueFirst batches
  · simp [ho, hasValue_of_trueFirst ho]
  · cases hasValue batches.flatten <;> simp [ho]

lemma boolXorAgg_accumulate_eq_false_iff : boolXorAgg.accumulate batches = some false ↔
    hasValue batches.flatten = true ∧ ¬ TrueFirst batches := by
  rw [boolXorAgg_accumulate]
  cases hasValue batches.flatten <;> simp

def firstWithValue (rows : List (List BoolColumn)) : Option (List BoolColumn) :=
  rows.find? fun batches => hasValue batches.flatten

lemma hasValue_of_firstWithValue (h : batches ∈ firstWithValue rs) :
    batches ∈ rs ∧ hasValue batches.flatten = true :=
  ⟨mem_of_find?_eq_some h,
    find?_some (p := fun batches : List BoolColumn => hasValue batches.flatten) h⟩

lemma trueFirst_states_iff : TrueFirst (rs.map fun batches => [boolXorAgg.accumulate batches]) ↔
    rs.countP TrueFirst = 1 ∧ ∃ batches ∈ firstWithValue rs, TrueFirst batches := by
  have hf : (rs.map fun batches => [boolXorAgg.accumulate batches]).flatten =
      rs.map boolXorAgg.accumulate := by
    rw [← flatMap_def, ← map_eq_flatMap]
  have hc : (rs.map boolXorAgg.accumulate).count (some true) = rs.countP TrueFirst := by
    rw [List.count, countP_map]
    exact countP_congr fun batches _ => by simp [boolXorAgg_accumulate_eq_true_iff]
  rw [TrueFirst, hf, hc, find?_map]
  refine and_congr_right fun _ => ?_
  have hp : (hasValue ∘ fun batches => [boolXorAgg.accumulate batches]) =
      fun batches => hasValue batches.flatten := by
    funext batches
    rw [← isSome_boolXorAgg_accumulate, Function.comp_apply, hasValue, any_cons,
      any_nil, Bool.or_false]
  rw [hp, firstWithValue]
  simp [eq_comm (a := some true), boolXorAgg_accumulate_eq_true_iff]

lemma countP_trueFirst_pos (hf : batches ∈ firstWithValue rs) (ht : TrueFirst batches) :
    0 < rs.countP TrueFirst :=
  countP_pos_iff.mpr
    ⟨batches, (hasValue_of_firstWithValue hf).1, decide_eq_true ht⟩

lemma hasValue_states :
    hasValue (rows.map fun batches => [boolXorAgg.accumulate batches]).flatten = true ↔
      ∃ batches, batches ∈ firstWithValue rows := by
  rw [← flatMap_def, ← map_eq_flatMap, hasValue, any_map, any_eq_true]
  simp only [Function.comp_apply, isSome_boolXorAgg_accumulate, firstWithValue, Option.mem_def,
    ← Option.isSome_iff_exists, find?_isSome]

lemma countP_trueFirst_le : rs.countP TrueFirst ≤ rs.flatten.flatten.count (some true) := by
  induction rs with
  | nil => exact Nat.le_refl 0
  | cons batches rs ih =>
    rw [countP_cons, flatten_cons, flatten_append, count_append]
    split_ifs with ho
    · have hc := (of_decide_eq_true ho).1
      omega
    · omega

section Cut

variable {calls cs : List (List (List BoolColumn))}

lemma boolXorAgg_states_of_hasValue_eq_false (hc : IsCut cs vls) (hv : hasValue vls = false) :
    boolXorAgg.accumulate ((firstRows cs).map fun batches =>
      [boolXorAgg.accumulate batches]) = none := by
  have hn : ¬ ∃ batches, batches ∈ firstWithValue (firstRows cs) := by
    rintro ⟨batches, hf⟩
    obtain ⟨hr, hval⟩ := hasValue_of_firstWithValue hf
    obtain ⟨v, hm, hs⟩ := any_eq_true.mp hval
    rw [hasValue, any_eq_false] at hv
    exact hv v (hc.mem hr hm) hs
  rw [← hasValue_states, Bool.not_eq_true] at hn
  rw [boolXorAgg_accumulate, if_pos hn]

lemma boolXorAgg_states_eq_true_iff (hc : IsCut cs vls) (ho : vls.count (some true) = 1) :
    boolXorAgg.accumulate ((firstRows cs).map fun batches =>
        [boolXorAgg.accumulate batches]) = some true ↔
      ∃ batches ∈ firstWithValue (firstRows cs), TrueFirst batches := by
  have hle : (firstRows cs).countP TrueFirst ≤ 1 := by
    calc (firstRows cs).countP TrueFirst
        ≤ cs.flatten.countP TrueFirst := (firstRows_sublist cs).countP_le
      _ ≤ cs.flatten.flatten.flatten.count (some true) := countP_trueFirst_le
      _ = 1 := (hc.count_eq _).trans ho
  rw [boolXorAgg_accumulate_eq_true_iff, trueFirst_states_iff]
  refine and_iff_right_of_imp ?_
  rintro ⟨batches, hf, ht⟩
  have hpos := countP_trueFirst_pos hf ht
  omega

lemma boolXorAgg_states_eq_false_iff : boolXorAgg.accumulate ((firstRows cs).map fun batches =>
      [boolXorAgg.accumulate batches]) = some false ↔ ∃ batches ∈ firstWithValue (firstRows cs),
      TrueFirst batches → 2 ≤ (firstRows cs).countP TrueFirst := by
  rw [boolXorAgg_accumulate_eq_false_iff, trueFirst_states_iff, hasValue_states]
  constructor
  · rintro ⟨⟨batches, hf⟩, hn⟩
    refine ⟨batches, hf, fun ht => ?_⟩
    have hpos := countP_trueFirst_pos hf ht
    by_contra hlt
    exact hn ⟨by omega, batches, hf, ht⟩
  · rintro ⟨batches, hf, htwo⟩
    refine ⟨⟨batches, hf⟩, ?_⟩
    rintro ⟨hc, o, ho, ht⟩
    obtain rfl : o = batches := Option.mem_unique ho hf
    exact absurd (htwo ht) (by omega)

end Cut

/-- The states that are read tell whether exactly one value is TRUE. -/
def XorReadInTime (values : BoolColumn) (calls : List (List (List BoolColumn))) : Prop :=
  (hasValue values = false → [] ∉ calls) ∧
  (values.count (some true) = 1 → [] ∉ calls ∧
    ∃ batches ∈ firstWithValue (firstRows calls), TrueFirst batches) ∧
  (hasValue values = true → values.count (some true) ≠ 1 →
    ∃ batches ∈ firstWithValue (firstRows calls),
      TrueFirst batches → 2 ≤ (firstRows calls).countP TrueFirst)

/-- **`BOOLXOR_AGG`** is right for a cut exactly when the states that are read tell it. -/
theorem boolXorAgg_run_eq_iff (values : BoolColumn) (calls : List (List (List BoolColumn)))
    (hcut : IsCut calls values) :
    boolXorAgg.run calls = .ok (boolXor values) ↔ XorReadInTime values calls := by
  have hval : boolXor values = if hasValue values = false then none
      else some (decide (values.count (some true) = 1)) := by
    simp only [boolXor, hasValue_eq_false_iff]
  rw [boolXorAgg_run_eq_ok_iff, XorReadInTime, hval]
  cases hv : hasValue values with
  | false =>
    simp [boolXorAgg_states_of_hasValue_eq_false hcut hv, count_eq_zero_of_hasValue hv]
  | true =>
    by_cases ho : values.count (some true) = 1
    · rw [if_neg (by simp), decide_eq_true ho, boolXorAgg_states_eq_true_iff hcut ho]
      simp [ho, and_comm]
    · rw [if_neg (by simp), decide_eq_false ho, boolXorAgg_states_eq_false_iff]
      simp [ho]

theorem boolXorAgg_run_eq_true_first :
    boolXorAgg.run [[[[none, some true], [some false]]], [[[some false]]]] =
      .ok (boolXor [none, some true, some false, some false]) := by
  have hct : IsCut [[[[none, some true], [some false]]], [[[some false]]]]
      [none, some true, some false, some false] := List.Perm.refl _
  refine (boolXorAgg_run_eq_iff _ _ hct).mpr ⟨by simp [hasValue], fun _ => ⟨by simp, ?_⟩, ?_⟩
  · exact ⟨[[none, some true], [some false]], rfl, by decide⟩
  · exact fun _ hc => absurd rfl hc

theorem boolXorAgg_run_ne :
    boolXorAgg.run [[[[some false], [some true]]]] = .ok (some false) ∧
      boolXor [some false, some true] = some true := by
  constructor <;> rfl

end Xor

end Rustice
