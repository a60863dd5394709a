import Rustice.OrderStatistic
import Rustice.PartialAggregation

/-!
# Continuous Percentiles

`PERCENTILE_CONT` collects the numbers of a group and interpolates the percentile between the two of
them that are next to it.
-/

namespace Rustice

open List OrderStatistic

def f64Epsilon : ℚ :=
  1 / 4503599627370496

lemma f64Epsilon_pos : 0 < f64Epsilon := by norm_num [f64Epsilon]

lemma f64Epsilon_le_one : f64Epsilon ≤ 1 := by norm_num [f64Epsilon]

structure Percentile where
  value : ℚ
  nonneg : 0 ≤ value
  le_one : value ≤ 1

inductive PercentileError where
  | notImplemented (message : String)
  | plan (message : String)
  deriving DecidableEq

structure PercentileAccumulator where
  percentile : Percentile
  values : List ℚ

inductive PercentileScalar where
  | null
  | number (value : ℚ)
  | other

def valueToF64 : PercentileScalar → Option ℚ
  | .number value => some value
  | _ => none

namespace PercentileAccumulator

def push (acc : PercentileAccumulator) (value : PercentileScalar) : PercentileAccumulator :=
  match value with
  | .null => acc
  | value =>
    match valueToF64 value with
    | some f => { acc with values := acc.values ++ [f] }
    | none => acc

def updateBatch (acc : PercentileAccumulator) (array : List PercentileScalar) :
    PercentileAccumulator :=
  array.foldl push acc

def index (p : Percentile) (n : ℕ) : ℚ :=
  p.value * (n - 1)

lemma lowerIdx_lt (p : Percentile) {n : ℕ} (hn : n ≠ 0) : ⌊index p n⌋₊ < n := by
  have hc : (1 : ℚ) ≤ n := by exact_mod_cast Nat.one_le_iff_ne_zero.mpr hn
  refine (Nat.floor_lt (mul_nonneg p.nonneg (by linarith))).mpr ?_
  have hle : p.value * ((n : ℚ) - 1) ≤ 1 * (n - 1) :=
    mul_le_mul_of_nonneg_right p.le_one (by linarith)
  linarith

lemma upperIdx_lt (p : Percentile) {n : ℕ} (hn : n ≠ 0)
    (h : ¬ |index p n - ⌊index p n⌋₊| < f64Epsilon) : ⌊index p n⌋₊ + 1 < n := by
  by_contra hl
  have heq : n = ⌊index p n⌋₊ + 1 := by
    have := lowerIdx_lt p hn
    omega
  have hc : (n : ℚ) = ⌊index p n⌋₊ + 1 := by exact_mod_cast heq
  have hnon : (0 : ℚ) ≤ ⌊index p n⌋₊ := Nat.cast_nonneg _
  have hi : index p n ≤ ⌊index p n⌋₊ := by
    have hle : p.value * ((n : ℚ) - 1) ≤ 1 * (n - 1) :=
      mul_le_mul_of_nonneg_right p.le_one (by linarith)
    calc index p n ≤ 1 * (n - 1) := hle
      _ = ⌊index p n⌋₊ := by linarith
  have hf : (⌊index p n⌋₊ : ℚ) ≤ index p n :=
    Nat.floor_le (mul_nonneg p.nonneg (by linarith))
  rw [sub_eq_zero.mpr (le_antisymm hi hf), abs_zero] at h
  exact h f64Epsilon_pos

def evaluateSorted (p : Percentile) (values : List ℚ) : Option ℚ :=
  if hempty : values.length = 0 then none
  else if values.length = 1 then some (values.get ⟨0, Nat.pos_of_ne_zero hempty⟩)
  else
    let lowerIdx := ⌊index p values.length⌋₊
    let lower := values.get ⟨lowerIdx, lowerIdx_lt p hempty⟩
    if hexact : |index p values.length - lowerIdx| < f64Epsilon then some lower
    else
      let upper := values.get ⟨lowerIdx + 1, upperIdx_lt p hempty hexact⟩
      let factor := index p values.length - lowerIdx
      some ((upper - lower) * factor + lower)

def evaluate (acc : PercentileAccumulator) : Option ℚ :=
  evaluateSorted acc.percentile (acc.values.insertionSort (· ≤ ·))

def state (acc : PercentileAccumulator) : ℚ × Option ℚ :=
  let value :=
    match acc.values with
    | [] => none
    | [value] => some value
    | _ => acc.evaluate
  (acc.percentile.value, value)

def ofState (value : Option ℚ) : PercentileScalar :=
  match value with
  | none => .null
  | some value => .number value

def mergeBatch (acc : PercentileAccumulator) (states : List (ℚ × Option ℚ)) :
    Except PercentileError PercentileAccumulator :=
  match states with
  | [] => .ok acc
  | states => .ok ((states.map fun row => ofState row.2).foldl push acc)

end PercentileAccumulator

open PercentileAccumulator

def percentileCont (p : Percentile) :
    Aggregate (List PercentileScalar) PercentileAccumulator (ℚ × Option ℚ) (Option ℚ)
      PercentileError where
  new := ⟨p, []⟩
  updateBatch := updateBatch
  state := state
  mergeBatch := mergeBatch
  evaluate acc := .ok acc.evaluate

def numbers (column : List PercentileScalar) : List ℚ :=
  column.filterMap valueToF64

namespace PercentileAccumulator

variable (acc : PercentileAccumulator)

lemma foldl_push (column : List PercentileScalar) :
    column.foldl push acc = ⟨acc.percentile, acc.values ++ numbers column⟩ := by
  induction column generalizing acc with
  | nil => simp [numbers]
  | cons v column ih =>
    rw [foldl_cons, ih]
    cases v with
    | null => rfl
    | number f =>
      have hn : numbers (.number f :: column) = f :: numbers column := rfl
      rw [hn, append_cons]
      rfl
    | other => rfl

lemma evaluateSorted_eq (p : Percentile) (values : List ℚ) :
    evaluateSorted p values = if values.length = 0 then none
      else some (values.getD (lowerRank p.value values.length) 0 +
        fraction f64Epsilon p.value values.length *
          (values.getD (lowerRank p.value values.length + 1) 0 -
            values.getD (lowerRank p.value values.length) 0)) := by
  by_cases he : values.length = 0
  · rw [evaluateSorted, dif_pos he, if_pos he]
  have hfl : (⌊index p values.length⌋₊ : ℚ) ≤ index p values.length :=
    lowerRank_le p.nonneg (Nat.one_le_iff_ne_zero.mpr he)
  have habs : |index p values.length - ⌊index p values.length⌋₊| =
      index p values.length - ⌊index p values.length⌋₊ := abs_of_nonneg (by linarith)
  by_cases ho : values.length = 1
  · obtain ⟨x, rfl⟩ := length_eq_one_iff.mp ho
    simp [evaluateSorted, lowerRank_one, fraction_one f64Epsilon_pos]
  have hl : values.getD (lowerRank p.value values.length) 0 =
      values.get ⟨_, lowerIdx_lt p he⟩ := getD_eq_getElem _ _ _
  simp only [evaluateSorted, dif_neg he, if_neg he, if_neg ho]
  split_ifs with hex
  · have hz : fraction f64Epsilon p.value values.length = 0 := if_pos (habs ▸ hex)
    rw [hz, zero_mul, add_zero, hl]
  · have hf : fraction f64Epsilon p.value values.length =
        index p values.length - ⌊index p values.length⌋₊ := if_neg (habs ▸ hex)
    have hu : values.getD (lowerRank p.value values.length + 1) 0 =
        values.get ⟨_, upperIdx_lt p he hex⟩ := getD_eq_getElem _ _ _
    rw [hf, hl, hu, Option.some.injEq]
    ring

lemma evaluate_eq : acc.evaluate = if acc.values = [] then none
    else some (interpolate f64Epsilon acc.percentile.value acc.values) := by
  rw [evaluate, evaluateSorted_eq, length_insertionSort, interpolate]
  simp only [length_eq_zero_iff]

lemma state_eq : acc.state = (acc.percentile.value, acc.evaluate) := by
  obtain ⟨p, vs⟩ := acc
  match vs with
  | [] => rfl
  | [value] => rfl
  | _ :: _ :: _ => rfl

end PercentileAccumulator

variable {p : Percentile} (cs : List (List (List (List PercentileScalar))))

lemma percentileCont_accumulate (bs : List (List PercentileScalar)) :
    (percentileCont p).accumulate bs = ⟨p, numbers bs.flatten⟩ := by
  have hf : (percentileCont p).accumulate bs = bs.flatten.foldl push ⟨p, []⟩ :=
    foldl_flatten.symm
  rw [hf, foldl_push, nil_append]

def numberParts (calls : List (List (List (List PercentileScalar)))) : List (List ℚ) :=
  (calls.flatten.map fun batches => numbers batches.flatten).filter (!·.isEmpty)

lemma numbers_map_state (cs : List (List (List PercentileScalar))) :
    numbers (cs.map fun bs => ofState ((percentileCont p).accumulate bs).state.2) =
      ((cs.map fun bs => numbers bs.flatten).filter (!·.isEmpty)).map
        (interpolate f64Epsilon p.value) := by
  induction cs with
  | nil => rfl
  | cons bs cs ih =>
    rw [map_cons, map_cons, numbers, filterMap_cons, ← numbers, ih,
      percentileCont_accumulate, state_eq, evaluate_eq]
    by_cases hn : numbers bs.flatten = []
    · simp [hn, ofState, valueToF64]
    · simp [hn, ofState, valueToF64]

lemma percentileCont_run : (percentileCont p).run cs = .ok (evaluate ⟨p, (numberParts cs).map
    (interpolate f64Epsilon p.value)⟩) := by
  have hmer : ∀ acc rs, (percentileCont p).mergeBatch acc rs =
      .ok (rs.foldl (fun acc r => acc.push (ofState r.2)) acc) := by
    intro acc rs
    cases rs with
    | nil => rfl
    | cons r rs =>
      change Except.ok _ = _
      rw [foldl_map]
  have hm : (percentileCont p).merge cs = .ok ((cs.flatten.map fun bs =>
        ofState ((percentileCont p).accumulate bs).state.2).foldl push ⟨p, []⟩) := by
    rw [Aggregate.merge_of_row _ hmer, Aggregate.states, ← map_flatten, foldl_map, foldl_map]
    rfl
  rw [Aggregate.run, hm, foldl_push, numbers_map_state, nil_append]
  rfl

def numberCount (batches : List (List PercentileScalar)) : ℕ :=
  (numbers batches.flatten).length

lemma map_length_numberParts :
    (numberParts cs).map List.length = (cs.flatten.map numberCount).filter (0 < ·) := by
  have hc : (!·.isEmpty) ∘ (fun bs => numbers bs.flatten) =
      (fun c => decide (0 < c)) ∘ numberCount := by
    funext bs
    rw [Function.comp_apply, Function.comp_apply, numberCount]
    cases numbers bs.flatten <;> simp
  rw [numberParts, filter_map, filter_map, map_map, hc]
  rfl

lemma flatten_numberParts (c : List (List (List (List PercentileScalar)))) :
    (numberParts c).flatten = numbers c.flatten.flatten.flatten := by
  have hn : ∀ cs : List (List (List PercentileScalar)),
      (cs.map fun bs => numbers bs.flatten).flatten = numbers cs.flatten.flatten := by
    intro cs
    induction cs with
    | nil => rfl
    | cons bs cs ih =>
      rw [map_cons, flatten_cons, ih, flatten_cons, flatten_append, numbers,
        numbers, numbers, filterMap_append]
  rw [numberParts, flatten_filter_not_isEmpty, hn]

lemma numbers_map_number (values : List ℚ) :
    numbers (values.map PercentileScalar.number) = values := by
  rw [numbers, filterMap_map]
  exact filterMap_some

lemma sum_filter_pos (cs : List ℕ) : (cs.filter (0 < ·)).sum = cs.sum := by
  induction cs with
  | nil => rfl
  | cons c cs ih =>
    rw [filter_cons, sum_cons]
    split_ifs with hpos
    · rw [sum_cons, ih]
    · have hz : c = 0 := by simpa using hpos
      rw [ih, hz, Nat.zero_add]

lemma percentileCont_run_eq_accumulate_iff {cs : List (List (List (List PercentileScalar)))}
    {bs : List (List PercentileScalar)} (hc : IsCut cs bs.flatten) :
    (percentileCont p).run cs = .ok ((percentileCont p).accumulate bs).evaluate ↔
      interpolate f64Epsilon p.value ((numberParts cs).map (interpolate f64Epsilon p.value)) =
        interpolate f64Epsilon p.value (numberParts cs).flatten := by
  have hper : (numbers bs.flatten).Perm (numberParts cs).flatten := by
    rw [flatten_numberParts]
    exact (hc.filterMap valueToF64).symm
  have hnil : numbers bs.flatten = [] ↔ numberParts cs = [] := by
    rw [← length_eq_zero_iff, hper.length_eq, length_eq_zero_iff, flatten_eq_nil_iff]
    constructor
    · intro ha
      refine eq_nil_iff_forall_not_mem.mpr fun pt hp => ?_
      have hs := of_mem_filter hp
      rw [ha pt hp] at hs
      cases hs
    · intro hn pt hp
      rw [hn] at hp
      exact absurd hp not_mem_nil
  rw [percentileCont_run, percentileCont_accumulate, evaluate_eq, evaluate_eq, Except.ok.injEq,
    interpolate_perm hper]
  simp only [map_eq_nil_iff, hnil]
  split_ifs with hpar
  · simp [hpar]
  · rw [Option.some.injEq]

lemma exists_numberParts {cs : List ℕ} {parts : List (List ℚ)}
    (hlen : (parts.map List.length).Perm (cs.filter (0 < ·))) :
    ∃ calls : List (List (List (List PercentileScalar))),
      (calls.flatten.map numberCount).Perm cs ∧ numberParts calls = parts := by
  let calls := [parts.map (fun pt => [pt.map PercentileScalar.number]) ++
    (cs.filter fun c => !decide (0 < c)).map fun _ => []]
  have hn : calls.flatten.map (fun bs => numbers bs.flatten) =
      parts ++ (cs.filter fun c => !decide (0 < c)).map fun _ => [] := by
    rw [flatten_singleton, map_append, map_map, map_map]
    congr 1
    refine (map_congr_left fun pt _ => ?_).trans (map_id parts)
    rw [Function.comp_apply, flatten_singleton, numbers_map_number, id]
  refine ⟨calls, ?_, ?_⟩
  · have hmap : calls.flatten.map numberCount =
        parts.map List.length ++ cs.filter fun c => !decide (0 < c) := by
      have hl : calls.flatten.map numberCount =
          (calls.flatten.map fun bs => numbers bs.flatten).map List.length :=
        map_map.symm
      rw [hl, hn, map_append, map_map]
      congr 1
      refine (map_congr_left fun c hc => ?_).trans (map_id _)
      have hz := (mem_filter.mp hc).2
      rw [Bool.not_eq_true', decide_eq_false_iff_not] at hz
      exact (Nat.eq_zero_of_not_pos hz).symm
    rw [hmap]
    exact (hlen.append_right _).trans (filter_append_perm _ cs)
  · have hs : ∀ pt ∈ parts, (!pt.isEmpty) = true := by
      intro pt hp
      have hl := (mem_filter.mp (hlen.subset (mem_map_of_mem hp))).2
      simpa [length_pos_iff] using hl
    rw [numberParts, hn, filter_append, filter_eq_self.mpr hs]
    simp

/-! ### Main result -/

/-- **`PERCENTILE_CONT` survives every cut** exactly if `p` is extreme, or one part has all numbers,
or none has two. -/
theorem percentileCont_run_eq_iff (p : Percentile) (counts : List ℕ) :
    (∀ (calls : List (List (List (List PercentileScalar))))
      (batches : List (List PercentileScalar)),
        (calls.flatten.map numberCount).Perm counts → IsCut calls batches.flatten →
        (percentileCont p).run calls = .ok ((percentileCont p).accumulate batches).evaluate) ↔
      p.value * (counts.sum - 1) < f64Epsilon ∨ p.value = 1 ∨
        (counts.filter (0 < ·)).length ≤ 1 ∨ ∀ count ∈ counts, count ≤ 1 := by
  have hpos : ∀ m ∈ counts.filter (0 < ·), 1 ≤ m := fun m hm =>
    of_decide_eq_true (p := 0 < m) (mem_filter.mp hm).2
  have hsum : (counts.filter (0 < ·)).sum = counts.sum := sum_filter_pos counts
  have hs : (∀ m ∈ counts.filter (0 < ·), m = 1) ↔ ∀ count ∈ counts, count ≤ 1 := by
    simp only [mem_filter, decide_eq_true_eq, and_imp]
    exact forall₂_congr fun m _ => by omega
  rw [← hsum, ← hs, ← composes_iff p.nonneg p.le_one f64Epsilon_pos f64Epsilon_le_one hpos]
  constructor
  · intro h parts hl
    obtain ⟨calls, hc, hp⟩ := exists_numberParts hl
    have heq := h calls [calls.flatten.flatten.flatten] hc
      (by rw [flatten_singleton]; exact List.Perm.refl _)
    rwa [percentileCont_run_eq_accumulate_iff
      (by rw [flatten_singleton]; exact List.Perm.refl _), hp] at heq
  · intro h calls batches hc hct
    refine (percentileCont_run_eq_accumulate_iff hct).mpr (h _ ?_)
    rw [map_length_numberParts]
    exact hc.filter _

def median : Percentile where
  value := 1 / 2
  nonneg := one_half_pos.le
  le_one := one_half_lt_one.le

theorem percentileCont_run_ne :
    (percentileCont median).run [[[[.number 0]], [[.number 1, .number 2]]]] = .ok (some (3 / 4)) ∧
      ((percentileCont median).accumulate [[.number 0, .number 1, .number 2]]).evaluate =
        some 1 := by
  constructor <;> decide +kernel

end Rustice
