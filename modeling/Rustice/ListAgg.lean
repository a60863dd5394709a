import Rustice.DelimitedText
import Rustice.PartialAggregation
import Mathlib.Data.List.Dedup
import Mathlib.Data.List.ReduceOption

/-!
# Joined Strings

`LISTAGG` pushes the strings of its rows to one text, with a delimiter that it takes from the first
row it sees.
-/

namespace Rustice

open List

abbrev Text := List Char

abbrev TextColumn := List (Option Text)

def nul : Char := '\x00'

structure HashOrder where
  iterate : List Text → List Text
  perm : ∀ values, (iterate values).Perm values

structure ListAggAccumulator where
  result : Option Text
  delimiter : Text
  delimiterSet : Bool
  isDistinct : Bool
  valueOffset : ℕ
  seenValues : List Text
deriving DecidableEq

structure ListAggState where
  agg : Option Text
  delimiter : Text
  seenValues : Option Text
deriving DecidableEq

namespace ListAggAccumulator

def new (isDistinct : Bool) (valueOffset : ℕ) : ListAggAccumulator where
  result := none
  delimiter := []
  delimiterSet := false
  isDistinct := isDistinct
  valueOffset := valueOffset
  seenValues := []

def appendValue (acc : ListAggAccumulator) (val : Text) : ListAggAccumulator :=
  if acc.isDistinct = true ∧ val ∈ acc.seenValues then acc
  else
    { acc with
      seenValues := if acc.isDistinct then val :: acc.seenValues else acc.seenValues
      result := pushText acc.delimiter acc.result val }

def appendRow (acc : ListAggAccumulator) : Option Text → ListAggAccumulator
  | none => acc
  | some val => acc.appendValue val

def setDelimiter (acc : ListAggAccumulator) : Option Text → ListAggAccumulator
  | none => acc
  | some d => if acc.delimiterSet then acc else { acc with delimiter := d, delimiterSet := true }

def updateBatch (acc : ListAggAccumulator) (values : List TextColumn) : ListAggAccumulator :=
  if values.length ≤ acc.valueOffset then acc
  else
    match values.drop acc.valueOffset with
    | [] => acc
    | [arr] => arr.foldl appendRow acc
    | arr :: delimiters :: _ => arr.foldl appendRow (acc.setDelimiter (delimiters.findSome? id))

def insertSeen (acc : ListAggAccumulator) : Option Text → ListAggAccumulator
  | none => acc
  | some seen =>
    if seen = [] then acc
    else { acc with seenValues := splitAtDelimiter [nul] seen ∪ acc.seenValues }

def mergeBatch (acc : ListAggAccumulator) (states : List TextColumn) : ListAggAccumulator :=
  match states with
  | [] => acc
  | [agg] => agg.foldl appendRow acc
  | [agg, delimiters] => agg.foldl appendRow (acc.setDelimiter delimiters.head?.join)
  | agg :: delimiters :: seen :: _ =>
    let acc := acc.setDelimiter delimiters.head?.join
    let acc := if acc.isDistinct then seen.foldl insertSeen acc else acc
    agg.foldl appendRow acc

def state (order : HashOrder) (acc : ListAggAccumulator) : ListAggState where
  agg := acc.result
  delimiter := acc.delimiter
  seenValues :=
    if acc.isDistinct then some ([nul].intercalate (order.iterate acc.seenValues)) else none

def evaluate (acc : ListAggAccumulator) : Text :=
  acc.result.getD []

end ListAggAccumulator

structure ListAggBatch (valueOffset : ℕ) where
  orderBy : Fin valueOffset → TextColumn
  values : TextColumn

def ListAggBatch.columns {n : ℕ} (d : Text) (batch : ListAggBatch n) : List TextColumn :=
  ofFn batch.orderBy ++ [batch.values, List.replicate batch.values.length (some d)]

def listAgg (order : HashOrder) (isDistinct : Bool) (n : ℕ) (d : Text) :
    Aggregate (ListAggBatch n) ListAggAccumulator ListAggState Text Empty where
  new := .new isDistinct n
  updateBatch acc batch := acc.updateBatch (batch.columns d)
  state := ListAggAccumulator.state order
  mergeBatch acc rows := .ok (acc.mergeBatch
    [rows.map ListAggState.agg, rows.map (some ·.delimiter), rows.map ListAggState.seenValues])
  evaluate acc := .ok acc.evaluate

def rowsOf {n : ℕ} (batches : List (ListAggBatch n)) : TextColumn :=
  batches.flatMap ListAggBatch.values

def stringsOf {n : ℕ} (batches : List (ListAggBatch n)) : List Text :=
  (rowsOf batches).reduceOption

variable {order o : HashOrder} {n : ℕ} {d : Text} {batches : List (ListAggBatch n)}
  (s vs : List Text)

namespace ListAggAccumulator

@[simp] lemma setDelimiter_keeps (acc : ListAggAccumulator) (d : Option Text) :
    (acc.setDelimiter d).isDistinct = acc.isDistinct ∧ (acc.setDelimiter d).result = acc.result ∧
      (acc.setDelimiter d).seenValues = acc.seenValues := by
  cases d with
  | none => exact ⟨rfl, rfl, rfl⟩
  | some d => cases h : acc.delimiterSet <;> simp [setDelimiter, h]

lemma foldl_insertSeen (acc : ListAggAccumulator) (c : TextColumn) :
    ∃ s, c.foldl insertSeen acc = { acc with seenValues := s } ∧
      ∀ v, v ∈ s ↔ v ∈ acc.seenValues ∨
        ∃ text, some text ∈ c ∧ text ≠ [] ∧ v ∈ splitAtDelimiter [nul] text := by
  induction c generalizing acc with
  | nil => exact ⟨acc.seenValues, rfl, by simp⟩
  | cons row c ih =>
    obtain ⟨s, hf, hm⟩ := ih (acc.insertSeen row)
    rw [foldl_cons, hf]
    cases row with
    | none => exact ⟨s, rfl, by simpa [insertSeen] using hm⟩
    | some text =>
      by_cases ht : text = []
      · rw [insertSeen, if_pos ht] at hm ⊢
        refine ⟨s, rfl, fun v => (hm v).trans (or_congr_right ?_)⟩
        simp [ht]
      · rw [insertSeen, if_neg ht] at hm ⊢
        refine ⟨s, rfl, fun v => (hm v).trans ?_⟩
        rw [mem_union_iff, or_comm (a := v ∈ splitAtDelimiter [nul] text), or_assoc]
        refine or_congr_right ?_
        simp [or_and_right, exists_or, ht]

lemma updateBatch_columns (acc : ListAggAccumulator) (b : ListAggBatch n)
    (ho : acc.valueOffset = n) : acc.updateBatch (b.columns d) =
      b.values.foldl appendRow (acc.setDelimiter (if b.values = [] then none else some d)) := by
  have hd : (b.columns d).drop acc.valueOffset =
      [b.values, List.replicate b.values.length (some d)] := by
    rw [ListAggBatch.columns, ho, drop_left' (length_ofFn)]
  have hl : ¬ (b.columns d).length ≤ acc.valueOffset := by simp [ListAggBatch.columns, ho]
  have hf : (List.replicate b.values.length (some d)).findSome? id =
      if b.values = [] then none else some d := by
    cases b.values with
    | nil => rfl
    | cons v vs => rfl
  rw [updateBatch, if_neg hl, hd, ← hf]

def kept (isDistinct : Bool) : List Text → List Text → List Text
  | _, [] => []
  | seen, v :: vs =>
    if isDistinct = true ∧ v ∈ seen then kept isDistinct seen vs
    else v :: kept isDistinct (v :: seen) vs

@[simp] lemma kept_false : kept false s vs = vs := by
  induction vs generalizing s with
  | nil => rfl
  | cons v vs ih => rw [kept, if_neg (by simp), ih]

lemma kept_append (isd : Bool) (s xs ys : List Text) :
    kept isd s (xs ++ ys) = kept isd s xs ++ kept isd ((kept isd s xs).reverse ++ s) ys := by
  induction xs generalizing s with
  | nil => rfl
  | cons x xs ih =>
    rw [cons_append, kept, kept]
    by_cases hs : isd = true ∧ x ∈ s
    · rw [if_pos hs, if_pos hs, ih]
    · rw [if_neg hs, if_neg hs, ih]
      simp

lemma mem_kept_true {seen vs : List Text} {v : Text} :
    v ∈ kept true seen vs ↔ v ∈ vs ∧ v ∉ seen := by
  induction vs generalizing seen with
  | nil => simp [kept]
  | cons w vs ih =>
    rw [kept]
    by_cases hs : w ∈ seen
    · rw [if_pos ⟨rfl, hs⟩, ih, mem_cons]
      refine and_congr_left fun hv => (or_iff_right ?_).symm
      rintro rfl
      exact hv hs
    · rw [if_neg fun h => hs h.2, mem_cons, ih]
      by_cases hv : v = w <;> simp [hv, hs]

lemma foldl_appendRow (acc : ListAggAccumulator) (c : TextColumn) :
    c.foldl appendRow acc =
      { acc with
        result := (kept acc.isDistinct acc.seenValues c.reduceOption).foldl
          (pushText acc.delimiter) acc.result
        seenValues :=
          if acc.isDistinct then
            (kept acc.isDistinct acc.seenValues c.reduceOption).reverse ++ acc.seenValues
          else acc.seenValues } := by
  induction c generalizing acc with
  | nil => cases h : acc.isDistinct <;> simp [kept, ← h]
  | cons v vs ih =>
    cases v with
    | none => exact ih acc
    | some val =>
      rw [foldl_cons, ih, reduceOption_cons_of_some, kept, appendRow, appendValue]
      by_cases hs : acc.isDistinct = true ∧ val ∈ acc.seenValues
      · rw [if_pos hs, if_pos hs]
      · rw [if_neg hs, if_neg hs]
        cases h : acc.isDistinct <;> simp

end ListAggAccumulator

open ListAggAccumulator

open ListAggAccumulator

def joinState (isDistinct : Bool) (n : ℕ) (d : Text) (met : Bool) (texts : List Text) :
    ListAggAccumulator where
  result := texts.foldl (pushText d) none
  delimiter := if met then d else []
  delimiterSet := met
  isDistinct := isDistinct
  valueOffset := n
  seenValues := if isDistinct then texts.reverse else []

variable {isDistinct isd : Bool}

lemma joinState_foldl_appendRow (ts : List Text) (c : TextColumn) :
    c.foldl appendRow (joinState isd n d true ts) = joinState isd n d true
        (ts ++ kept isd ts.reverse c.reduceOption) := by
  rw [foldl_appendRow, joinState, joinState, foldl_append]
  cases isd <;> simp

def keptStrings (isDistinct : Bool) (batches : List (ListAggBatch n)) : List Text :=
  kept isDistinct [] (stringsOf batches)

lemma listAgg_accumulate (batches : List (ListAggBatch n)) :
    (listAgg o isd n d).accumulate batches =
      joinState isd n d (!(rowsOf batches).isEmpty) (keptStrings isd batches) := by
  induction batches using reverseRecOn with
  | nil => cases isd <;> rfl
  | append_singleton bs b ih =>
    have hr : rowsOf (bs ++ [b]) = rowsOf bs ++ b.values := by simp [rowsOf]
    have hs : keptStrings isd (bs ++ [b]) = keptStrings isd bs ++
        kept isd (keptStrings isd bs).reverse b.values.reduceOption := by
      rw [keptStrings, stringsOf, hr, reduceOption_append,
        kept_append, append_nil]
      rfl
    have hst : (listAgg o isd n d).accumulate (bs ++ [b]) =
        ((listAgg o isd n d).accumulate bs).updateBatch (b.columns d) := by
      rw [Aggregate.accumulate, foldl_append]
      rfl
    rw [hst, ih, updateBatch_columns (joinState _ n d _ _) b rfl, hr, hs]
    by_cases hb : b.values = []
    · simp [hb, setDelimiter, kept]
    · -- The first row sets the delimiter; before it there is no string.
      have hset : (joinState isd n d (!(rowsOf bs).isEmpty)
            (keptStrings isd bs)).setDelimiter (some d) =
          joinState isd n d true (keptStrings isd bs) := by
        cases hbs : rowsOf bs with
        | nil => simp [keptStrings, stringsOf, hbs, joinState, setDelimiter,
            kept]
        | cons v vs => rfl
      have hm : (!(rowsOf bs ++ b.values).isEmpty) = true := by simp [hb]
      rw [if_neg hb, hset, joinState_foldl_appendRow, hm]

lemma joinState_result (m : Bool) (ts : List Text) :
    (joinState isd n d m ts).result = if ts = [] then none else some (joinAfterEmpty d ts) :=
  foldl_pushText

section Join

def firstDelimiter (rows : List ListAggState) : Text :=
  (rows.head?.map ListAggState.delimiter).getD []

def mergedState (n : ℕ) (rows : List ListAggState) : ListAggAccumulator :=
  joinState false n (firstDelimiter rows) (!rows.isEmpty) (rows.filterMap ListAggState.agg)

lemma mergeBatch_mergedState (sn rs : List ListAggState) :
    (mergedState n sn).mergeBatch [rs.map ListAggState.agg, rs.map (some ·.delimiter),
      rs.map ListAggState.seenValues] = mergedState n (sn ++ rs) := by
  cases rs with
  | nil => simp [mergedState, mergeBatch, setDelimiter,
      joinState]
  | cons r rs =>
    -- Only the very first row sets the delimiter, and before it there is no text.
    have hs : (mergedState n sn).setDelimiter (some r.delimiter) =
        joinState false n (firstDelimiter (sn ++ r :: rs)) true
          (sn.filterMap ListAggState.agg) := by
      cases sn with
      | nil => rfl
      | cons s ss => rfl
    have hmap : (((r :: rs).map ListAggState.agg) : TextColumn).reduceOption =
        (r :: rs).filterMap ListAggState.agg := by
      rw [reduceOption, filterMap_map]
      rfl
    have hm : (!(sn ++ r :: rs).isEmpty) = true := by simp
    have hr : mergedState n (sn ++ r :: rs) =
        ((r :: rs).map ListAggState.agg).foldl appendRow
          (joinState false n (firstDelimiter (sn ++ r :: rs)) true
            (sn.filterMap ListAggState.agg)) := by
      rw [joinState_foldl_appendRow, kept_false, hmap, ← filterMap_append,
        mergedState,
        hm]
    rw [hr]
    show List.foldl appendRow
      (if ((mergedState n sn).setDelimiter (some r.delimiter)).isDistinct then _ else _) _ = _
    rw [hs, if_neg (by simp [joinState])]
    exact congrArg (List.foldl appendRow · _) hs

lemma listAgg_merge (cs : List (List (List (ListAggBatch n)))) : (listAgg o false n d).merge cs =
    .ok (mergedState n ((listAgg o false n d).states cs).flatten) := by
  have hf : ∀ (s : List ListAggState) (rs : List (List ListAggState)),
      rs.foldlM (listAgg o false n d).mergeBatch (mergedState n s) =
        .ok (mergedState n (s ++ rs.flatten)) := by
    intro s rs
    induction rs generalizing s with
    | nil => simp [pure, Except.pure]
    | cons c rs ih =>
      have hs : (listAgg o false n d).mergeBatch (mergedState n s) c =
          .ok (mergedState n (s ++ c)) :=
        congrArg Except.ok (mergeBatch_mergedState s c)
      rw [foldlM_cons, hs, flatten_cons, ← append_assoc]
      exact ih (s ++ c)
  exact hf [] _

def partsOf (calls : List (List (List (ListAggBatch n)))) : List (List Text) :=
  (calls.flatten.map stringsOf).filter (· ≠ [])

/-- The delimiter of the partial accumulator merged first. -/
def outerDelimiter (d : Text) (calls : List (List (List (ListAggBatch n)))) : Text :=
  match calls.flatten with
  | [] => []
  | batches :: _ => if rowsOf batches = [] then [] else d

lemma listAgg_run (calls : List (List (List (ListAggBatch n)))) :
    (listAgg order false n d).run calls =
      .ok (joinAfterEmpty (outerDelimiter d calls) ((partsOf calls).map (joinAfterEmpty d))) := by
  have hs : ((listAgg order false n d).states calls).flatten = calls.flatten.map fun batches =>
        (joinState false n d (!(rowsOf batches).isEmpty) (stringsOf batches)).state order := by
    rw [Aggregate.states, ← map_flatten]
    refine map_congr_left fun batches _ => ?_
    rw [listAgg_accumulate, keptStrings, kept_false]
    rfl
  have ht : (((listAgg order false n d).states calls).flatten).filterMap ListAggState.agg =
      (partsOf calls).map (joinAfterEmpty d) := by
    rw [hs, filterMap_map, partsOf, ← filterMap_eq_map, filterMap_filter, filterMap_map]
    refine filterMap_congr fun batches _ => ?_
    show (joinState false n d true (stringsOf batches)).result = _
    rw [joinState_result]
    by_cases h : stringsOf batches = [] <;> simp [h]
  have ho : firstDelimiter ((listAgg order false n d).states calls).flatten =
      outerDelimiter d calls := by
    rw [hs, firstDelimiter, outerDelimiter]
    cases calls.flatten with
    | nil => rfl
    | cons batches _ =>
      cases h : rowsOf batches with
      | nil => simp [h, joinState, state]
      | cons v vs => simp [h, joinState, state]
  have he : ∀ rs : List ListAggState, (mergedState n rs).evaluate =
      joinAfterEmpty (firstDelimiter rs) (rs.filterMap ListAggState.agg) := by
    intro rs
    rw [evaluate, mergedState, joinState_result]
    by_cases h : rs.filterMap ListAggState.agg = []
    · rw [if_pos h, h]
      rfl
    · rw [if_neg h]
      rfl
  rw [Aggregate.run, listAgg_merge]
  show Except.ok (mergedState n _).evaluate = _
  rw [he, ht, ho]

lemma partsOf_ne_nil (cs : List (List (List (ListAggBatch n)))) : ∀ p ∈ partsOf cs, p ≠ [] :=
  fun _ hp => of_decide_eq_true (mem_filter.mp hp).2

lemma flatten_partsOf (cs : List (List (List (ListAggBatch n)))) :
    (partsOf cs).flatten = stringsOf cs.flatten.flatten := by
  rw [partsOf]
  induction cs.flatten with
  | nil => rfl
  | cons batches r ih =>
    have hs : stringsOf (batches :: r).flatten = stringsOf batches ++ stringsOf r.flatten := by
      rw [stringsOf, rowsOf, flatten_cons, flatMap_append, reduceOption_append]
      rfl
    rw [hs, ← ih, map_cons]
    by_cases h : stringsOf batches = [] <;> simp [h]

/-! ### Main results -/

/-- **`LISTAGG`** joins the strings in order exactly if no empty string or state comes first. -/
theorem listAgg_run_eq_iff (order : HashOrder) (n : ℕ) (d : Text)
    (calls : List (List (List (ListAggBatch n)))) :
    (listAgg order false n d).run calls = .ok (d.intercalate (stringsOf calls.flatten.flatten)) ↔
      d = [] ∨ (stringsOf calls.flatten.flatten).length ≤ 1 ∨
        ((stringsOf calls.flatten.flatten).head? ≠ some [] ∧ (∀ batches ∈ calls.flatten,
            (stringsOf batches).length ≤ 1 ∨ (stringsOf batches).head? ≠ some []) ∧
          ((∃ batches ∈ calls.flatten.head?, rowsOf batches ≠ []) ∨
            (partsOf calls).length ≤ 1)) := by
  have hc : outerDelimiter d calls = d ∨ outerDelimiter d calls = [] := by
    rw [outerDelimiter]
    cases calls.flatten with
    | nil => exact .inr rfl
    | cons batches rest =>
      by_cases h : rowsOf batches = [] <;> simp [h]
  rw [listAgg_run, Except.ok.injEq, ← flatten_partsOf,
    joinAfterEmpty_parts_eq_iff (partsOf_ne_nil calls) hc]
  by_cases hd : d = []
  · simp [hd]
  have ho : outerDelimiter d calls = d ↔ ∃ batches ∈ calls.flatten.head?, rowsOf batches ≠ [] := by
    rw [outerDelimiter]
    cases calls.flatten with
    | nil => simp [Ne.symm hd]
    | cons batches rest =>
      by_cases h : rowsOf batches = [] <;> simp [h, Ne.symm hd]
  have hpar : (∀ p ∈ partsOf calls, p.length ≤ 1 ∨ p.head? ≠ some []) ↔ ∀ batches ∈ calls.flatten,
        (stringsOf batches).length ≤ 1 ∨ (stringsOf batches).head? ≠ some [] := by
    constructor
    · intro h batches hm
      by_cases he : stringsOf batches = []
      · simp [he]
      · exact h _ (mem_filter.mpr ⟨mem_map_of_mem hm, decide_eq_true he⟩)
    · intro h p hp
      obtain ⟨batches, hm, rfl⟩ := mem_map.mp (mem_filter.mp hp).1
      exact h batches hm
  rw [ho, hpar]

def insertionOrder : HashOrder where
  iterate := id
  perm _ := List.Perm.refl _

theorem listAgg_run_ne :
    (listAgg insertionOrder false 0 [',']).run [[[⟨fun _ => [], [some [], some ['a']]⟩]]] =
        .ok ['a'] ∧
      [','].intercalate [[], ['a']] = [',', 'a'] ∧
      (listAgg insertionOrder false 0 [',']).run
          [[[], [⟨fun _ => [], [some ['a']]⟩], [⟨fun _ => [], [some ['b']]⟩]]] =
        .ok ['a', 'b'] ∧
      [','].intercalate [['a'], ['b']] = ['a', ',', 'b'] := by
  refine ⟨?_, ?_, ?_, ?_⟩ <;> rfl

end Join

section Distinct

/-- The pieces of the result are the distinct non-NULL strings. -/
def SplitsDistinct (order : HashOrder) (n : ℕ) (d : Text)
    (calls : List (List (List (ListAggBatch n)))) : Prop :=
  ∃ text, (listAgg order true n d).run calls = .ok text ∧
    (splitAtDelimiter d text).Perm (stringsOf calls.flatten.flatten).dedup

/-- The strings that merging a partial state marks as seen. -/
def seenOf (part : List Text) : List Text :=
  if part = [[]] then [] else part.flatMap (splitAtDelimiter [nul])

/-- The partial states of a call whose texts are new. -/
def appended (d : Text) : List Text → List (List Text) → List (List Text)
  | _, [] => []
  | seen, part :: parts =>
    if part = [] ∨ joinAfterEmpty d part ∈ seen then appended d seen parts
    else part :: appended d (joinAfterEmpty d part :: seen) parts

/-- The partial states whose texts reach the result: all strings of a call are seen before. -/
def mergedParts (d : Text) : List Text → List (List (List Text)) → List (List Text)
  | _, [] => []
  | seen, call :: calls =>
    let seen := call.flatMap seenOf ++ seen
    let parts := appended d seen call
    parts ++ mergedParts d ((parts.map (joinAfterEmpty d)).reverse ++ seen) calls

def distinctParts (d : Text) (calls : List (List (List (ListAggBatch n)))) : List (List Text) :=
  mergedParts d [] (calls.map (List.map (keptStrings true)))

variable {v : Text} {acc : ListAggAccumulator} {cs : List (List (List (ListAggBatch n)))}

lemma mem_keptStrings_true : v ∈ keptStrings true batches ↔ v ∈ stringsOf batches := by
  rw [keptStrings, mem_kept_true]
  exact and_iff_left not_mem_nil

lemma mem_of_mem_appended {s : List Text} {part : List Text} {parts : List (List Text)}
    (h : part ∈ appended d s parts) : part ∈ parts := by
  induction parts generalizing s with
  | nil => exact h
  | cons p ps ih =>
    rw [appended] at h
    split_ifs at h
    · exact mem_cons_of_mem _ (ih h)
    · exact (mem_cons.mp h).elim (· ▸ mem_cons_self) fun h => mem_cons_of_mem _ (ih h)

lemma mem_of_mem_mergedParts {s : List Text} {part : List Text} {calls : List (List (List Text))}
    (h : part ∈ mergedParts d s calls) : ∃ call ∈ calls, part ∈ call := by
  induction calls generalizing s with
  | nil => exact absurd h not_mem_nil
  | cons c cs ih =>
    rcases mem_append.mp h with h | h
    · exact ⟨c, mem_cons_self, mem_of_mem_appended h⟩
    · obtain ⟨call, hc, hp⟩ := ih h
      exact ⟨call, mem_cons_of_mem _ hc, hp⟩

lemma mem_stringsOf_of_mem_distinctParts {part : List Text} (h : part ∈ distinctParts d cs)
    (hv : v ∈ part) : v ∈ stringsOf cs.flatten.flatten := by
  obtain ⟨_, hc, hp⟩ := mem_of_mem_mergedParts h
  obtain ⟨c, hcs, rfl⟩ := mem_map.mp hc
  obtain ⟨batches, hb, rfl⟩ := mem_map.mp hp
  obtain ⟨b, hb', hv⟩ := mem_flatMap.mp (reduceOption_mem_iff.mp (mem_keptStrings_true.mp hv))
  exact reduceOption_mem_iff.mpr (mem_flatMap.mpr
    ⟨b, mem_flatten_of_mem (mem_flatten_of_mem hcs hb) hb', hv⟩)

lemma kept_congr {s s' : List Text} (h : ∀ v, v ∈ s ↔ v ∈ s') (vs : List Text) :
    kept true s vs = kept true s' vs := by
  induction vs generalizing s s' with
  | nil => rfl
  | cons v vs ih =>
    have hc : ∀ w, w ∈ v :: s ↔ w ∈ v :: s' := fun w => by rw [mem_cons, mem_cons, h w]
    simp only [kept, h v, ih h, ih hc]

/-- The state that a partial accumulator sends. -/
def partialState (order : HashOrder) (d : Text) (batches : List (ListAggBatch n)) : ListAggState :=
  (listAgg order true n d).state ((listAgg order true n d).accumulate batches)

lemma partialState_agg : (partialState o d batches).agg =
    if keptStrings true batches = [] then none
    else some (joinAfterEmpty d (keptStrings true batches)) := by
  rw [partialState, listAgg_accumulate]
  exact @joinState_result n d true (!(rowsOf batches).isEmpty) _

lemma mem_seen_partialState : (∃ text, some text = (partialState o d batches).seenValues ∧
    text ≠ [] ∧ v ∈ splitAtDelimiter [nul] text) ↔ v ∈ seenOf (keptStrings true batches) := by
  have hs : (partialState o d batches).seenValues =
      some ([nul].intercalate (o.iterate (keptStrings true batches).reverse)) := by
    rw [partialState, listAgg_accumulate]
    rfl
  have hp := (o.perm _).trans (reverse_perm (keptStrings true batches))
  rw [hs, seenOf]
  revert hp
  generalize o.iterate _ = texts
  generalize keptStrings true batches = part
  intro hp
  simp only [Option.some.injEq, exists_eq_left]
  split_ifs with h
  · rw [h, perm_singleton] at hp
    simp [hp]
  · by_cases he : part = []
    · rw [he] at hp ⊢
      simp [hp.eq_nil]
    · have hne : texts ≠ [] := fun ht => he (ht ▸ hp).nil_eq.symm
      have hj : [nul].intercalate texts ≠ [] := by
        intro hj
        match texts, hne, hj with
        | [t], _, hj =>
          rw [intercalate_singleton] at hj
          exact h (perm_singleton.mp (hj ▸ hp).symm)
        | t :: u :: us, _, hj => simp [intercalate_cons_cons] at hj
      rw [and_iff_right hj, splitAtDelimiter_singleton_intercalate nul hne]
      exact (hp.flatMap_right _).mem_iff

lemma kept_partialStates (s : List Text) (call : List (List (ListAggBatch n))) :
    kept true s (call.map fun b => (partialState o d b).agg).reduceOption =
      (appended d s (call.map (keptStrings true))).map (joinAfterEmpty d) := by
  induction call generalizing s with
  | nil => rfl
  | cons b bs ih =>
    rw [map_cons, map_cons, appended, partialState_agg]
    by_cases hk : keptStrings true b = []
    · rw [if_pos hk, if_pos (.inl hk)]
      exact ih s
    · rw [if_neg hk, reduceOption_cons_of_some, kept]
      by_cases hs : joinAfterEmpty d (keptStrings true b) ∈ s
      · rw [if_pos ⟨rfl, hs⟩, if_pos (.inr hs), ih]
      · rw [if_neg fun h => hs h.2, if_neg (not_or.mpr ⟨hk, hs⟩), ih, map_cons]

lemma mergeBatch_distinct (ha : acc.isDistinct = true) (rs : List ListAggState) :
    acc.mergeBatch [rs.map ListAggState.agg, rs.map (some ·.delimiter),
      rs.map ListAggState.seenValues] = (rs.map ListAggState.agg).foldl appendRow
        ((rs.map ListAggState.seenValues).foldl insertSeen
          (acc.setDelimiter (rs.head?.map ListAggState.delimiter))) := by
  have hd : (rs.map (some ·.delimiter)).head?.join = rs.head?.map ListAggState.delimiter := by
    cases rs <;> rfl
  rw [← hd]
  show List.foldl appendRow
    (if (acc.setDelimiter (rs.map (some ·.delimiter)).head?.join).isDistinct then _ else _) _ = _
  rw [(setDelimiter_keeps _ _).1, if_pos ha]

lemma mergeBatch_partialStates {s : List Text} (ha : acc.isDistinct = true)
    (hd : acc.delimiterSet = true) (hs : ∀ v, v ∈ acc.seenValues ↔ v ∈ s)
    (call : List (List (ListAggBatch n))) :
    let seen := (call.map (keptStrings true)).flatMap seenOf ++ s
    let texts := (appended d seen (call.map (keptStrings true))).map (joinAfterEmpty d)
    ∃ s', (listAgg o true n d).mergeBatch acc (call.map (partialState o d)) =
        .ok { acc with
          result := texts.foldl (pushText acc.delimiter) acc.result
          seenValues := s' } ∧ ∀ v, v ∈ s' ↔ v ∈ texts.reverse ++ seen := by
  intro seen texts
  have hset (x : Option Text) : acc.setDelimiter x = acc := by
    cases x <;> simp [setDelimiter, hd]
  obtain ⟨s', hf, hm⟩ := foldl_insertSeen acc
    ((call.map (partialState o d)).map ListAggState.seenValues)
  have hseen : ∀ v, v ∈ s' ↔ v ∈ seen := by
    intro v
    rw [hm, hs, mem_append, or_comm, map_map, flatMap_map, mem_flatMap]
    refine or_congr_left ⟨?_, ?_⟩
    · rintro ⟨text, ht, hv⟩
      obtain ⟨b, hb, ht⟩ := mem_map.mp ht
      exact ⟨b, hb, mem_seen_partialState.mp ⟨text, ht.symm, hv⟩⟩
    · rintro ⟨b, hb, hv⟩
      obtain ⟨text, ht, hv⟩ := (mem_seen_partialState (o := o) (d := d)).mpr hv
      exact ⟨text, mem_map.mpr ⟨b, hb, ht.symm⟩, hv⟩
  have hk : kept true s'
      ((call.map (partialState o d)).map ListAggState.agg).reduceOption = texts := by
    rw [kept_congr hseen, map_map]
    exact kept_partialStates seen call
  refine ⟨texts.reverse ++ s', ?_, fun v => by rw [mem_append, mem_append, hseen]⟩
  show Except.ok (acc.mergeBatch _) = _
  rw [mergeBatch_distinct ha, hset, hf, foldl_appendRow]
  dsimp only
  rw [ha, hk, if_pos rfl]

lemma foldlM_partialStates {s : List Text} (ha : acc.isDistinct = true)
    (hd : acc.delimiterSet = true) (hs : ∀ v, v ∈ acc.seenValues ↔ v ∈ s) :
    ∃ f, ((listAgg o true n d).states cs).foldlM (listAgg o true n d).mergeBatch acc = .ok f ∧
      f.result = ((mergedParts d s (cs.map (List.map (keptStrings true)))).map
        (joinAfterEmpty d)).foldl (pushText acc.delimiter) acc.result := by
  induction cs generalizing acc s with
  | nil => exact ⟨acc, rfl, rfl⟩
  | cons c cs ih =>
    obtain ⟨s', hm, hs'⟩ := mergeBatch_partialStates (o := o) (d := d) ha hd hs c
    rw [Aggregate.states, map_cons, foldlM_cons]
    obtain ⟨f, hf, hr⟩ := @ih { acc with result := _, seenValues := s' } _ ha hd hs'
    refine ⟨f, (congrArg (· >>= _) hm).trans hf, ?_⟩
    rw [hr, map_cons, mergedParts, map_append, foldl_append]

lemma listAggDistinct_run (cs : List (List (List (ListAggBatch n)))) :
    (listAgg o true n d).run cs = .ok
      (joinAfterEmpty (outerDelimiter d cs) ((distinctParts d cs).map (joinAfterEmpty d))) := by
  have hf : ∃ f, (listAgg o true n d).merge cs = .ok f ∧
      f.result = ((distinctParts d cs).map (joinAfterEmpty d)).foldl
        (pushText (outerDelimiter d cs)) none := by
    induction cs with
    | nil => exact ⟨_, rfl, rfl⟩
    | cons c cs ih =>
      cases c with
      | nil => exact ih
      | cons b bs =>
        -- The first row of all sets the delimiter.
        have hd : (partialState o d b).delimiter = outerDelimiter d ((b :: bs) :: cs) := by
          rw [partialState, listAgg_accumulate, outerDelimiter]
          cases h : rowsOf b with
          | nil => simp [h, listAgg, joinState, state]
          | cons v vs => simp [h, listAgg, joinState, state]
        obtain ⟨f, hf, hr⟩ := @foldlM_partialStates o n d
          ((new true n).setDelimiter (some (partialState o d b).delimiter))
          ((b :: bs) :: cs) [] rfl rfl fun _ => Iff.rfl
        refine ⟨f, hf, ?_⟩
        rw [hr, ← hd]
        rfl
  obtain ⟨f, hf, hr⟩ := hf
  rw [Aggregate.run, hf]
  show Except.ok (f.result.getD []) = _
  rw [hr, foldl_pushText]
  split_ifs with h
  · rw [h]
    rfl
  · rfl

lemma joinAfterEmpty_outerDelimiter {cs : List (List (List (ListAggBatch n)))}
    (h : outerDelimiter d cs = d ∨ (distinctParts d cs).length ≤ 1) :
    joinAfterEmpty (outerDelimiter d cs) ((distinctParts d cs).map (joinAfterEmpty d)) =
      d.intercalate (shown ((distinctParts d cs).flatMap shown)) := by
  rw [← joinAfterEmpty_parts]
  rcases h with h | h
  · rw [h]
  · have hl : ((distinctParts d cs).map (joinAfterEmpty d)).length ≤ 1 := by simpa using h
    rw [joinAfterEmpty_of_length_le hl, joinAfterEmpty_of_length_le hl]
    match distinctParts d cs, h with
    | [], _ => rfl
    | [p], _ => simp

lemma outerDelimiter_eq_nil {cs : List (List (List (ListAggBatch n)))}
    (h : outerDelimiter d cs ≠ d) : outerDelimiter d cs = [] := by
  rw [outerDelimiter] at h ⊢
  split at h
  · rfl
  · split_ifs at h ⊢
    · rfl
    · exact absurd rfl h

end Distinct

end Rustice
