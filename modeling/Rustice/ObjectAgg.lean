import Rustice.ObjectConstruct
import Rustice.PartialAggregation
import Rustice.StringMap

/-!
# `OBJECT_AGG`

The rows of a group are pairs of a key and a value, and become the members of one object.
-/

namespace Rustice

open List

/-- A scalar of the value column: of type `Utf8`, or of another type, with its form in JSON. -/
inductive AggValue (ν : Type) where
  | utf8 (s : String)
  | other (json : JsonValue ν)

inductive ObjectAggError where
  | duplicateKeys (key : String)
  | failedToSerializeValue (value : String)

abbrev AggResult (α : Type) := Except ObjectAggError α

variable {α ν : Type} {o o' : JsonObject ν}

abbrev AggRows (α : Type) := List (Option String × Option α)

abbrev AggCalls (α : Type) := List (List (List (AggRows α)))

structure ObjectAggAccumulator (α : Type) where
  keys : List String
  values : List α
  keysSeen : Finset String
  mem_keysSeen : ∀ key, key ∈ keysSeen ↔ key ∈ keys
  nodup_keys : keys.Nodup
  length_eq : keys.length = values.length

namespace ObjectAggAccumulator

def new : ObjectAggAccumulator α where
  keys := []
  values := []
  keysSeen := ∅
  mem_keysSeen key := by simp
  nodup_keys := nodup_nil
  length_eq := rfl

def push (acc : ObjectAggAccumulator α) (entry : String × α) :
    AggResult (ObjectAggAccumulator α) :=
  if h : entry.1 ∈ acc.keysSeen then .error (.duplicateKeys entry.1)
  else .ok {
    keys := acc.keys ++ [entry.1]
    values := acc.values ++ [entry.2]
    keysSeen := insert entry.1 acc.keysSeen
    mem_keysSeen := fun key => by
      rw [Finset.mem_insert, acc.mem_keysSeen, mem_append, mem_singleton, or_comm]
    nodup_keys := nodup_append.mpr ⟨acc.nodup_keys, nodup_singleton _, fun key hkey key' hkey' => by
      rw [mem_singleton.mp hkey']
      rintro rfl
      exact h ((acc.mem_keysSeen _).mpr hkey)⟩
    length_eq := by rw [length_append, length_append, acc.length_eq]; rfl }

def updateRow (acc : ObjectAggAccumulator α) :
    Option String × Option α → AggResult (ObjectAggAccumulator α)
  | (some key, some value) => acc.push (key, value)
  | _ => .ok acc

def updateBatch (acc : ObjectAggAccumulator α) (rows : AggRows α) :
    AggResult (ObjectAggAccumulator α) :=
  rows.foldlM updateRow acc

def state (acc : ObjectAggAccumulator α) : List (String × α) := acc.keys.zip acc.values

def mergeBatch (acc : ObjectAggAccumulator α) (states : List (List (String × α))) :
    AggResult (ObjectAggAccumulator α) :=
  states.foldlM (fun acc entries => entries.foldlM push acc) acc

end ObjectAggAccumulator

section Evaluate

variable (fromStr : String → Option (JsonValue ν))

def entryValue : AggValue ν → AggResult (Option (JsonValue ν))
  | .utf8 s =>
    match fromStr s with
    | some value => .ok (some value)
    | none => .error (.failedToSerializeValue s)
  | .other _ => .ok none

namespace ObjectAggAccumulator

def insertMember (object : JsonObject ν) (entry : String × AggValue ν) :
    AggResult (JsonObject ν) := do
  let value ← entryValue fromStr entry.2
  return insertOption object (value.map fun value => (entry.1, value))

def evaluate (acc : ObjectAggAccumulator (AggValue ν)) : AggResult (JsonObject ν) :=
  (acc.keys.zip acc.values).foldlM (insertMember fromStr) ∅

end ObjectAggAccumulator

open ObjectAggAccumulator in
def objectAgg : FallibleAggregate (AggRows (AggValue ν))
    (ObjectAggAccumulator (AggValue ν)) (List (String × AggValue ν)) (JsonObject ν)
    ObjectAggError where
  new := new
  updateBatch := updateBatch
  state := state
  mergeBatch := mergeBatch
  evaluate := evaluate fromStr

end Evaluate

def pairs (rows : AggRows α) : List (String × α) :=
  rows.filterMap fun row => row.1.bind fun key => row.2.map fun value => (key, value)

namespace ObjectAggAccumulator

variable {acc acc' : ObjectAggAccumulator α} {e : String × α} {entries es : List (String × α)}

lemma map_fst_state (acc : ObjectAggAccumulator α) : acc.state.map Prod.fst = acc.keys :=
  map_fst_zip (Nat.le_of_eq acc.length_eq)

lemma exists_push (h : e.1 ∉ acc.keys) :
    ∃ acc', acc.push e = .ok acc' ∧ acc'.state = acc.state ++ [e] :=
  ⟨_, dif_neg fun hm => h ((acc.mem_keysSeen _).mp hm), zip_append acc.length_eq⟩

lemma state_of_push (h : acc.push e = .ok acc') : acc'.state = acc.state ++ [e] := by
  by_cases hm : e.1 ∈ acc.keysSeen
  · rw [push, dif_pos hm] at h
    cases h
  · obtain ⟨acc'', hp, hs⟩ := exists_push fun hk => hm ((acc.mem_keysSeen _).mpr hk)
    rw [h] at hp
    cases hp
    exact hs

lemma state_of_foldlM_push (h : entries.foldlM push acc = .ok acc') :
    acc'.state = acc.state ++ entries := by
  induction entries generalizing acc with
  | nil =>
    cases h
    rw [append_nil]
  | cons e entries ih =>
    obtain ⟨next, hn, h⟩ := bind_eq_ok.mp h
    rw [ih h, state_of_push hn, append_assoc, singleton_append]

lemma exists_foldlM_push (h : ((acc.state ++ es).map Prod.fst).Nodup) :
    ∃ acc', es.foldlM push acc = .ok acc' := by
  induction es generalizing acc with
  | nil => exact ⟨acc, rfl⟩
  | cons e es ih =>
    have hk : e.1 ∉ acc.keys := by
      rw [map_append, map_fst_state, map_cons] at h
      exact fun hm => (nodup_append.mp h).2.2 _ hm _ mem_cons_self rfl
    obtain ⟨n, hn, hs⟩ := exists_push hk
    rw [← singleton_append, ← append_assoc, ← hs] at h
    obtain ⟨acc', ha'⟩ := ih h
    exact ⟨acc', bind_eq_ok.mpr ⟨n, hn, ha'⟩⟩

lemma updateBatch_eq (acc : ObjectAggAccumulator α) (rs : AggRows α) :
    acc.updateBatch rs = (pairs rs).foldlM push acc := by
  rw [updateBatch]
  induction rs generalizing acc with
  | nil => rfl
  | cons r rs ih =>
    rw [foldlM_cons]
    match r with
    | (none, _) => exact ih acc
    | (some key, none) => exact ih acc
    | (some key, some value) => exact bind_congr ih

lemma pairs_flatten (bs : List (AggRows α)) : pairs bs.flatten = (bs.map pairs).flatten :=
  filterMap_flatten

def Collects (x : AggResult (ObjectAggAccumulator α))
    (entries : List (String × α)) : Prop :=
  (∀ acc, x = .ok acc → acc.state = entries) ∧ ((entries.map Prod.fst).Nodup → ∃ acc, x = .ok acc)

lemma collects_foldlM_push (entries : List (String × α)) :
    Collects (entries.foldlM push new) entries :=
  ⟨fun _ h => state_of_foldlM_push h, fun h =>
    exists_foldlM_push (show ((new.state ++ entries).map Prod.fst).Nodup from h)⟩

end ObjectAggAccumulator

open ObjectAggAccumulator

section Aggregate

variable {fromStr : String → Option (JsonValue ν)}
  {batches bs : List (AggRows (AggValue ν))} {v : JsonValue ν} {key : String}

lemma collects_accumulate (bs : List (AggRows (AggValue ν))) :
    Collects ((objectAgg fromStr).accumulate bs) (pairs bs.flatten) := by
  have h : (objectAgg fromStr).accumulate bs = (pairs bs.flatten).foldlM push new := by
    rw [pairs_flatten, ← foldlM_flatten_eq, foldlM_map]
    exact congrArg (fun f => bs.foldlM f new) (funext₂ updateBatch_eq)
  rw [h]
  exact collects_foldlM_push _

lemma states_eq_ok {cs : AggCalls (AggValue ν)} {ss : List (List (List (String × AggValue ν)))}
    (h : (objectAgg fromStr).states cs = .ok ss) :
    ss = cs.map (map fun bs => pairs bs.flatten) := by
  rw [eq_comm, ← forall₂_eq_eq_eq, forall₂_map_left_iff]
  refine (mapM_eq_ok_iff.mp h).imp fun call rows hr => ?_
  rw [← forall₂_eq_eq_eq, forall₂_map_left_iff]
  refine (mapM_eq_ok_iff.mp hr).imp fun bs row hrw => ?_
  obtain ⟨acc, ha, rfl⟩ := map_eq_ok.mp hrw
  exact ((collects_accumulate bs).1 acc ha).symm

lemma pairs_calls (cs : AggCalls α) : (cs.map (map fun bs => pairs bs.flatten)).flatten.flatten =
    pairs cs.flatten.flatten.flatten := by
  rw [← map_flatten, flatten_flatten (L := cs.flatten), pairs_flatten, map_map]
  rfl

lemma collects_merge (cs : AggCalls (AggValue ν)) :
    Collects ((objectAgg fromStr).merge cs) (pairs cs.flatten.flatten.flatten) := by
  have hm : ∀ ss : List (List (List (String × AggValue ν))),
      ss.foldlM mergeBatch new = ss.flatten.flatten.foldlM push new := by
    intro ss
    rw [← foldlM_flatten_eq, ← foldlM_flatten_eq]
    rfl
  constructor
  · intro acc ha
    obtain ⟨ss, hs, ha⟩ := bind_eq_ok.mp ha
    have ha : ss.foldlM mergeBatch new = .ok acc := ha
    rw [hm, states_eq_ok hs, pairs_calls] at ha
    exact (collects_foldlM_push _).1 acc ha
  · intro hn
    have hs : (objectAgg fromStr).states cs = .ok (cs.map (map fun bs => pairs bs.flatten)) := by
      refine mapM_eq_ok_map fun call hc => mapM_eq_ok_map fun bs hb => ?_
      have hsub : pairs bs.flatten <+ pairs cs.flatten.flatten.flatten := by
        rw [← pairs_calls, ← map_flatten]
        exact sublist_flatten_of_mem (mem_map_of_mem (mem_flatten_of_mem hc hb))
      obtain ⟨acc, ha⟩ := (collects_accumulate bs).2 (hn.sublist (hsub.map _))
      rw [ha, ← (collects_accumulate bs).1 acc ha]
      rfl
    obtain ⟨acc, ha⟩ := (collects_foldlM_push _).2 hn
    rw [← pairs_calls, ← hm] at ha
    exact ⟨acc, bind_eq_ok.mpr ⟨_, hs, ha⟩⟩

lemma insertMember_eq_ok_iff {e : String × AggValue ν} :
    insertMember fromStr o e = .ok o' ↔ ∃ v, entryValue fromStr e.2 = .ok v ∧
      insertOption o (v.map fun v => (e.1, v)) = o' := by
  rw [insertMember, bind_eq_ok]
  simp only [pure_eq_ok]

lemma exists_foldlM_insertMember {es : List (String × AggValue ν)}
    (h : ∀ e ∈ es, ∃ v, entryValue fromStr e.2 = .ok v)
    (o : JsonObject ν) : ∃ o', es.foldlM (insertMember fromStr) o = .ok o' := by
  induction es generalizing o with
  | nil => exact ⟨o, rfl⟩
  | cons e es ih =>
    rw [forall_mem_cons] at h
    obtain ⟨v, hv⟩ := h.1
    obtain ⟨o', ho'⟩ := ih h.2 (insertOption o (v.map fun v => (e.1, v)))
    exact ⟨o', bind_eq_ok.mpr ⟨_, insertMember_eq_ok_iff.mpr ⟨v, hv, rfl⟩, ho'⟩⟩

lemma entryValue_of_foldlM {es : List (String × AggValue ν)}
    (h : es.foldlM (insertMember fromStr) o = .ok o') :
    ∀ e ∈ es, ∃ value, entryValue fromStr e.2 = .ok value := by
  induction es generalizing o with
  | nil => exact forall_mem_nil _
  | cons e es ih =>
    obtain ⟨next, hn, h⟩ := bind_eq_ok.mp h
    obtain ⟨value, hv, -⟩ := insertMember_eq_ok_iff.mp hn
    exact forall_mem_cons.mpr ⟨⟨value, hv⟩, ih h⟩

lemma lookup_insertOption {k k' : String} {vl : Option (JsonValue ν)} (hk : k ∉ o') :
    (insertOption o' (vl.map fun vl => (k, vl))).lookup k' = some v ↔
    o'.lookup k' = some v ∨ k = k' ∧ vl = some v := by
  cases vl with
  | none => simp [insertOption]
  | some vl =>
    rw [Option.map_some, insertOption, lookup_insert_eq_some_iff, Option.some_inj, eq_comm (a := k)]
    constructor
    · rintro (hn | ho)
      · exact .inr hn
      · exact .inl ho.2
    · rintro (ho | hn)
      · refine .inr ⟨?_, ho⟩
        rintro rfl
        exact hk (mem_of_lookup ho)
      · exact .inl hn

lemma lookup_of_foldlM {es : List (String × AggValue ν)}
    (h : es.foldlM (insertMember fromStr) o = .ok o')
    (hn : (es.map Prod.fst).Nodup) (hf : ∀ e ∈ es, e.1 ∉ o) :
    o'.lookup key = some v ↔ o.lookup key = some v ∨
      ∃ val, (key, val) ∈ es ∧ entryValue fromStr val = .ok (some v) := by
  induction es generalizing o with
  | nil =>
    cases h
    simp
  | cons e es ih =>
    rw [map_cons, nodup_cons] at hn
    rw [forall_mem_cons] at hf
    obtain ⟨next, hnex, h⟩ := bind_eq_ok.mp h
    obtain ⟨val, hv, rfl⟩ := insertMember_eq_ok_iff.mp hnex
    have hf' : ∀ entry' ∈ es, entry'.1 ∉ insertOption o (val.map fun val => (e.1, val)) := by
      intro entry' he' hm
      obtain ⟨w, hw⟩ := Option.isSome_iff_exists.mp (AList.lookup_isSome.mpr hm)
      rcases (lookup_insertOption hf.1).mp hw with ho | ⟨heq, -⟩
      · exact hf.2 entry' he' (mem_of_lookup ho)
      · exact hn.1 (heq ▸ mem_map_of_mem he')
    rw [ih h hn.2 hf', lookup_insertOption hf.1, or_assoc]
    refine or_congr_right ?_
    constructor
    · rintro (⟨rfl, rfl⟩ | ⟨val', hm, hv'⟩)
      · exact ⟨e.2, mem_cons_self, hv⟩
      · exact ⟨val', mem_cons_of_mem _ hm, hv'⟩
    · rintro ⟨val', hm, hv'⟩
      rcases mem_cons.mp hm with rfl | hm
      · rw [hv, Except.ok.injEq] at hv'
        exact .inl ⟨rfl, hv'⟩
      · exact .inr ⟨val', hm, hv'⟩

lemma mem_pairs {rows : AggRows α} {val : α} :
    (key, val) ∈ pairs rows ↔ (some key, some val) ∈ rows := by
  rw [pairs, mem_filterMap]
  constructor
  · rintro ⟨⟨key', val'⟩, hr, heq⟩
    obtain ⟨k, rfl, heq⟩ := Option.bind_eq_some_iff.mp heq
    obtain ⟨v, rfl, heq⟩ := Option.map_eq_some_iff.mp heq
    cases heq
    exact hr
  · exact fun hr => ⟨_, hr, rfl⟩

lemma ObjectAggAccumulator.Collects.lookup {x : AggResult (ObjectAggAccumulator (AggValue ν))}
    {es : List (String × AggValue ν)} (hx : Collects x es)
    (h : x >>= evaluate fromStr = .ok o') : (es.map Prod.fst).Nodup ∧
      (∀ e ∈ es, ∃ vl, entryValue fromStr e.2 = .ok vl) ∧
      ∀ k v, o'.lookup k = some v ↔ ∃ vl, (k, vl) ∈ es ∧ entryValue fromStr vl = .ok (some v) := by
  obtain ⟨acc, ha, h⟩ := bind_eq_ok.mp h
  obtain rfl := hx.1 acc ha
  have hn : (acc.state.map Prod.fst).Nodup := by
    rw [map_fst_state]
    exact acc.nodup_keys
  refine ⟨hn, entryValue_of_foldlM h, fun k v => ?_⟩
  have hl : o'.lookup k = some v ↔ _ :=
    lookup_of_foldlM h hn fun e _ => AList.notMem_empty _
  rw [hl, AList.lookup_empty]
  exact or_iff_right (Option.some_ne_none v).symm

lemma ObjectAggAccumulator.Collects.exists_evaluate
    {x : AggResult (ObjectAggAccumulator (AggValue ν))}
    {es : List (String × AggValue ν)} (hx : Collects x es) (hn : (es.map Prod.fst).Nodup)
    (h : ∀ e ∈ es, ∃ v, entryValue fromStr e.2 = .ok v) :
    ∃ object, x >>= evaluate fromStr = .ok object := by
  obtain ⟨acc, ha⟩ := hx.2 hn
  obtain rfl := hx.1 acc ha
  obtain ⟨object, ho⟩ := exists_foldlM_insertMember h ∅
  exact ⟨object, bind_eq_ok.mpr ⟨acc, ha, ho⟩⟩

end Aggregate

section Members

variable (fromStr : String → Option (JsonValue ν))

def AggValue.jsonForm : AggValue ν → JsonValue ν
  | .utf8 s => (fromStr s).getD (.string s)
  | .other json => json

def AggValue.IsJsonText (value : AggValue ν) : Prop :=
  ∃ s j, value = .utf8 s ∧ fromStr s = some j

lemma entryValue_of_isJsonText {v : AggValue ν} (h : v.IsJsonText fromStr) :
    entryValue fromStr v = .ok (some (v.jsonForm fromStr)) := by
  obtain ⟨s, json, rfl, hs⟩ := h
  simp only [entryValue, AggValue.jsonForm, hs, Option.getD_some]

lemma isJsonText_of_entryValue {v : AggValue ν} {j : JsonValue ν}
    (h : entryValue fromStr v = .ok (some j)) : v.IsJsonText fromStr := by
  cases v with
  | other j => cases h
  | utf8 s =>
    cases hs : fromStr s with
    | none => simp [entryValue, hs] at h
    | some j => exact ⟨s, j, rfl, hs⟩

structure KeyedGroup (ν : Type) where
  batches : List (AggRows (AggValue ν))
  nodup_keys : (batches.flatten.filterMap Prod.fst).Nodup

lemma map_fst_pairs_sublist (rs : AggRows α) :
    (pairs rs).map Prod.fst <+ rs.filterMap Prod.fst := by
  induction rs with
  | nil => exact Sublist.refl _
  | cons r rs ih =>
    match r with
    | (none, _) => exact ih
    | (some key, none) => exact ih.cons key
    | (some key, some value) => exact ih.cons_cons key

namespace KeyedGroup

variable (group : KeyedGroup ν)

/-- One member for every row with a key and a value. -/
def KeepsPairs : Prop :=
  ∃ o, (objectAgg fromStr).single group.batches = .ok o ∧ ∀ key v, o.lookup key = some v ↔
      ∃ value, (some key, some value) ∈ group.batches.flatten ∧ value.jsonForm fromStr = v

/-! ### Main results -/

/-- **`OBJECT_AGG` keeps every pair just of a group whose values are texts of type `Utf8` that are
JSON** -/
theorem keepsPairs_iff :
    group.KeepsPairs fromStr ↔
      ∀ key value, (some key, some value) ∈ group.batches.flatten → value.IsJsonText fromStr := by
  have hc := @collects_accumulate _ fromStr group.batches
  constructor
  · rintro ⟨o, ho, hmm⟩ key value hr
    obtain ⟨hn, -, hl⟩ := hc.lookup ho
    obtain ⟨value', hm, hv'⟩ := (hl key _).mp ((hmm key _).mpr ⟨value, hr, rfl⟩)
    cases inj_on_of_nodup_map hn hm (mem_pairs.mpr hr) rfl
    exact isJsonText_of_entryValue fromStr hv'
  · intro h
    have hv : ∀ entry ∈ pairs group.batches.flatten,
        entryValue fromStr entry.2 = .ok (some (entry.2.jsonForm fromStr)) := fun entry he =>
      entryValue_of_isJsonText fromStr (h entry.1 entry.2 (mem_pairs.mp he))
    obtain ⟨o, ho⟩ := hc.exists_evaluate
      (group.nodup_keys.sublist (map_fst_pairs_sublist _)) fun entry he => ⟨_, hv entry he⟩
    obtain ⟨-, -, hl⟩ := hc.lookup ho
    refine ⟨o, ho, fun key v => ?_⟩
    rw [hl]
    refine exists_congr fun value => ?_
    rw [← mem_pairs]
    refine and_congr_right fun hm => ?_
    rw [hv _ hm, Except.ok.injEq, Option.some_inj]

def oneInteger : KeyedGroup ℤ where
  batches := [[(some "a", some (.other (.number 1)))]]
  nodup_keys := nodup_singleton _

theorem not_keepsPairs_integer :
    (objectAgg fun _ => none).single oneInteger.batches = .ok ∅ ∧
      ¬oneInteger.KeepsPairs fun _ => none := by
  refine ⟨rfl, ?_⟩
  rintro ⟨object, ho, hm⟩
  cases ho
  have hmem := (hm "a" (.number 1)).mpr ⟨.other (.number 1), mem_singleton_self _, rfl⟩
  cases hmem

end KeyedGroup

/-- JSON texts, cut among partial accumulators. -/
structure PartitionedGroup where
  batches : List (AggRows (AggValue ν))
  calls : AggCalls (AggValue ν)
  isCut : IsCut calls batches.flatten
  isJsonText : ∀ row ∈ batches.flatten, ∀ value ∈ row.2, value.IsJsonText fromStr

/-- Both fail, or both return objects with the same members. -/
def SameOutcome : AggResult (JsonObject ν) → AggResult (JsonObject ν) → Prop
  | .ok object, .ok object' => SameObject object object'
  | .error _, .error _ => True
  | _, _ => False

namespace PartitionedGroup

variable {fromStr} (group g : PartitionedGroup fromStr)

lemma pairs_perm : pairs g.calls.flatten.flatten.flatten ~ pairs g.batches.flatten :=
  g.isCut.filterMap _

lemma entryValue_eq : ∀ e ∈ pairs g.batches.flatten,
    entryValue fromStr e.2 = .ok (some (e.2.jsonForm fromStr)) := fun e he =>
  entryValue_of_isJsonText fromStr (g.isJsonText _ (mem_pairs.mp he) e.2 rfl)

lemma isOk_iff {x : AggResult (ObjectAggAccumulator (AggValue ν))}
    {es : List (String × AggValue ν)} (hx : Collects x es) (hp : es ~ pairs g.batches.flatten) :
    (∃ o, x >>= evaluate fromStr = .ok o) ↔ ((pairs g.batches.flatten).map Prod.fst).Nodup := by
  rw [← (hp.map Prod.fst).nodup_iff]
  constructor
  · rintro ⟨o, ho⟩
    exact (hx.lookup ho).1
  · exact fun hn => hx.exists_evaluate hn fun e he =>
      ⟨_, g.entryValue_eq e (hp.mem_iff.mp he)⟩

lemma sameObject {x x' : AggResult (ObjectAggAccumulator (AggValue ν))}
    {es entries' : List (String × AggValue ν)}
    (hx : Collects x es) (hx' : Collects x' entries') (hp : es ~ entries')
    (h : x >>= evaluate fromStr = .ok o) (h' : x' >>= evaluate fromStr = .ok o') :
    SameObject o o' := by
  refine fun key => Option.ext fun v => ?_
  rw [(hx.lookup h).2.2, (hx'.lookup h').2.2]
  simp only [hp.mem_iff]

/-- **`OBJECT_AGG` does not depend on how the rows are cut** -/
theorem run_sameOutcome :
    SameOutcome ((objectAgg fromStr).run group.calls) ((objectAgg fromStr).single group.batches) ∧
      ((∃ e, (objectAgg fromStr).run group.calls = .error e) ↔
        ¬((pairs group.batches.flatten).map Prod.fst).Nodup) := by
  have hm := @collects_merge _ fromStr group.calls
  have hs := @collects_accumulate _ fromStr group.batches
  have hrun := group.isOk_iff hm group.pairs_perm
  have hon := group.isOk_iff hs (Perm.refl _)
  cases hc : (objectAgg fromStr).run group.calls with
  | ok object =>
    have hn := hrun.mp ⟨object, hc⟩
    obtain ⟨object', ho'⟩ := hon.mpr hn
    have hb : (objectAgg fromStr).single group.batches = .ok object' := ho'
    rw [hb]
    refine ⟨sameObject hm hs group.pairs_perm hc ho', iff_of_false ?_ ?_⟩
    · rintro ⟨e, he⟩
      cases he
    · exact not_not_intro hn
  | error e =>
    have hd : ¬((pairs group.batches.flatten).map Prod.fst).Nodup := by
      intro hn
      obtain ⟨object, ho⟩ := hrun.mpr hn
      cases hc.symm.trans ho
    cases hb : (objectAgg fromStr).single group.batches with
    | ok object => exact absurd (hon.mp ⟨object, hb⟩) hd
    | error e' => exact ⟨trivial, iff_of_true ⟨e, rfl⟩ hd⟩

def oneFromStr (s : String) : Option (JsonValue ℤ) := if s = "1" then some (.number 1) else none

/-- Rows with two keys and two nulls, the second half of them in the first partial accumulator. -/
def twoPartials : PartitionedGroup oneFromStr where
  batches := [[(some "a", some (.utf8 "1")), (none, some (.utf8 "1"))],
    [(some "b", some (.utf8 "1")), (some "a", none)]]
  calls := [[[[(some "b", some (.utf8 "1")), (some "a", none)]],
    [[(some "a", some (.utf8 "1")), (none, some (.utf8 "1"))]]]]
  isCut := @perm_append_comm _ [_, _] _
  isJsonText := by
    rintro row hr value hv
    refine ⟨"1", .number 1, ?_, rfl⟩
    simp only [flatten_cons, flatten_nil, cons_append, nil_append, mem_cons, not_mem_nil,
      or_false] at hr
    rcases hr with rfl | rfl | rfl | rfl <;> cases hv <;> rfl

theorem run_twoPartials : ∃ o o' : JsonObject ℤ,
    (objectAgg oneFromStr).run twoPartials.calls = .ok o ∧
      (objectAgg oneFromStr).single twoPartials.batches = .ok o' ∧ SameObject o o' ∧
      o.lookup "a" = some (.number 1) ∧ o.lookup "b" = some (.number 1) :=
  ⟨_, _, rfl, rfl, (run_sameOutcome twoPartials).1, rfl, rfl⟩

end PartitionedGroup

end Members

end Rustice
