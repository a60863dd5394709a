import Rustice.DateDiff

/-!
# `DATE_FROM_PARTS`, `TIME_FROM_PARTS` and `TIMESTAMP_FROM_PARTS`

Each computes one result for each row, in a loop over the length of the first argument that is
an array.
-/

namespace Rustice

open List
open TimeEnv (IsI64)

inductive PartsError where
  | execution (message : String)
  | internal (message : String)
  | cast
  | timezone (name : String)
  | panicked
  deriving DecidableEq

open Columnar

section Calls

variable {α : Type}

structure PartArg (α : Type) where
  column : Columnar (ArrowEntry α)
  cast : α → Except PartsError α
  cast_ne : ∀ v, cast v ≠ .error .panicked

structure PartsCall (α : Type) where
  args : List (PartArg α)
  value : List α → Except PartsError ℤ
  args_ne : args ≠ []
  value_ne : ∀ vs, value vs ≠ .error .panicked

def PartArg.castEntry (arg : PartArg α) (entry : ArrowEntry α) : Except PartsError (ArrowEntry α) :=
  if entry.isValid then (arg.cast entry.value).map (ArrowEntry.mk true) else .ok entry

def PartArg.toPrimitiveArray (arg : PartArg α) : Except PartsError (List (ArrowEntry α)) :=
  arg.column.toArray.mapM arg.castEntry

def PartArg.valueAt (i : ℕ) (arg : PartArg α) : Except PartsError α :=
  match arg.column.row? i with
  | some entry => arg.cast entry.value
  | none => .error .panicked

def entryAt (i : ℕ) (entries : List (ArrowEntry α)) : Except PartsError α :=
  match entries[i]? with
  | some entry => .ok entry.value
  | none => .error .panicked

namespace PartsCall

variable (call : PartsCall α)

def arraySize : ℕ := (call.args.findSome? fun arg => arg.column.len?).getD 1

def rowAt (arrays : List (List (ArrowEntry α))) (i : ℕ) : Except PartsError ℤ := do
  let values ← arrays.mapM (entryAt i)
  call.value values

def collect (arraySize : ℕ) (rows : List ℤ) : Columnar (Option ℤ) :=
  if arraySize = 1 then .scalar rows.head? else .array (rows.map some)

def invoke : Except PartsError (Columnar (Option ℤ)) := do
  let arrays ← call.args.mapM PartArg.toPrimitiveArray
  let rows ← (List.range call.arraySize).mapM (call.rowAt arrays)
  return collect call.arraySize rows

def rowValid (i : ℕ) : Bool := call.args.all fun arg => (arg.column.row? i).all (·.isValid)

def rowResult (i : ℕ) : Except PartsError ℤ := do
  let values ← call.args.mapM (PartArg.valueAt i)
  call.value values

def specRow (i : ℕ) : Except PartsError (Option ℤ) :=
  if call.rowValid i then (call.rowResult i).map some else .ok none

def spec (n : ℕ) : Except PartsError (List (Option ℤ)) := (List.range n).mapM call.specRow

def HasRows (n : ℕ) : Prop := ∀ arg ∈ call.args, arg.column.HasRows n

def RowWise (n : ℕ) : Prop :=
  match call.spec n with
  | .ok rows => ∃ column, call.invoke = .ok column ∧ column.intoArray n = rows
  | .error _ => ∃ e, e ≠ .panicked ∧ call.invoke = .error e

def Uniform (n : ℕ) : Prop :=
  n ≤ 1 ∨ (∀ arg ∈ call.args, arg.column.len? = none) ∨ ∀ arg ∈ call.args, arg.column.len? ≠ none

def FirstRowSucceeds : Prop :=
  ∃ arrays result, call.args.mapM PartArg.toPrimitiveArray = .ok arrays ∧
    call.rowAt arrays 0 = .ok result

def EmptySucceeds : Prop :=
  (∃ arrays, call.args.mapM PartArg.toPrimitiveArray = .ok arrays) ∧
    ((∀ arg ∈ call.args, arg.column.len? = none) → call.FirstRowSucceeds)

def RowWiseCondition (n : ℕ) : Prop :=
  match call.spec n with
  | .ok _ =>
    if n = 0 then call.EmptySucceeds else call.Uniform n ∧ ∀ i < n, call.rowValid i = true
  | .error _ => call.Uniform n ∨ ¬call.FirstRowSucceeds

variable {n : ℕ}

lemma arraySize_cases (h : call.HasRows n) :
    (call.arraySize = 1 ∧ ∀ arg ∈ call.args, arg.column.len? = none) ∨
      (call.arraySize = n ∧ ∃ arg ∈ call.args, arg.column.len? ≠ none) := by
  rw [arraySize]
  cases hf : call.args.findSome? fun arg => arg.column.len? with
  | none => exact .inl ⟨rfl, findSome?_eq_none_iff.mp hf⟩
  | some m =>
    obtain ⟨arg, hm, hlen⟩ := exists_of_findSome?_eq_some hf
    refine .inr ⟨?_, arg, hm, hlen ▸ Option.some_ne_none m⟩
    exact eq_of_len? (h arg hm) hlen

def Reads : Prop := ∀ arg ∈ call.args, call.arraySize ≤ arg.column.toArray.length

lemma uniform_iff_reads (h : call.HasRows n) : call.Uniform n ↔ call.Reads := by
  obtain ⟨hsi, hs⟩ | ⟨hsi, arg, ha, harr⟩ := call.arraySize_cases h
  · refine iff_of_true (.inr (.inl hs)) fun arg ha => ?_
    rw [hsi, length_toArray (h arg ha), if_pos (hs arg ha)]
  · rw [Reads, hsi]
    constructor
    · rintro (ho | hs | har) arg' ha'
      · rw [length_toArray (h arg' ha')]
        split <;> omega
      · exact absurd (hs arg ha) harr
      · rw [length_toArray (h arg' ha'), if_neg (har arg' ha')]
    · intro hr
      refine or_iff_not_imp_left.mpr fun hm => .inr fun arg' ha' hsc => hm ?_
      have hlen := hr arg' ha'
      rwa [length_toArray (h arg' ha'), if_pos hsc] at hlen

section Arrays

variable {call} {ar : List (PartArg α)} {arrays arrs ars : List (List (ArrowEntry α))} {i : ℕ}
  {arg : PartArg α} {es : List (ArrowEntry α)}

lemma length_of_toPrimitiveArray
    (h : arg.toPrimitiveArray = .ok es) : es.length = arg.column.toArray.length :=
  length_of_mapM_eq_ok h

lemma entryAt_eq_ok_iff {v : α} : entryAt i es = .ok v ↔ ∃ e, es[i]? = some e ∧ e.value = v := by
  rw [entryAt]
  split
  case h_1 e he =>
    constructor
    · intro h
      exact ⟨e, he, Except.ok.inj h⟩
    · rintro ⟨e', he', rfl⟩
      cases he.symm.trans he'
      rfl
  case h_2 hn =>
    constructor
    · intro h
      cases h
    · rintro ⟨e', he', -⟩
      cases hn.symm.trans he'

lemma entryAt_eq_valueAt (h : arg.toPrimitiveArray = .ok es) (hi : i < arg.column.toArray.length)
    (hval : (arg.column.row? i).all (·.isValid) = true) : entryAt i es = arg.valueAt i := by
  have hl := Columnar.getElem?_toArray hi
  rw [getElem?_eq_getElem hi] at hl
  rw [← hl] at hval
  have hev : arg.column.toArray[i].isValid = true := hval
  obtain ⟨entry, he, hc⟩ := getElem?_of_mapM_eq_ok h (getElem?_eq_getElem hi)
  rw [PartArg.castEntry, if_pos hev] at hc
  simp only [PartArg.valueAt, ← hl, entryAt, he]
  cases hv : arg.cast arg.column.toArray[i].value with
  | error e =>
    rw [hv] at hc
    cases hc
  | ok v =>
    rw [hv] at hc
    cases hc
    rfl

lemma exists_mapM_entryAt (h : ar.mapM PartArg.toPrimitiveArray = .ok ars)
    (hi : ∀ arg ∈ ar, i < arg.column.toArray.length) :
    ∃ values, ars.mapM (entryAt i) = .ok values := by
  refine exists_mapM_eq_ok fun es he => ?_
  obtain ⟨arg, har, ha⟩ := exists_of_mem_mapM h he
  have hlen := length_of_toPrimitiveArray ha
  have hi' : i < es.length := hlen ▸ hi arg har
  exact ⟨_, entryAt_eq_ok_iff.mpr ⟨_, getElem?_eq_getElem hi', rfl⟩⟩

lemma lt_of_mapM_entryAt (h : ar.mapM PartArg.toPrimitiveArray = .ok ars) {vs : List α}
    (hval : ars.mapM (entryAt i) = .ok vs) (har : arg ∈ ar) : i < arg.column.toArray.length := by
  obtain ⟨j, hj⟩ := mem_iff_getElem?.mp har
  obtain ⟨es, he, ha⟩ := getElem?_of_mapM_eq_ok h hj
  obtain ⟨v, hv⟩ := exists_of_mapM_eq_ok hval (mem_iff_getElem?.mpr ⟨j, he⟩)
  obtain ⟨entry, hen, -⟩ := entryAt_eq_ok_iff.mp hv
  rw [← length_of_toPrimitiveArray ha]
  exact (List.getElem?_eq_some_iff.mp hen).1

lemma mapM_entryAt_eq (h : ar.mapM PartArg.toPrimitiveArray = .ok ars)
    (hi : ∀ arg ∈ ar, i < arg.column.toArray.length)
    (hv : ∀ arg ∈ ar, (arg.column.row? i).all (·.isValid) = true) :
    ars.mapM (entryAt i) = ar.mapM (PartArg.valueAt i) := by
  have hal := mapM_eq_ok_iff.mp h
  clear h
  induction hal with
  | nil => rfl
  | cons ha _ ih =>
    rw [forall_mem_cons] at hi hv
    rw [mapM_cons, mapM_cons, entryAt_eq_valueAt ha hi.1 hv.1, ih hi.2 hv.2]

end Arrays

variable {i : ℕ} {arrays arrs ars : List (List (ArrowEntry α))} {column c : Columnar (Option ℤ)}
  {rs : List (Option ℤ)} {e : PartsError}

lemma rowValid_iff :
    call.rowValid i = true ↔ ∀ arg ∈ call.args, (arg.column.row? i).all (·.isValid) = true :=
  all_eq_true

lemma rowAt_eq_rowResult (h : call.args.mapM PartArg.toPrimitiveArray = .ok ars)
    (hi : ∀ arg ∈ call.args, i < arg.column.toArray.length) (hv : call.rowValid i = true) :
    call.rowAt ars i = call.rowResult i := by
  rw [rowAt, rowResult, mapM_entryAt_eq h hi (call.rowValid_iff.mp hv)]

lemma rowAt_ne_panicked (h : call.args.mapM PartArg.toPrimitiveArray = .ok ars)
    (hi : ∀ arg ∈ call.args, i < arg.column.toArray.length) :
    call.rowAt ars i ≠ .error .panicked := by
  obtain ⟨vs, hv⟩ := exists_mapM_entryAt h hi
  rw [rowAt, hv]
  exact call.value_ne vs

lemma castArgs_ne_panicked : call.args.mapM PartArg.toPrimitiveArray ≠ .error .panicked := by
  intro h
  obtain ⟨arg, -, ha⟩ := exists_of_mapM_eq_error h
  obtain ⟨en, -, he⟩ := exists_of_mapM_eq_error ha
  rw [PartArg.castEntry] at he
  split at he
  case isFalse => cases he
  case isTrue =>
    cases hv : arg.cast en.value with
    | ok v =>
      rw [hv] at he
      cases he
    | error e =>
      rw [hv] at he
      cases he
      exact arg.cast_ne _ hv

lemma invoke_eq_ok_iff : call.invoke = .ok column ↔
    ∃ ars rs, call.args.mapM PartArg.toPrimitiveArray = .ok ars ∧
      (List.range call.arraySize).mapM (call.rowAt ars) = .ok rs ∧
      collect call.arraySize rs = column := by
  simp only [invoke, bind_eq_ok, pure_eq_ok]
  constructor
  · rintro ⟨ars, ha, rs, hr, hc⟩
    exact ⟨ars, rs, ha, hr, hc⟩
  · rintro ⟨ars, rs, ha, hr, hc⟩
    exact ⟨ars, ha, rs, hr, hc⟩

lemma reads_of_invoke (h : call.invoke = .ok c) : call.Reads := by
  obtain ⟨ars, rows, ha, hrow, -⟩ := call.invoke_eq_ok_iff.mp h
  intro arg har
  by_contra hs
  have hm : arg.column.toArray.length ∈ List.range call.arraySize :=
    mem_range.mpr (not_le.mp hs)
  obtain ⟨result, hr⟩ := exists_of_mapM_eq_ok hrow hm
  rw [rowAt, bind_eq_ok] at hr
  obtain ⟨values, hv, -⟩ := hr
  exact lt_irrefl _ (lt_of_mapM_entryAt ha hv har)

lemma invoke_eq_error_iff : call.invoke = .error e ↔
    call.args.mapM PartArg.toPrimitiveArray = .error e ∨
      ∃ ars, call.args.mapM PartArg.toPrimitiveArray = .ok ars ∧
        (List.range call.arraySize).mapM (call.rowAt ars) = .error e := by
  rw [invoke, bind_eq_error]
  refine or_congr_right (exists_congr fun ars => and_congr_right fun _ => ?_)
  rw [bind_eq_error]
  constructor
  · rintro (hr | ⟨rows, -, hp⟩)
    · exact hr
    · cases hp
  · exact .inl

lemma invoke_ne_panicked (h : call.Reads) : call.invoke ≠ .error .panicked := by
  intro hin
  obtain hc | ⟨ars, ha, hr⟩ := call.invoke_eq_error_iff.mp hin
  · exact call.castArgs_ne_panicked hc
  · obtain ⟨i, hi, hrw⟩ := exists_of_mapM_eq_error hr
    refine call.rowAt_ne_panicked ha (fun arg har => ?_) hrw
    exact lt_of_lt_of_le (mem_range.mp hi) (h arg har)

lemma rowAt_eq_panicked (h : call.args.mapM PartArg.toPrimitiveArray = .ok ars) {arg : PartArg α}
    (ha : arg ∈ call.args) (hs : arg.column.toArray.length ≤ i) :
    call.rowAt ars i = .error .panicked := by
  rw [rowAt]
  cases hv : ars.mapM (entryAt i) with
  | ok values => exact absurd (lt_of_mapM_entryAt h hv ha) (not_lt.mpr hs)
  | error e =>
    obtain ⟨es, -, he⟩ := exists_of_mapM_eq_error hv
    rw [entryAt] at he
    split at he
    case h_1 => cases he
    case h_2 =>
      cases he
      rfl

lemma invoke_eq_panicked (h : call.HasRows n) (hrea : ¬call.Reads)
    (hf : call.FirstRowSucceeds) : call.invoke = .error .panicked := by
  obtain ⟨ars, result, ha, hr⟩ := hf
  obtain ⟨arg, har, hsh⟩ : ∃ arg ∈ call.args, arg.column.toArray.length < call.arraySize := by
    simpa [Reads] using hrea
  have hlen := length_toArray (h arg har)
  obtain ⟨ho, hsiz⟩ : arg.column.toArray.length = 1 ∧ 2 ≤ call.arraySize := by
    obtain ⟨hsiz, hs⟩ | ⟨hsiz, -⟩ := call.arraySize_cases h
    · rw [if_pos (hs arg har)] at hlen
      omega
    · split at hlen <;> omega
  have hsec := call.rowAt_eq_panicked ha har (i := 1) ho.le
  obtain ⟨m, hm⟩ : ∃ m, call.arraySize = m + 2 := ⟨call.arraySize - 2, by omega⟩
  refine call.invoke_eq_error_iff.mpr (.inr ⟨ars, ha, ?_⟩)
  rw [hm]
  simp only [range_succ_eq_map, map_cons, mapM_cons, hr]
  simp only [bind, Except.bind, hsec]

def step (i : ℕ) : ℕ := if call.arraySize = 1 then 0 else i

lemma step_lt (h : call.HasRows n) (hi : i < n) : call.step i < call.arraySize := by
  rw [step]
  split
  case isTrue ho => omega
  case isFalse hm => obtain ⟨hs, -⟩ | ⟨hs, -⟩ := call.arraySize_cases h <;> omega

lemma row?_step (h : call.HasRows n) (hi : i < n) {arg : PartArg α}
    (ha : arg ∈ call.args) : arg.column.row? (call.step i) = arg.column.row? i := by
  rw [step]
  split
  case isFalse hm => rfl
  case isTrue ho =>
    obtain ⟨-, hsc⟩ | ⟨hsiz, -⟩ := call.arraySize_cases h
    · have hs := hsc arg ha
      cases hc : arg.column with
      | scalar value => rfl
      | array values =>
        rw [hc] at hs
        cases hs
    · obtain rfl : i = 0 := by omega
      rfl

lemma rowResult_step (h : call.HasRows n) (hi : i < n) :
    call.rowResult (call.step i) = call.rowResult i := by
  have hv : call.args.mapM (PartArg.valueAt (call.step i)) =
      call.args.mapM (PartArg.valueAt i) := mapM_congr fun arg ha => by
    rw [PartArg.valueAt, PartArg.valueAt, call.row?_step h hi ha]
  rw [rowResult, rowResult, hv]

lemma rowValid_step (h : call.HasRows n) (hi : i < n) :
    call.rowValid (call.step i) = call.rowValid i := by
  rw [Bool.eq_iff_iff, rowValid_iff, rowValid_iff]
  refine forall₂_congr fun arg ha => ?_
  rw [call.row?_step h hi ha]

lemma rows_of_invoke (h : call.HasRows n) (hin : call.invoke = .ok c) :
    ∃ ars, call.args.mapM PartArg.toPrimitiveArray = .ok ars ∧ (c.intoArray n).length = n ∧
      ∀ i < n, ∃ r, call.rowAt ars (call.step i) = .ok r ∧ (c.intoArray n)[i]? = some (some r) := by
  obtain ⟨ars, rs, ha, hrw, rfl⟩ := call.invoke_eq_ok_iff.mp hin
  have hlen : rs.length = call.arraySize := (length_of_mapM_eq_ok hrw).trans length_range
  refine ⟨ars, ha, ?_, fun i hi => ?_⟩
  · refine length_intoArray ?_
    rw [collect]
    split
    case isTrue => trivial
    case isFalse hm =>
      obtain ⟨hs, -⟩ | ⟨hs, -⟩ := call.arraySize_cases h
      · exact absurd hs hm
      · rw [Columnar.HasRows, length_map, hlen, hs]
  · have hran : (List.range call.arraySize)[call.step i]? = some (call.step i) :=
      getElem?_range (call.step_lt h hi)
    obtain ⟨r, hr, hrow⟩ := getElem?_of_mapM_eq_ok hrw hran
    refine ⟨r, hrow, ?_⟩
    rw [getElem?_intoArray _ hi, collect]
    rw [step] at hr
    split
    case isTrue ho =>
      rw [if_pos ho] at hr
      rw [row?, head?_eq_getElem?, hr]
    case isFalse hm =>
      rw [if_neg hm] at hr
      rw [row?, getElem?_map, hr, Option.map_some]

lemma rows_of_spec (hs : call.spec n = .ok rs) :
    rs.length = n ∧ ∀ i < n, ∃ row, rs[i]? = some row ∧ call.specRow i = .ok row :=
  ⟨(length_of_mapM_eq_ok hs).trans length_range, fun _ hi =>
    getElem?_of_mapM_eq_ok hs (getElem?_range hi)⟩

lemma specRow_of_valid {r : Option ℤ} (hv : call.rowValid i = true) (hr : call.specRow i = .ok r) :
    ∃ result, call.rowResult i = .ok result ∧ r = some result := by
  rw [specRow, if_pos hv] at hr
  cases hres : call.rowResult i with
  | error e =>
    rw [hres] at hr
    cases hr
  | ok result =>
    rw [hres] at hr
    cases hr
    exact ⟨result, rfl, rfl⟩

lemma exists_castArgs (h : call.HasRows n) (hpos : 0 < n) (hvl : ∀ i < n, call.rowValid i = true)
    (hr : ∀ i < n, ∃ r, call.rowResult i = .ok r) :
    ∃ arrays, call.args.mapM PartArg.toPrimitiveArray = .ok arrays := by
  refine exists_mapM_eq_ok fun arg ha => exists_mapM_eq_ok fun e he => ?_
  obtain ⟨i, hi⟩ := mem_iff_getElem?.mp he
  have hlt := (List.getElem?_eq_some_iff.mp hi).1
  have hrw := (Columnar.getElem?_toArray hlt).symm.trans hi
  have hn : i < n := by
    rw [length_toArray (h arg ha)] at hlt
    split at hlt <;> omega
  have hev := call.rowValid_iff.mp (hvl i hn) arg ha
  rw [hrw] at hev
  obtain ⟨r, hr⟩ := hr i hn
  rw [rowResult, bind_eq_ok] at hr
  obtain ⟨values, hval, -⟩ := hr
  obtain ⟨v, hv⟩ := exists_of_mapM_eq_ok hval ha
  simp only [PartArg.valueAt, hrw] at hv
  have het : e.isValid = true := hev
  exact ⟨⟨true, v⟩, by rw [PartArg.castEntry, if_pos het, hv]; rfl⟩

lemma rowAt_step (h : call.HasRows n)
    (hr : call.Reads) (ha : call.args.mapM PartArg.toPrimitiveArray = .ok ars)
    (hi : i < n) (hv : call.rowValid i = true) :
    call.rowAt ars (call.step i) = call.rowResult i := by
  rw [← call.rowResult_step h hi]
  refine call.rowAt_eq_rowResult ha (fun arg har => ?_) ?_
  · exact lt_of_lt_of_le (call.step_lt h hi) (hr arg har)
  · rw [call.rowValid_step h hi, hv]

lemma exists_invoke (h : call.HasRows n) (hpos : 0 < n) (hrea : call.Reads)
    (hv : ∀ i < n, call.rowValid i = true) (hr : ∀ i < n, ∃ r, call.rowResult i = .ok r) :
    ∃ column, call.invoke = .ok column := by
  obtain ⟨ars, ha⟩ := call.exists_castArgs h hpos hv hr
  obtain ⟨rows, hrow⟩ :
      ∃ rows, (List.range call.arraySize).mapM (call.rowAt ars) = .ok rows := by
    refine exists_mapM_eq_ok fun i hi => ?_
    have hs := mem_range.mp hi
    have hn : i < n := by obtain ⟨ho, -⟩ | ⟨hsam, -⟩ := call.arraySize_cases h <;> omega
    rw [call.rowAt_eq_rowResult ha (fun arg har => lt_of_lt_of_le hs (hrea arg har)) (hv i hn)]
    exact hr i hn
  exact ⟨_, call.invoke_eq_ok_iff.mpr ⟨ars, rows, ha, hrow, rfl⟩⟩

lemma rowWise_ok_iff (h : call.HasRows n) (hpos : 0 < n)
    (hs : call.spec n = .ok rs) : (∃ c, call.invoke = .ok c ∧ c.intoArray n = rs) ↔
      call.Uniform n ∧ ∀ i < n, call.rowValid i = true := by
  obtain ⟨hlen, hrs⟩ := call.rows_of_spec hs
  rw [call.uniform_iff_reads h]
  constructor
  · rintro ⟨c, hin, rfl⟩
    refine ⟨call.reads_of_invoke hin, fun i hi => ?_⟩
    obtain ⟨ars, -, -, hre⟩ := call.rows_of_invoke h hin
    obtain ⟨result, -, hr⟩ := hre i hi
    obtain ⟨row, hrw, hsr⟩ := hrs i hi
    cases hr.symm.trans hrw
    by_contra hn
    rw [specRow, if_neg hn] at hsr
    cases hsr
  · rintro ⟨hrea, hv⟩
    have hr : ∀ i < n, ∃ result, call.rowResult i = .ok result := fun i hi => by
      obtain ⟨row, -, hrw⟩ := hrs i hi
      exact (call.specRow_of_valid (hv i hi) hrw).imp fun _ hr => hr.1
    obtain ⟨c, hin⟩ := call.exists_invoke h hpos hrea hv hr
    obtain ⟨ars, ha, hl', hre⟩ := call.rows_of_invoke h hin
    refine ⟨c, hin, ext_getElem? fun i => ?_⟩
    by_cases hi : i < n
    · obtain ⟨result, hra, hc⟩ := hre i hi
      obtain ⟨row, hrw, hsr⟩ := hrs i hi
      obtain ⟨result', hr', rfl⟩ := call.specRow_of_valid (hv i hi) hsr
      rw [call.rowAt_step h hrea ha hi (hv i hi), hr'] at hra
      cases hra
      exact hc.trans hrw.symm
    · rw [getElem?_eq_none (by omega), getElem?_eq_none (by omega)]

lemma exists_error_of_firstRow (h : call.HasRows n) (hpos : 0 < n)
    (hf : ¬call.FirstRowSucceeds) : ∃ e, e ≠ .panicked ∧ call.invoke = .error e := by
  cases ha : call.args.mapM PartArg.toPrimitiveArray with
  | error e =>
    refine ⟨e, fun he => ?_, call.invoke_eq_error_iff.mpr (.inl ha)⟩
    exact call.castArgs_ne_panicked (he ▸ ha)
  | ok ars =>
    have hz : ∀ arg ∈ call.args, 0 < arg.column.toArray.length := fun arg har => by
      rw [length_toArray (h arg har)]
      split <;> omega
    obtain ⟨m, hm⟩ : ∃ m, call.arraySize = m + 1 :=
      Nat.exists_eq_succ_of_ne_zero (Nat.ne_zero_of_lt (call.step_lt h hpos))
    cases hr : call.rowAt ars 0 with
    | ok r => exact absurd ⟨ars, r, ha, hr⟩ hf
    | error e =>
      refine ⟨e, fun he => call.rowAt_ne_panicked ha hz (he ▸ hr), ?_⟩
      refine call.invoke_eq_error_iff.mpr (.inr ⟨ars, ha, ?_⟩)
      rw [hm, range_succ_eq_map, mapM_cons, hr]
      rfl

lemma rowWise_error_iff (h : call.HasRows n) (hs : call.spec n = .error e) :
    (∃ e, e ≠ .panicked ∧ call.invoke = .error e) ↔ call.Uniform n ∨ ¬call.FirstRowSucceeds := by
  obtain ⟨i, hi, hr⟩ := exists_of_mapM_eq_error hs
  have hn := mem_range.mp hi
  rw [call.uniform_iff_reads h]
  constructor
  · rintro ⟨e', hne, hin⟩
    by_contra hc
    rw [not_or, not_not] at hc
    have hp := call.invoke_eq_panicked h hc.1 hc.2
    rw [hin] at hp
    exact hne (Except.error.inj hp)
  · rintro (hrea | hf)
    · cases hin : call.invoke with
      | error e' =>
        refine ⟨e', fun he => ?_, rfl⟩
        exact call.invoke_ne_panicked hrea (he ▸ hin)
      | ok c =>
        obtain ⟨ars, ha, -, hrs⟩ := call.rows_of_invoke h hin
        obtain ⟨result, hres, -⟩ := hrs i hn
        rw [specRow] at hr
        split at hr
        case isFalse => cases hr
        case isTrue hv =>
          rw [call.rowAt_step h hrea ha hn hv] at hres
          rw [hres] at hr
          cases hr
    · exact call.exists_error_of_firstRow h (Nat.zero_lt_of_lt hn) hf

lemma exists_invoke_zero_iff (h : call.HasRows 0) :
    (∃ c, call.invoke = .ok c) ↔ call.EmptySucceeds := by
  have hin : (∃ c, call.invoke = .ok c) ↔
      ∃ ars, call.args.mapM PartArg.toPrimitiveArray = .ok ars ∧
        ∃ rows, (List.range call.arraySize).mapM (call.rowAt ars) = .ok rows := by
    constructor
    · rintro ⟨c, hc⟩
      obtain ⟨ars, rows, ha, hr, -⟩ := call.invoke_eq_ok_iff.mp hc
      exact ⟨ars, ha, rows, hr⟩
    · rintro ⟨ars, ha, rows, hr⟩
      exact ⟨_, call.invoke_eq_ok_iff.mpr ⟨ars, rows, ha, hr, rfl⟩⟩
  rw [hin, EmptySucceeds]
  obtain ⟨hsi, hs⟩ | ⟨hsi, arg, harg, har⟩ := call.arraySize_cases h
  · rw [hsi]
    constructor
    · rintro ⟨ars, ha, rows, hr⟩
      obtain ⟨r, hre⟩ := exists_of_mapM_eq_ok hr (mem_range.mpr one_pos)
      exact ⟨⟨ars, ha⟩, fun _ => ⟨ars, r, ha, hre⟩⟩
    · rintro ⟨-, hf⟩
      obtain ⟨ars, r, ha, hre⟩ := hf hs
      refine ⟨ars, ha, exists_mapM_eq_ok fun i hi => ⟨r, ?_⟩⟩
      rw [Nat.lt_one_iff.mp (mem_range.mp hi), hre]
  · rw [hsi]
    constructor
    · rintro ⟨ars, ha, -⟩
      exact ⟨⟨ars, ha⟩, fun hs => absurd (hs arg harg) har⟩
    · rintro ⟨⟨ars, ha⟩, -⟩
      exact ⟨ars, ha, [], rfl⟩

lemma rowWise_iff (h : call.HasRows n) : call.RowWise n ↔ call.RowWiseCondition n := by
  rw [RowWise, RowWiseCondition]
  cases hs : call.spec n with
  | error e => exact call.rowWise_error_iff h hs
  | ok rows =>
    obtain rfl | hpos := Nat.eq_zero_or_pos n
    · rw [if_pos rfl, ← call.exists_invoke_zero_iff h]
      refine exists_congr fun c => and_iff_left_of_imp fun hi => ?_
      obtain ⟨-, -, hlen, -⟩ := call.rows_of_invoke h hi
      rw [eq_nil_of_length_eq_zero hlen, eq_nil_of_length_eq_zero (call.rows_of_spec hs).1]
    · rw [if_neg hpos.ne']
      exact call.rowWise_ok_iff h hpos hs

end PartsCall

end Calls

inductive PartValue where
  | int (n : ℤ)
  | text (s : String)

structure PartsEnv where
  parseI32 : String → Option ℤ
  castDate32 : PartValue → Option ℤ
  castTime64 : PartValue → Option ℤ
  isTimezone : String → Bool

def chronoDate? (date : CivilDate) : Option CivilDate :=
  if -262143 ≤ date.year ∧ date.year ≤ 262142 then some date else none

def datePartMessage (start : String) (year month days : ℤ) : String :=
  start ++ " date part '" ++ toString year ++ "' '" ++ toString month ++ "' '" ++ toString days ++
    "'"

def monthDistance (month : ℤ) : ℤ :=
  if month = 0 then 1 else if month < 0 then wrapI32 (1 - month) else month - 1

def shiftedDate? (jan1 : CivilDate) (month days : ℤ) : Option CivilDate := do
  let date ← chronoDate?
    (jan1.addMonths (if month ≤ 0 then -monthDistance month else monthDistance month))
  chronoDate? (CivilDate.ofDayNumber (date.dayNumber + wrapI32 (days - 1)))

def makeDate (year month days : ℤ) : Except PartsError ℤ :=
  if monthDistance month < 0 then
    .error (.execution ("month value '" ++ toString month ++ "' is out of range"))
  else
    match (CivilDate.ofYmd? year 1 1).bind chronoDate? with
    | none => .error (.execution (datePartMessage "Invalid" year month days))
    | some jan1 =>
      match shiftedDate? jan1 month days with
      | none => .error (.execution (datePartMessage "invalid" year month days))
      | some date => .ok date.dayNumber

def makeTime (hour minute seconds nanosecond : ℤ) : ℤ :=
  wrapI64 (wrapI64 (wrapI64 (wrapI64 (hour * 3600000000000) + wrapI64 (minute * 60000000000)) +
    wrapI64 (seconds * 1000000000)) + nanosecond)

def makeTimestampFromNanoseconds (env : PartsEnv) (nanoseconds : ℤ) (tz : Option String) :
    Except PartsError ℤ :=
  match tz with
  | none => .ok nanoseconds
  | some tz => if env.isTimezone tz then .ok nanoseconds else .error (.timezone tz)

def makeTimestamp (env : PartsEnv) (year month day hour minute seconds nanosecond : ℤ)
    (tz : Option String) : Except PartsError ℤ := do
  let days ← makeDate year month day
  makeTimestampFromNanoseconds env
    (wrapI64 (wrapI64 (days * nanosInDay) + makeTime hour minute seconds nanosecond)) tz

def dateValue : List PartValue → Except PartsError ℤ
  | [.int year, .int month, .int day] => makeDate year month day
  | _ => .error .cast

def timeValue : List PartValue → Except PartsError ℤ
  | [.int hour, .int minute, .int seconds] => .ok (makeTime hour minute seconds 0)
  | [.int hour, .int minute, .int seconds, .int nanos] => .ok (makeTime hour minute seconds nanos)
  | _ => .error .cast

def timestampValue (env : PartsEnv) : List PartValue → Except PartsError ℤ
  | [.int date, .int time] =>
    makeTimestampFromNanoseconds env (wrapI64 (wrapI64 (date * nanosInDay) + time)) none
  | [.int year, .int month, .int day, .int hour, .int minute, .int seconds] =>
    makeTimestamp env year month day hour minute seconds 0 none
  | [.int year, .int month, .int day, .int hour, .int minute, .int seconds, .int nanos] =>
    makeTimestamp env year month day hour minute seconds nanos none
  | [.int year, .int month, .int day, .int hour, .int minute, .int seconds, .int nanos,
      .text tz] => makeTimestamp env year month day hour minute seconds nanos (some tz)
  | _ => .error .cast

lemma makeDate_ne_panicked (y m ds : ℤ) : makeDate y m ds ≠ .error .panicked := by
  rw [makeDate]
  split
  · intro h
    cases h
  · split
    · intro h
      cases h
    · split <;> (intro h; cases h)

lemma makeTimestamp_ne_panicked (env : PartsEnv) (y m d hour mn ss nn : ℤ) (tz : Option String) :
    makeTimestamp env y m d hour mn ss nn tz ≠ .error .panicked := by
  intro h
  rw [makeTimestamp, bind_eq_error] at h
  obtain hd | ⟨days, -, ht⟩ := h
  · exact makeDate_ne_panicked y m d hd
  · rw [makeTimestampFromNanoseconds.eq_def] at ht
    split at ht
    · cases ht
    · split at ht <;> cases ht

lemma dateValue_ne_panicked (vs : List PartValue) : dateValue vs ≠ .error .panicked := by
  rw [dateValue.eq_def]
  split
  · exact makeDate_ne_panicked _ _ _
  · intro h
    cases h

lemma timeValue_ne_panicked (vs : List PartValue) : timeValue vs ≠ .error .panicked := by
  rw [timeValue.eq_def]
  split <;> (intro h; cases h)

lemma timestampValue_ne_panicked (env : PartsEnv) (vs : List PartValue) :
    timestampValue env vs ≠ .error .panicked := by
  rw [timestampValue.eq_def]
  split
  · intro h
    cases h
  · exact makeTimestamp_ne_panicked env _ _ _ _ _ _ _ _
  · exact makeTimestamp_ne_panicked env _ _ _ _ _ _ _ _
  · exact makeTimestamp_ne_panicked env _ _ _ _ _ _ _ _
  · intro h
    cases h

def castResult (value : Option ℤ) : Except PartsError PartValue :=
  match value with
  | some n => .ok (.int n)
  | none => .error .cast

lemma castResult_ne_panicked (v : Option ℤ) : castResult v ≠ .error .panicked := by
  cases v with
  | none => intro h; cases h
  | some n => intro h; cases h

def PartsEnv.toI32? (env : PartsEnv) : PartValue → Option ℤ
  | .int n => if IsI32 n then some n else none
  | .text s => env.parseI32 s

def PartValue.toI64? : PartValue → Option ℤ
  | int n => some n
  | text _ => none

def PartValue.toText : PartValue → Except PartsError PartValue
  | text s => .ok (text s)
  | int _ => .error (.execution "Failed to downcast Array to StringArray")

lemma PartValue.toText_ne_panicked (v : PartValue) : v.toText ≠ .error .panicked := by
  cases v with
  | int n => intro h; cases h
  | text s => intro h; cases h

namespace PartArg

variable (env : PartsEnv) (column : Columnar (ArrowEntry PartValue))

def int32 : PartArg PartValue :=
  ⟨column, fun v => castResult (env.toI32? v), fun _ => castResult_ne_panicked _⟩

def int64 : PartArg PartValue :=
  ⟨column, fun v => castResult v.toI64?, fun _ => castResult_ne_panicked _⟩

def date32 : PartArg PartValue :=
  ⟨column, fun v => castResult (env.castDate32 v), fun _ => castResult_ne_panicked _⟩

def time64 : PartArg PartValue :=
  ⟨column, fun v => castResult (env.castTime64 v), fun _ => castResult_ne_panicked _⟩

def string : PartArg PartValue := ⟨column, PartValue.toText, PartValue.toText_ne_panicked⟩

end PartArg

inductive PartsFunc where
  | date
  | time
  | timestamp

namespace PartsFunc

def dateCall (args : List (PartArg PartValue)) (h : args ≠ []) : PartsCall PartValue :=
  ⟨args, dateValue, h, dateValue_ne_panicked⟩

def timeCall (args : List (PartArg PartValue)) (h : args ≠ []) : PartsCall PartValue :=
  ⟨args, timeValue, h, timeValue_ne_panicked⟩

def timestampCall (env : PartsEnv) (args : List (PartArg PartValue)) (h : args ≠ []) :
    PartsCall PartValue :=
  ⟨args, timestampValue env, h, timestampValue_ne_panicked env⟩

def call? (env : PartsEnv) (func : PartsFunc) (args : List (Columnar (ArrowEntry PartValue))) :
    Option (PartsCall PartValue) :=
  match func, args with
  | date, [year, month, day] =>
    some (dateCall [.int32 env year, .int32 env month, .int32 env day] (cons_ne_nil _ _))
  | time, [hour, minute, second] =>
    some (timeCall [.int64 hour, .int64 minute, .int64 second] (cons_ne_nil _ _))
  | time, [hour, minute, second, nano] =>
    some (timeCall [.int64 hour, .int64 minute, .int64 second, .int64 nano]
      (cons_ne_nil _ _))
  | timestamp, [dateExpr, timeExpr] =>
    some (timestampCall env [.date32 env dateExpr, .time64 env timeExpr] (cons_ne_nil _ _))
  | timestamp, [year, month, day, hour, minute, second] =>
    some (timestampCall env [.int32 env year, .int32 env month, .int32 env day, .int64 hour,
      .int64 minute, .int64 second] (cons_ne_nil _ _))
  | timestamp, [year, month, day, hour, minute, second, nano] =>
    some (timestampCall env [.int32 env year, .int32 env month, .int32 env day, .int64 hour,
      .int64 minute, .int64 second, .int64 nano] (cons_ne_nil _ _))
  | timestamp, [year, month, day, hour, minute, second, nano, zone] =>
    some (timestampCall env [.int32 env year, .int32 env month, .int32 env day, .int64 hour,
      .int64 minute, .int64 second, .int64 nano, .string zone] (cons_ne_nil _ _))
  | _, _ => none

def invoke (env : PartsEnv) (func : PartsFunc) (args : List (Columnar (ArrowEntry PartValue))) :
    Except PartsError (Columnar (Option ℤ)) :=
  match func.call? env args with
  | some call => call.invoke
  | none => .error (.internal "Unsupported number of arguments")

variable {f : PartsFunc}

lemma columns_of_call? {env : PartsEnv}
    {args : List (Columnar (ArrowEntry PartValue))} {call : PartsCall PartValue}
    (h : f.call? env args = some call) : call.args.map PartArg.column = args := by
  rw [call?.eq_def] at h
  split at h <;> cases h <;> rfl

lemma invoke_eq {env : PartsEnv}
    {ar : List (Columnar (ArrowEntry PartValue))} {call : PartsCall PartValue}
    (h : f.call? env ar = some call) : f.invoke env ar = call.invoke := by
  rw [invoke, h]

/-- The result of each row; if a row has none, an error and no panic. -/
def IsRowWise (env : PartsEnv) (func : PartsFunc) (args : List (Columnar (ArrowEntry PartValue)))
    (call : PartsCall PartValue) (n : ℕ) : Prop :=
  match call.spec n with
  | .ok rows => ∃ column, func.invoke env args = .ok column ∧ column.intoArray n = rows
  | .error _ => ∃ e, e ≠ .panicked ∧ func.invoke env args = .error e

/-! ### Main result -/

/-- **The functions are row by row** exactly if the arguments are uniform and not NULL, or fail
early. -/
theorem isRowWise_iff (env : PartsEnv) {func : PartsFunc}
    {args : List (Columnar (ArrowEntry PartValue))} {call : PartsCall PartValue} {n : ℕ}
    (hcall : func.call? env args = some call) (hrows : ∀ arg ∈ args, arg.HasRows n) :
    func.IsRowWise env args call n ↔ call.RowWiseCondition n := by
  have hc : call.HasRows n := fun arg ha =>
    hrows arg.column (columns_of_call? hcall ▸ mem_map_of_mem ha)
  rw [IsRowWise, invoke_eq hcall]
  exact call.rowWise_iff hc

def samplePartsEnv : PartsEnv where
  parseI32 _ := none
  castDate32 := PartValue.toI64?
  castTime64 := PartValue.toI64?
  isTimezone s := s = "UTC"

def ints (values : List ℤ) : Columnar (ArrowEntry PartValue) :=
  .array (values.map fun n => ⟨true, .int n⟩)

def intScalar (n : ℤ) : Columnar (ArrowEntry PartValue) := .scalar ⟨true, .int n⟩

theorem isRowWise_columns :
    PartsFunc.date.IsRowWise samplePartsEnv [ints [2024, 2025], ints [1, 2], ints [1, 3]]
      (dateCall [.int32 samplePartsEnv (ints [2024, 2025]), .int32 samplePartsEnv (ints [1, 2]),
        .int32 samplePartsEnv (ints [1, 3])] (cons_ne_nil _ _)) 2 := by
  refine (isRowWise_iff samplePartsEnv rfl ?_).mpr ?_
  · intro arg ha
    simp only [mem_cons, not_mem_nil, or_false] at ha
    obtain rfl | rfl | rfl := ha <;> rfl
  · have hs : (dateCall [.int32 samplePartsEnv (ints [2024, 2025]),
        .int32 samplePartsEnv (ints [1, 2]), .int32 samplePartsEnv (ints [1, 3])]
        (cons_ne_nil _ _)).spec 2 = .ok [some 19723, some 20122] := by decide +kernel
    rw [PartsCall.RowWiseCondition, hs]
    refine ⟨.inr (.inr fun arg ha => ?_), fun i hi => ?_⟩
    · simp only [dateCall, mem_cons, not_mem_nil, or_false] at ha
      obtain rfl | rfl | rfl := ha <;> exact Option.some_ne_none 2
    · interval_cases i <;> rfl

theorem isRowWise_fails :
    PartsFunc.date.invoke samplePartsEnv [ints [2024, 2025], intScalar 1, intScalar 1] =
        .error .panicked ∧
      PartsFunc.date.invoke samplePartsEnv [.scalar ⟨false, .int 0⟩, intScalar 1, intScalar 1] =
        .ok (.scalar (some (-719528))) ∧
      ¬PartsFunc.date.IsRowWise samplePartsEnv [ints [2024, 2025], intScalar 1, intScalar 1]
        (dateCall [.int32 samplePartsEnv (ints [2024, 2025]), .int32 samplePartsEnv (intScalar 1),
          .int32 samplePartsEnv (intScalar 1)] (cons_ne_nil _ _)) 2 := by
  have hp : PartsFunc.date.invoke samplePartsEnv
      [ints [2024, 2025], intScalar 1, intScalar 1] = .error .panicked := rfl
  refine ⟨hp, rfl, ?_⟩
  have hs : (dateCall [.int32 samplePartsEnv (ints [2024, 2025]),
      .int32 samplePartsEnv (intScalar 1), .int32 samplePartsEnv (intScalar 1)]
      (cons_ne_nil _ _)).spec 2 = .ok [some 19723, some 20089] := by decide +kernel
  rw [IsRowWise, hs]
  rintro ⟨column, hi, -⟩
  cases hp.symm.trans hi

end PartsFunc

end Rustice
