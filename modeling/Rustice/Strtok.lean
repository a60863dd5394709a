import Mathlib.Data.Int.Notation
import Rustice.Columnar

/-!
# `STRTOK` and `STRTOK_TO_ARRAY`

A literal is an array of one row in both: `STRTOK` reads beyond its end and panics, and
`STRTOK_TO_ARRAY` ends there.
-/

namespace Rustice

open List

inductive StrtokError where
  | failedToDowncast
  | partNrLessThanOne
  | panicked

inductive StrtokArgs where
  | one
  | two (delimiter : Columnar (Option (List Char)))
  | three (delimiter : Columnar (Option (List Char))) (partNr : Columnar (Option ℤ))

section

variable {α : Type}

/-- `is_null`: a literal that is not NULL has no mask, in which an index could be out of bounds. -/
def nullAt : Columnar (Option α) → ℕ → Except StrtokError Bool
  | .array values, i => match values[i]? with
    | some value => .ok value.isNone
    | none => .error .panicked
  | .scalar value, i => if i = 0 ∨ value.isSome then .ok value.isNone else .error .panicked

def valueAt (arg : Columnar (Option α)) (i : ℕ) : Except StrtokError α :=
  match arg.toArray[i]? with
  | some (some value) => .ok value
  | _ => .error .panicked

end

/-- `piece` is read since the last delimiter. -/
def tokens (delimiter : List Char) : List Char → List Char → List (List Char)
  | piece, [] => if piece = [] then [] else [piece]
  | piece, ch :: rest =>
    if ch ∈ delimiter then
      (if piece = [] then [] else [piece]) ++ tokens delimiter [] rest
    else tokens delimiter (piece ++ [ch]) rest

def splitRow (strs delms : Columnar (Option (List Char))) (partNrs : Columnar (Option ℤ)) (i : ℕ) :
    Except StrtokError (Option (List Char)) := do
  if ← nullAt strs i then return none
  if ← nullAt delms i then return none
  if ← nullAt partNrs i then return none
  let string ← valueAt strs i
  let delimiter ← valueAt delms i
  let partNr ← valueAt partNrs i
  if partNr < 0 then throw .panicked
  if partNr < 1 then throw .partNrLessThanOne
  return (tokens delimiter [] string)[partNr.toNat - 1]?

def strtok (strs : List (Option (List Char))) :
    StrtokArgs → Except StrtokError (List (Option (List Char)))
  -- the default for the part number is a `UInt64`, which `as_int64_array` refuses
  | .one | .two _ => .error .failedToDowncast
  | .three delms partNrs => (range strs.length).mapM (splitRow (.array strs) delms partNrs)

def StrtokArgs.delimiter : StrtokArgs → Columnar (Option (List Char))
  | one => .scalar (some [' '])
  | two delms | three delms _ => delms

def StrtokArgs.partNr : StrtokArgs → Columnar (Option ℤ)
  | one | two _ => .scalar (some 1)
  | three _ partNrs => partNrs

variable (space : Char → Bool)

def isJsonNull (s : List Char) : Bool :=
  let text := ((s.dropWhile space).reverse.dropWhile space).reverse.map Char.toLower
  text == "null".toList || text == "[ null ]".toList

def strtokToArrayRow : Option (List Char) × Option (List Char) → Option (List (List Char))
  | (some string, some delimiter) =>
    if isJsonNull space string ∨ isJsonNull space delimiter then none
    else some (tokens delimiter [] string)
  | _ => none

def strtokToArray (strs : List (Option (List Char))) (args : StrtokArgs) :
    List (Option (List (List Char))) :=
  (strs.zip args.delimiter.toArray).map (strtokToArrayRow space)

structure StrtokCall where
  strs : List (Option (List Char))
  args : StrtokArgs
  hasRows : args.delimiter.HasRows strs.length ∧ args.partNr.HasRows strs.length

namespace StrtokCall

variable (call : StrtokCall)

def RowIs (i : ℕ) (string delimiter : List Char) (partNr : ℤ) : Prop :=
  call.strs[i]? = some (some string) ∧ call.args.delimiter.row? i = some (some delimiter) ∧
    call.args.partNr.row? i = some (some partNr)

def arrays : List (Option (List (List Char))) := strtokToArray space call.strs call.args

def Agrees : Prop :=
  (call.arrays space).length = call.strs.length ∧
  ((∃ i string delimiter partNr, call.RowIs i string delimiter partNr ∧ partNr < 1) →
    ∃ e, strtok call.strs call.args = .error e ∧ e ≠ .panicked) ∧
  ((∀ i string delimiter partNr, call.RowIs i string delimiter partNr → 1 ≤ partNr) →
    ∃ out, strtok call.strs call.args = .ok out ∧ out.length = call.strs.length ∧
      ∀ i string delimiter partNr, call.RowIs i string delimiter partNr →
        out[i]? = some ((call.arrays space)[i]?.join.bind (·[partNr.toNat - 1]?)))

/-- The part number is negative, or a literal beyond the first row. -/
def Panics (i : ℕ) : Prop :=
  ∃ string delimiter, call.strs[i]? = some (some string) ∧
    call.args.delimiter.row? i = some (some delimiter) ∧
    (call.args.partNr.toArray.length ≤ i ∨
      ∃ partNr < 0, call.args.partNr.row? i = some (some partNr))

def AgreeCondition : Prop :=
  (∃ delms partNrs, call.args = .three delms partNrs) ∧
  call.strs.length ≤ call.args.delimiter.toArray.length ∧
  ((∃ i string delimiter, call.RowIs i string delimiter 0 ∧ ∀ j ≤ i, ¬ call.Panics j) ∨
    (∀ i, ¬ call.Panics i) ∧ ∀ i string delimiter partNr, call.RowIs i string delimiter partNr →
      1 ≤ partNr ∧ (isJsonNull space string ∨ isJsonNull space delimiter →
        (tokens delimiter [] string)[partNr.toNat - 1]? = none))

end StrtokCall

section

variable {α : Type} {arg : Columnar (Option α)} {i : ℕ}

lemma nullAt_of_getElem? {v : Option α} (h : arg.toArray[i]? = some v) :
    nullAt arg i = .ok v.isNone := by
  cases arg with
  | array values =>
    rw [Columnar.toArray] at h
    rw [nullAt, h]
  | scalar v' =>
    cases i with
    | zero => cases h; simp [nullAt]
    | succ i => cases h

lemma valueAt_of_getElem? {value : α} (h : arg.toArray[i]? = some (some value)) :
    valueAt arg i = .ok value := by
  rw [valueAt, h]

lemma nullAt_beyond (h : arg.toArray[i]? = none) :
    nullAt arg i = .error .panicked ∨ nullAt arg i = .ok false := by
  cases arg with
  | array values =>
    rw [Columnar.toArray] at h
    rw [nullAt, h]
    exact .inl rfl
  | scalar v =>
    cases i with
    | zero => cases h
    | succ i => cases v <;> simp [nullAt]

end

section

variable {strs : List (Option (List Char))} {delms : Columnar (Option (List Char))}
  {partNrs : Columnar (Option ℤ)} {i : ℕ} {string delimiter : List Char}

lemma splitRow_null {s d : Option (List Char)} (hs : strs[i]? = some s)
    (hd : delms.toArray[i]? = some d) (h : s = none ∨ d = none) :
    splitRow (.array strs) delms partNrs i = .ok none := by
  have hs' : (Columnar.array strs).toArray[i]? = some s := hs
  rw [splitRow, nullAt_of_getElem? hs', nullAt_of_getElem? hd]
  rcases h with rfl | rfl
  · rfl
  · cases s <;> rfl

variable (hs : strs[i]? = some (some string)) (hd : delms.toArray[i]? = some (some delimiter))

include hs hd

lemma splitRow_beyond (hk : partNrs.toArray[i]? = none) :
    splitRow (.array strs) delms partNrs i = .error .panicked := by
  have hs' : (Columnar.array strs).toArray[i]? = some (some string) := hs
  rw [splitRow, nullAt_of_getElem? hs', nullAt_of_getElem? hd, valueAt_of_getElem? hs',
    valueAt_of_getElem? hd]
  have hv : valueAt partNrs i = .error .panicked := by rw [valueAt, hk]
  rcases nullAt_beyond hk with hn | hn
  · rw [hn]
    rfl
  · rw [hn, hv]
    rfl

lemma splitRow_of_getElem? {k : Option ℤ} (hk : partNrs.toArray[i]? = some k) :
    splitRow (.array strs) delms partNrs i = match k with
      | none => .ok none
      | some k =>
        if k < 0 then .error .panicked
        else if k < 1 then .error .partNrLessThanOne
        else .ok (tokens delimiter [] string)[k.toNat - 1]? := by
  have hs' : (Columnar.array strs).toArray[i]? = some (some string) := hs
  rw [splitRow, nullAt_of_getElem? hs', nullAt_of_getElem? hd, nullAt_of_getElem? hk,
    valueAt_of_getElem? hs', valueAt_of_getElem? hd]
  cases k with
  | none => rfl
  | some k =>
    rw [valueAt_of_getElem? hk]
    show (if k < 0 then _ else if k < 1 then _ else _) = _
    rfl

end

namespace StrtokCall

variable {space} {call : StrtokCall} {i : ℕ} {string delimiter : List Char} {partNr pn : ℤ}
  {delms : Columnar (Option (List Char))} {partNrs : Columnar (Option ℤ)}

lemma getElem?_arrays (hdelms : call.strs.length ≤ call.args.delimiter.toArray.length)
    (h : call.RowIs i string delimiter pn) : (call.arrays space)[i]? =
      some (if isJsonNull space string ∨ isJsonNull space delimiter then none
        else some (tokens delimiter [] string)) := by
  obtain ⟨hs, hd, -⟩ := h
  have hi : i < call.strs.length := (List.getElem?_eq_some_iff.mp hs).1
  rw [← Columnar.getElem?_toArray (Nat.lt_of_lt_of_le hi hdelms)] at hd
  have hz : (call.strs.zip call.args.delimiter.toArray)[i]? = some (some string, some delimiter) :=
    getElem?_zip_eq_some.mpr ⟨hs, hd⟩
  rw [arrays, strtokToArray, getElem?_map, hz]
  rfl

lemma splitRow_cases (hargs : call.args = .three delms partNrs)
    (hdelms : call.strs.length ≤ delms.toArray.length) (hi : i < call.strs.length) :
    (¬ call.Panics i ∧ ∃ out, splitRow (.array call.strs) delms partNrs i = .ok out ∧
      ∀ string delimiter pn, call.RowIs i string delimiter pn →
        1 ≤ pn ∧ out = (tokens delimiter [] string)[pn.toNat - 1]?) ∨
    (call.Panics i ∧ splitRow (.array call.strs) delms partNrs i = .error .panicked) ∨
    (¬ call.Panics i ∧ (∃ string delimiter, call.RowIs i string delimiter 0) ∧
      splitRow (.array call.strs) delms partNrs i = .error .partNrLessThanOne) := by
  have hs := getElem?_eq_getElem hi
  have hd := getElem?_eq_getElem (Nat.lt_of_lt_of_le hi hdelms)
  have hr := Columnar.getElem?_toArray (Nat.lt_of_lt_of_le hi hdelms)
  rw [hd] at hr
  simp only [Panics, RowIs, hargs, StrtokArgs.delimiter, StrtokArgs.partNr, hs, ← hr,
    Option.some.injEq]
  generalize call.strs[i] = s at hs
  generalize delms.toArray[i] = d at hd
  cases s with
  | none => exact .inl ⟨by simp, none, splitRow_null hs hd (.inl rfl), by simp⟩
  | some string =>
    cases d with
    | none => exact .inl ⟨by simp, none, splitRow_null hs hd (.inr rfl), by simp⟩
    | some delimiter =>
      cases hk : partNrs.toArray[i]? with
      | none =>
        refine .inr (.inl ⟨?_, splitRow_beyond hs hd hk⟩)
        exact ⟨string, delimiter, rfl, rfl, .inl (getElem?_eq_none_iff.mp hk)⟩
      | some k =>
        have hlt := (List.getElem?_eq_some_iff.mp hk).1
        have hp := (Columnar.getElem?_toArray hlt).symm.trans hk
        rw [splitRow_of_getElem? hs hd hk]
        cases k with
        | none => exact .inl ⟨by simp [hp, hlt], none, rfl, by simp [hp]⟩
        | some k =>
          simp only [hp, Option.some.injEq]
          split_ifs with hneg hz
          · exact .inr (.inl ⟨⟨string, delimiter, rfl, rfl, .inr ⟨k, hneg, rfl⟩⟩, rfl⟩)
          · obtain rfl : k = 0 := by omega
            exact .inr (.inr ⟨by simp [hlt], ⟨string, delimiter, rfl, rfl, rfl⟩, rfl⟩)
          · refine .inl ⟨by simp [hlt]; omega, _, rfl, ?_⟩
            rintro _ _ _ ⟨rfl, rfl, rfl⟩
            exact ⟨by omega, rfl⟩

section

variable (hargs : call.args = .three delms partNrs)
  (hdelms : call.strs.length ≤ delms.toArray.length) (hi : i < call.strs.length)

include hargs hdelms hi

lemma splitRow_ok {o : Option (List Char)}
    (h : splitRow (.array call.strs) delms partNrs i = .ok o) :
    ¬ call.Panics i ∧ ∀ string delimiter pn, call.RowIs i string delimiter pn →
      1 ≤ pn ∧ o = (tokens delimiter [] string)[pn.toNat - 1]? := by
  obtain ⟨hc, z, hz, hr⟩ | ⟨-, hp⟩ | ⟨-, -, hzer⟩ := splitRow_cases hargs hdelms hi
  · rw [Except.ok.inj (h.symm.trans hz)]
    exact ⟨hc, hr⟩
  · cases h.symm.trans hp
  · cases h.symm.trans hzer

lemma splitRow_error {e : StrtokError}
    (h : splitRow (.array call.strs) delms partNrs i = .error e) :
    call.Panics i ∧ e = .panicked ∨ ¬ call.Panics i ∧ e ≠ .panicked ∧
      ∃ string delimiter, call.RowIs i string delimiter 0 := by
  obtain ⟨-, z, hz, -⟩ | ⟨hp, hpan⟩ | ⟨hc, hr, hzer⟩ := splitRow_cases hargs hdelms hi
  · cases h.symm.trans hz
  · exact .inl ⟨hp, Except.error.inj (h.symm.trans hpan)⟩
  · cases h.symm.trans hzer
    exact .inr ⟨hc, nofun, hr⟩

end

lemma length_arrays_iff : (call.arrays space).length = call.strs.length ↔
    call.strs.length ≤ call.args.delimiter.toArray.length := by
  rw [arrays, strtokToArray, length_map, length_zip]
  omega

lemma RowIs.lt (h : call.RowIs i string delimiter pn) : i < call.strs.length :=
  (List.getElem?_eq_some_iff.mp h.1).1

lemma three_of_agrees (h : call.Agrees space) :
    ∃ delms partNrs, call.args = .three delms partNrs := by
  obtain ⟨-, -, hpic⟩ := h
  cases hargs : call.args with
  | three delms partNrs => exact ⟨delms, partNrs, rfl⟩
  | one | two =>
    obtain ⟨out, ho, -⟩ := hpic fun i string delimiter pn hr => by
      obtain ⟨-, -, hp⟩ := hr
      rw [hargs] at hp
      cases hp
      exact Int.le_refl 1
    rw [hargs] at ho
    cases ho

lemma strtok_fails_iff (hargs : call.args = .three delms partNrs)
    (hdelms : call.strs.length ≤ delms.toArray.length) :
    (∃ e, strtok call.strs call.args = .error e ∧ e ≠ .panicked) ↔
      ∃ i string delimiter, call.RowIs i string delimiter 0 ∧ ∀ j ≤ i, ¬ call.Panics j := by
  rw [hargs]
  constructor
  · rintro ⟨e, he, hne⟩
    obtain ⟨i, x, hx, he, hb⟩ := mapM_eq_error_iff.mp he
    obtain ⟨hi, rfl⟩ := List.getElem?_eq_some_iff.mp hx
    rw [getElem_range] at he
    rw [length_range] at hi
    obtain ⟨-, hpan⟩ | ⟨hc, -, string, delimiter, hr⟩ := splitRow_error hargs hdelms hi he
    · exact absurd hpan hne
    refine ⟨i, string, delimiter, hr, fun j hj => ?_⟩
    rcases Nat.lt_or_eq_of_le hj with hj | rfl
    · obtain ⟨z, hz⟩ := hb j hj j (getElem?_range (Nat.lt_trans hj hi))
      exact (splitRow_ok hargs hdelms (Nat.lt_trans hj hi) hz).1
    · exact hc
  · rintro ⟨i, string, delimiter, hr, hc⟩
    cases ho : strtok call.strs (.three delms partNrs) with
    | ok out =>
      obtain ⟨z, hz⟩ := exists_of_mapM_eq_ok ho (mem_range.mpr hr.lt)
      exact absurd ((splitRow_ok hargs hdelms hr.lt hz).2 _ _ _ hr).1 (by decide)
    | error e =>
      refine ⟨e, rfl, ?_⟩
      obtain ⟨i', x, hx, he, hb⟩ := mapM_eq_error_iff.mp ho
      obtain ⟨hi', rfl⟩ := List.getElem?_eq_some_iff.mp hx
      rw [getElem_range] at he
      rw [length_range] at hi'
      obtain ⟨hp, -⟩ | ⟨-, hne, -⟩ := splitRow_error hargs hdelms hi' he
      · -- the row of the failure does not come after the one with the zero
        refine absurd hp (hc i' (Nat.not_lt.mp fun hlt => ?_))
        obtain ⟨z, hz⟩ := hb i hlt i (getElem?_range hr.lt)
        exact absurd ((splitRow_ok hargs hdelms hr.lt hz).2 _ _ _ hr).1 (by decide)
      · exact hne

/-! ### Main result -/

/-- **The functions agree exactly under `AgreeCondition`** -/
theorem agrees_iff : call.Agrees space ↔ call.AgreeCondition space := by
  constructor
  · intro h
    obtain ⟨delms, partNrs, hargs⟩ := three_of_agrees h
    obtain ⟨ha, hf, hpic⟩ := h
    have hl := length_arrays_iff.mp ha
    have hdelms : call.strs.length ≤ delms.toArray.length := by rwa [hargs] at hl
    refine ⟨⟨delms, partNrs, hargs⟩, hl, ?_⟩
    by_cases hb : ∃ i string delimiter partNr, call.RowIs i string delimiter partNr ∧ partNr < 1
    · exact .inl ((strtok_fails_iff hargs hdelms).mp (hf hb))
    have hpos : ∀ i string delimiter partNr, call.RowIs i string delimiter partNr → 1 ≤ partNr :=
      fun i string delimiter partNr hr =>
        Int.not_lt.mp fun hlt => hb ⟨i, string, delimiter, partNr, hr, hlt⟩
    obtain ⟨out, ho, -, hpc⟩ := hpic hpos
    rw [hargs] at ho
    refine .inr ⟨fun i hp => ?_, fun i string delimiter partNr hr => ⟨hpos _ _ _ _ hr, ?_⟩⟩
    · have hi : i < call.strs.length := by
        obtain ⟨string, -, hs, -⟩ := hp
        exact (List.getElem?_eq_some_iff.mp hs).1
      obtain ⟨z, hz⟩ := exists_of_mapM_eq_ok ho (mem_range.mpr hi)
      exact (splitRow_ok hargs hdelms hi hz).1 hp
    · intro hn
      have hnon := hpc _ _ _ _ hr
      rw [getElem?_arrays hl hr, if_pos hn] at hnon
      obtain ⟨y, hy, hsp⟩ := getElem?_of_mapM_eq_ok ho (getElem?_range hr.lt)
      rw [← ((splitRow_ok hargs hdelms hr.lt hsp).2 _ _ _ hr).2]
      exact Option.some.inj (hy.symm.trans hnon)
  · rintro ⟨⟨delms, partNrs, hargs⟩, hl, hc⟩
    have hdelms : call.strs.length ≤ delms.toArray.length := by rwa [hargs] at hl
    refine ⟨length_arrays_iff.mpr hl, ?_, ?_⟩
    · rintro ⟨i, string, delimiter, partNr, hr, hlt⟩
      rcases hc with hzer | ⟨-, hpos⟩
      · exact (strtok_fails_iff hargs hdelms).mpr hzer
      · exact absurd (hpos _ _ _ _ hr).1 (Int.not_le.mpr hlt)
    · intro hpos
      rcases hc with ⟨i, string, delimiter, hr, -⟩ | ⟨hcal, hn⟩
      · exact absurd (hpos _ _ _ _ hr) (by decide)
      have hal : ∀ i ∈ range call.strs.length,
          ∃ z, splitRow (.array call.strs) delms partNrs i = .ok z := by
        intro i hi
        cases hsp : splitRow (.array call.strs) delms partNrs i with
        | ok z => exact ⟨z, rfl⟩
        | error e =>
          obtain ⟨hp, -⟩ | ⟨-, -, string, delimiter, hr⟩ :=
            splitRow_error hargs hdelms (mem_range.mp hi) hsp
          · exact absurd hp (hcal i)
          · exact absurd (hpos _ _ _ _ hr) (by decide)
      obtain ⟨out, ho⟩ := exists_mapM_eq_ok hal
      rw [hargs]
      refine ⟨out, ho, (length_of_mapM_eq_ok ho).trans length_range, ?_⟩
      intro i string delimiter partNr hr
      obtain ⟨y, hy, hsp⟩ := getElem?_of_mapM_eq_ok ho (getElem?_range hr.lt)
      rw [hy, ((splitRow_ok hargs hdelms hr.lt hsp).2 _ _ _ hr).2, getElem?_arrays hl hr]
      split_ifs with hj
      · rw [(hn _ _ _ _ hr).2 hj]
        rfl
      · rfl

end StrtokCall

def literalDelimiter : StrtokCall where
  strs := [some ['a'], some ['b']]
  args := .three (.scalar (some [','])) (.scalar (some 1))
  hasRows := ⟨trivial, trivial⟩

theorem not_agrees_literalDelimiter : ¬ literalDelimiter.Agrees Char.isWhitespace := by
  rintro ⟨h, -⟩
  cases h

end Rustice
