import Rustice.ObjectConstruct

/-!
# `OBJECT_PICK` and `OBJECT_DELETE`

`OBJECT_DELETE` takes each literal for a key and refuses columns.
-/

namespace Rustice

open List AList

variable {ν : Type}

inductive KeyArg where
  | literal (key : Option String)
  | column
  deriving DecidableEq

inductive ObjectKeyError where
  | argumentMustBeJsonObject
  | argumentMustBeJsonArray
  | keyArgumentsMustBeScalarValues

inductive ObjectArg (ν : Type) where
  | object (fields : JsonObject ν)
  | other

def KeyArg.text? : KeyArg → Option String
  | literal key => key
  | column => none

open KeyArg

def JsonValue.asString? : JsonValue ν → Option String
  | .string s => some s
  | _ => none

def pickedKeys (fromStr : String → Option (JsonValue ν)) : List KeyArg → List String
  | [arg] =>
    match arg.text? with
    | some text =>
      match fromStr text with
      | some (.array items) => items.filterMap JsonValue.asString?
      | _ => [text]
    | none => []
  | args => args.filterMap text?

def pickKeys (keys : List String) : ObjectArg ν → Except ObjectKeyError (JsonObject ν)
  | .object obj => .ok (keys.foldl (fun newObj key =>
      match obj.lookup key with
      | some value => newObj.insert key value
      | none => newObj) ∅)
  | .other => .error .argumentMustBeJsonObject

def objectPick (fromStr : String → Option (JsonValue ν)) (object : ObjectArg ν)
    (args : List KeyArg) : Except ObjectKeyError (JsonObject ν) :=
  pickKeys (pickedKeys fromStr args) object

def deletedKey : KeyArg → Except ObjectKeyError (Option String)
  | .literal key => .ok key
  | .column => .error .keyArgumentsMustBeScalarValues

def deleteKeys (keys : List (Option String)) : ObjectArg ν → Except ObjectKeyError (JsonObject ν)
  | .object obj => .ok (keys.foldl (fun obj key => key.elim obj obj.erase) obj)
  | .other => .error .argumentMustBeJsonArray

def objectDelete (object : ObjectArg ν) (args : List KeyArg) :
    Except ObjectKeyError (JsonObject ν) := do
  deleteKeys (← args.mapM deletedKey) object

/-- They take the object apart, or fail. -/
def Partitions (fromStr : String → Option (JsonValue ν)) (object : JsonObject ν)
    (args : List KeyArg) : Prop :=
  ((∃ e, objectPick fromStr (.object object) args = .error e) ∧
    ∃ e, objectDelete (.object object) args = .error e) ∨
  ∃ picked rest, objectPick fromStr (.object object) args = .ok picked ∧
    objectDelete (.object object) args = .ok rest ∧
    ∀ key, (key ∈ picked → key ∉ rest) ∧
      (picked.lookup key).or (rest.lookup key) = object.lookup key ∧
      (key ∈ picked ↔ .literal (some key) ∈ args ∧ key ∈ object)

variable {fromStr fs : String → Option (JsonValue ν)} {object obj : JsonObject ν}
  {args ar : List KeyArg}
  {ks : List String} {key : String}

lemma lookup_pickKeys (ks : List String) (obj n : JsonObject ν) (key : String) :
    (ks.foldl (fun n key =>
      match obj.lookup key with
      | some v => n.insert key v
      | none => n) n).lookup key =
    (if key ∈ ks then obj.lookup key else none).or (n.lookup key) := by
  induction ks generalizing n with
  | nil => rfl
  | cons k ks ih =>
    rw [foldl_cons, ih]
    by_cases hk : key = k
    · subst hk
      cases h : obj.lookup key with
      | none => simp
      | some v => simp; split_ifs <;> rfl
    · cases h : obj.lookup k <;> simp [hk]

lemma lookup_deleteKeys (ks : List (Option String)) (obj : JsonObject ν) (key : String) :
    (ks.foldl (fun o key => key.elim o o.erase) obj).lookup key =
      if some key ∈ ks then none else obj.lookup key := by
  induction ks generalizing obj with
  | nil => rfl
  | cons k ks ih =>
    rw [foldl_cons, ih]
    cases k with
    | none => simp
    | some k =>
      by_cases hk : key = k
      · subst hk
        simp
      · simp [hk]

lemma objectPick_object (fs : String → Option (JsonValue ν)) (obj : JsonObject ν)
    (ar : List KeyArg) : ∃ p, objectPick fs (.object obj) ar = .ok p ∧
      ∀ key, p.lookup key = if key ∈ pickedKeys fs ar then obj.lookup key else none := by
  refine ⟨_, rfl, fun key => ?_⟩
  rw [lookup_pickKeys, lookup_empty, Option.or_none]

lemma mem_map_text? : some key ∈ args.map text? ↔ .literal (some key) ∈ args := by
  rw [mem_map]
  constructor
  · rintro ⟨_ | _, ha, hk⟩
    · exact congrArg literal hk ▸ ha
    · cases hk
  · exact fun h => ⟨_, h, rfl⟩

lemma objectDelete_object (h : ∀ a ∈ ar, a ≠ .column) : ∃ r, objectDelete (.object obj) ar = .ok r ∧
    ∀ key, r.lookup key = if .literal (some key) ∈ ar then none else obj.lookup key := by
  have hk : ar.mapM deletedKey = .ok (ar.map text?) := by
    refine mapM_eq_ok_map fun a ha => ?_
    cases a with
    | literal key => rfl
    | column => exact absurd rfl (h _ ha)
  refine ⟨_, by rw [objectDelete, hk]; rfl, fun key => ?_⟩
  rw [lookup_deleteKeys]
  simp only [mem_map_text?]

lemma not_column_of_objectDelete {r : JsonObject ν}
    (h : objectDelete (.object obj) ar = .ok r) : ∀ a ∈ ar, a ≠ .column := by
  rintro _ ha rfl
  obtain ⟨ks, hk, -⟩ := bind_eq_ok.mp h
  obtain ⟨_, hky⟩ := exists_of_mapM_eq_ok hk ha
  cases hky

lemma mem_pickedKeys (h : ∀ t xs, args = [.literal (some t)] → fs t ≠ some (.array xs)) :
    key ∈ pickedKeys fs args ↔ .literal (some key) ∈ args := by
  rw [← mem_map_text?, pickedKeys.eq_def]
  split
  next arg =>
    obtain (_ | t) | _ := arg
    · simp [text?]
    · have ht := h t
      rcases hr : fs t with _ | _ | _ | _ | _ | xs | _
      case some.array => exact absurd hr (ht xs rfl)
      all_goals simp [text?, hr]
    · simp [text?]
  next => simp

lemma pickedKeys_array {t : String} {items : List (JsonValue ν)} (h : fs t = some (.array items)) :
    key ∈ pickedKeys fs [.literal (some t)] ↔ .string key ∈ items := by
  simp only [pickedKeys, text?, h, mem_filterMap]
  constructor
  · rintro ⟨_ | _ | _ | s | _ | _, hs, heq⟩ <;> cases heq
    exact hs
  · exact fun hs => ⟨_, hs, rfl⟩

lemma partitions_iff_mem : Partitions fs object args ↔ (∀ a ∈ args, a ≠ .column) ∧
    ∀ key ∈ object, key ∈ pickedKeys fs args ↔ .literal (some key) ∈ args := by
  obtain ⟨p, hpi, hp⟩ := objectPick_object fs object args
  have hm (key) : key ∈ p ↔ key ∈ pickedKeys fs args ∧ key ∈ object := by
    rw [← lookup_isSome, hp, ← lookup_isSome (s := object)]
    split_ifs with h <;> simp [h]
  constructor
  · rintro (⟨⟨_, he⟩, -⟩ | ⟨p', r, hp', hd, hpar⟩)
    · cases hpi.symm.trans he
    · cases hpi.symm.trans hp'
      refine ⟨not_column_of_objectDelete hd, fun key hk => ?_⟩
      have := (hm key).symm.trans (hpar key).2.2
      simpa [hk] using this
  · rintro ⟨hc, hky⟩
    obtain ⟨r, hd, hr⟩ := objectDelete_object hc
    refine .inr ⟨p, r, hpi, hd, fun key => ?_⟩
    by_cases hk : key ∈ object
    · have := hky key hk
      rw [hm, ← lookup_isSome (s := r), hp, hr]
      by_cases ha : .literal (some key) ∈ args <;> simp [this, ha, hk]
    · have := lookup_eq_none.mpr hk
      rw [hm, ← lookup_isSome (s := r), hp, hr]
      simp [this, hk]

/-! ### Main result -/

/-- **The two calls take the object apart exactly if no key is a column and the text of a single
key is not an array that lists other keys of the object.** -/
theorem partitions_iff : Partitions fromStr object args ↔ .column ∉ args ∧
    ∀ text items, args = [.literal (some text)] → fromStr text = some (.array items) →
      ∀ key ∈ object, .string key ∈ items ↔ key = text := by
  rw [partitions_iff_mem]
  refine and_congr ⟨fun h hc => h _ hc rfl, fun h _ harg hc => h (hc ▸ harg)⟩
    ⟨?_, fun h key hk => ?_⟩
  · rintro h text items rfl hi key hk
    have := h key hk
    rw [pickedKeys_array hi] at this
    simpa using this
  · by_cases ha : ∃ text items, args = [.literal (some text)] ∧ fromStr text = some (.array items)
    · obtain ⟨text, items, rfl, hi⟩ := ha
      rw [pickedKeys_array hi, h text items rfl hi key hk]
      simp
    · exact mem_pickedKeys fun text items har hi => ha ⟨text, items, har, hi⟩

theorem not_partitions_column : ¬ Partitions (fun _ => none)
    ((∅ : JsonObject Nat).insert "a" (.number 1)) [.column] := by
  rintro (⟨⟨_, h⟩, -⟩ | ⟨_, _, -, h, -⟩) <;> cases h

end Rustice
