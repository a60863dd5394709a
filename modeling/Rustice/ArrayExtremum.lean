import Rustice.JsonArrays
import Rustice.Timestamp

/-!
# `ARRAY_MAX` and `ARRAY_MIN`

The extremum so far is kept as a text with the type of its number, and read again for each number of
the array.
-/

namespace Rustice

open List TimeEnv

inductive JsonNumber (φ : Type) where
  | int (n : ℤ)
  | float (x : φ)

inductive NumberType where
  | i64
  | f64
  deriving DecidableEq

structure Extremum where
  value : Option String := none
  type : Option NumberType := none

structure FloatText (φ : Type) where
  toText : φ → String
  parse : String → Option φ
  lt : φ → φ → Bool

variable {φ : Type}

section

variable (floats : FloatText φ) (better : ℤ → ℤ → Bool) (betterFloat : φ → φ → Bool)

def updateExtremum (acc : Extremum) : JsonValue (JsonNumber φ) → Extremum
  | .number (.int num) =>
    let shouldUpdate : Bool := match acc.value with
      | none => true
      | some current => (parseI64 current.toList).any fun currentNum =>
        acc.type = some .i64 && better num currentNum
    if IsI64 num ∧ shouldUpdate = true then ⟨some (toString num), some .i64⟩ else acc
  | .number (.float num) =>
    let shouldUpdate : Bool := match acc.value with
      | none => true
      | some current => (floats.parse current).any fun currentNum =>
        acc.type = some .f64 && betterFloat num currentNum
    if shouldUpdate then ⟨some (floats.toText num), some .f64⟩ else acc
  | _ => acc

def findExtremum (fromStr : String → Option (JsonValue (JsonNumber φ))) (text : String) :
    Except ArrayError (Option String) := do
  match ← readJson fromStr text with
  | .array array =>
    if array.isEmpty then return none
    return (array.foldl (updateExtremum floats better betterFloat) {}).value
  | _ => return none

end

def findMax (floats : FloatText φ) (fromStr : String → Option (JsonValue (JsonNumber φ)))
    (text : String) :
    Except ArrayError (Option String) :=
  findExtremum floats (fun num current => current < num) (fun num current => floats.lt current num)
    fromStr text

def findMin (floats : FloatText φ) (fromStr : String → Option (JsonValue (JsonNumber φ)))
    (text : String) :
    Except ArrayError (Option String) :=
  findExtremum floats (fun num current => num < current) floats.lt fromStr text

structure IntegerArray (fromStr : String → Option (JsonValue (JsonNumber φ))) where
  text : String
  items : List (Option ℤ)
  reads : fromStr text =
    some (.array (items.map fun item => item.elim .null fun n => .number (.int n)))
  hasRoom : ∀ n, some n ∈ items → -2 ^ 63 ≤ n ∧ n < 2 ^ 64
  exists_int : ∃ n, some n ∈ items

def Extremal (floats : FloatText φ) {fromStr : String → Option (JsonValue (JsonNumber φ))}
    (a : IntegerArray fromStr) :
    Prop :=
  (∃ n, findMax floats fromStr a.text = .ok (some (toString n)) ∧ some n ∈ a.items ∧
    ∀ m, some m ∈ a.items → m ≤ n) ∧
  ∃ n, findMin floats fromStr a.text = .ok (some (toString n)) ∧ some n ∈ a.items ∧
    ∀ m, some m ∈ a.items → n ≤ m

section Loop

variable {floats : FloatText φ} {better : ℤ → ℤ → Bool} {betterFloat : φ → φ → Bool}
  {fromStr : String → Option (JsonValue (JsonNumber φ))} {a : IntegerArray fromStr}
  {items xs : List (Option ℤ)} {best b : Option ℤ} {key : ℤ → ℤ}

def keep (best : Option ℤ) : Extremum := ⟨best.map toString, best.map fun _ => .i64⟩

/-- A number with the largest key of those that an `i64` has room for. -/
def IsBest (key : ℤ → ℤ) (items : List (Option ℤ)) (best : Option ℤ) : Prop :=
  (∀ n, best = some n → IsI64 n ∧ some n ∈ items) ∧
  ∀ n, some n ∈ items → IsI64 n → ∃ m, best = some m ∧ key n ≤ key m

lemma IsBest.stay (h : IsBest key xs best) {x : Option ℤ}
    (hi : ∀ n, x = some n → IsI64 n → ∃ m, best = some m ∧ key n ≤ key m) :
    IsBest key (xs ++ [x]) best := by
  obtain ⟨hm, hle⟩ := h
  refine ⟨fun n hn => ⟨(hm n hn).1, mem_append_left _ (hm n hn).2⟩, fun n hn hi6 => ?_⟩
  rcases mem_append.mp hn with hn | hn
  · exact hle n hn hi6
  · exact hi n (mem_singleton.mp hn).symm hi6

lemma IsBest.replace (h : IsBest key xs b) {n : ℤ} (hi6 : IsI64 n)
    (hb : ∀ m, b = some m → key m ≤ key n) : IsBest key (xs ++ [some n]) (some n) := by
  refine ⟨?_, fun m hm hm6 => ⟨n, rfl, ?_⟩⟩
  · rintro _ ⟨⟩
    exact ⟨hi6, mem_append_right _ mem_cons_self⟩
  · rcases mem_append.mp hm with hm | hm
    · obtain ⟨m', hm', hmm'⟩ := h.2 m hm hm6
      exact hmm'.trans (hb m' hm')
    · rw [Option.some.inj (mem_singleton.mp hm)]

variable (hbetter : ∀ num current, better num current = decide (key current < key num))

include hbetter

lemma updateExtremum_keep (h : IsBest key xs b) (x : Option ℤ) :
    ∃ best', updateExtremum floats better betterFloat (keep b)
        (x.elim .null fun n => .number (.int n)) = keep best' ∧ IsBest key (xs ++ [x]) best' := by
  cases x with
  | none => exact ⟨b, rfl, h.stay fun n hn => nomatch hn⟩
  | some n =>
    by_cases hi6 : IsI64 n
    swap
    · refine ⟨b, by simp [updateExtremum, hi6], h.stay fun _ hn h => ?_⟩
      exact absurd (Option.some.inj hn ▸ h) hi6
    cases b with
    | none =>
      exact ⟨some n, by simp [updateExtremum, keep, hi6], h.replace hi6 fun m hm => nomatch hm⟩
    | some m =>
      have hs : updateExtremum floats better betterFloat (keep (some m)) (.number (.int n)) =
          if key m < key n then keep (some n) else keep (some m) := by
        show (if IsI64 n ∧ (parseI64 (toString m).toList).any _ = true then _ else _) = _
        rw [parseI64_toString (h.1 m rfl).1]
        simp only [hi6, true_and, Option.any_some, hbetter, keep, Option.map_some, decide_true,
          Bool.true_and, decide_eq_true_eq]
      by_cases hlt : key m < key n
      · refine ⟨some n, hs.trans (if_pos hlt), h.replace hi6 ?_⟩
        rintro _ ⟨⟩
        exact hlt.le
      · refine ⟨some m, hs.trans (if_neg hlt), h.stay ?_⟩
        rintro _ ⟨⟩ -
        exact ⟨m, rfl, not_lt.mp hlt⟩

variable (floats betterFloat key) in
lemma foldl_updateExtremum (xs : List (Option ℤ)) :
    ∃ best, (xs.map fun x => x.elim .null fun n => .number (.int n)).foldl
        (updateExtremum floats better betterFloat) {} = keep best ∧ IsBest key xs best := by
  induction xs using reverseRecOn with
  | nil => exact ⟨none, rfl, fun n hn => (nomatch hn), fun n hn => absurd hn not_mem_nil⟩
  | append_singleton xs x ih =>
    obtain ⟨best, hf, hb⟩ := ih
    obtain ⟨best', hs, hb'⟩ := updateExtremum_keep hbetter hb x
    exact ⟨best', by rw [map_append, foldl_append, hf]; exact hs, hb'⟩

variable (floats betterFloat a) in
lemma findExtremum_text :
    ∃ best, findExtremum floats better betterFloat fromStr a.text = .ok (best.map toString) ∧
      IsBest key a.items best := by
  obtain ⟨best, hf, hb⟩ := foldl_updateExtremum floats betterFloat key hbetter a.items
  obtain ⟨n, hn⟩ := a.exists_int
  refine ⟨best, ?_, hb⟩
  rw [findExtremum, readJson, a.reads]
  have hne : (a.items.map fun x => x.elim JsonValue.null fun n =>
      .number (JsonNumber.int (φ := φ) n)).isEmpty = false := by
    rw [isEmpty_map, List.isEmpty_eq_false_iff]
    exact ne_nil_of_mem hn
  show (if _ = true then _ else _) = _
  rw [hne, if_neg Bool.false_ne_true, hf]
  rfl

variable (key) in
lemma exists_findExtremum_iff :
    (∃ n, findExtremum floats better betterFloat fromStr a.text = .ok (some (toString n)) ∧
      some n ∈ a.items ∧ ∀ m, some m ∈ a.items → key m ≤ key n) ↔
    ∃ n, IsI64 n ∧ some n ∈ a.items ∧ ∀ m, some m ∈ a.items → key m ≤ key n := by
  obtain ⟨b, ht, hmm, hle⟩ := findExtremum_text floats betterFloat a hbetter
  rw [ht]
  constructor
  · rintro ⟨n, hn, hi, ha⟩
    obtain ⟨m, rfl, hm⟩ := Option.map_eq_some_iff.mp (Except.ok.inj hn)
    rw [toString_int_inj] at hm
    exact ⟨n, hm ▸ (hmm m rfl).1, hi, ha⟩
  · rintro ⟨n, hi6, hi, ha⟩
    obtain ⟨m, rfl, hm⟩ := hle n hi hi6
    exact ⟨m, rfl, (hmm m rfl).2, fun m' hm' => (ha m' hm').trans hm⟩

omit hbetter

lemma exists_best (floats : FloatText φ) (a : IntegerArray fromStr) (key : ℤ → ℤ)
    (hi6 : ∀ n, some n ∈ a.items → IsI64 n) :
    ∃ n, IsI64 n ∧ some n ∈ a.items ∧ ∀ m, some m ∈ a.items → key m ≤ key n := by
  obtain ⟨b, -, hmm, hle⟩ := foldl_updateExtremum floats floats.lt key (fun _ _ => rfl) a.items
  obtain ⟨n, hn⟩ := a.exists_int
  obtain ⟨b, rfl, -⟩ := hle n hn (hi6 n hn)
  refine ⟨b, (hmm b rfl).1, (hmm b rfl).2, fun m hm => ?_⟩
  obtain ⟨_, ⟨⟩, hk⟩ := hle m hm (hi6 m hm)
  exact hk

/-! ### Main result -/

/-- **The results are extremal exactly if every integer of the array is an `i64`.** -/
theorem extremal_iff (floats : FloatText φ) (a : IntegerArray fromStr) :
    Extremal floats a ↔ ∀ n, some n ∈ a.items → IsI64 n := by
  have hmax : (∃ n, findMax floats fromStr a.text = .ok (some (toString n)) ∧ _) ↔ _ :=
    exists_findExtremum_iff id fun _ _ => rfl
  have hmin : (∃ n, findMin floats fromStr a.text = .ok (some (toString n)) ∧ _) ↔ _ :=
    exists_findExtremum_iff (fun n => -n) fun _ _ => decide_eq_decide.mpr neg_lt_neg_iff.symm
  simp only [id, neg_le_neg_iff] at hmax hmin
  rw [Extremal, hmax, hmin]
  constructor
  · rintro ⟨⟨n, hn, -, ha⟩, -⟩ m hm
    exact ⟨(a.hasRoom m hm).1, (ha m hm).trans_lt hn.2⟩
  · exact fun hi6 => ⟨exists_best floats a id hi6, by simpa using exists_best floats a (- ·) hi6⟩

end Loop

def readLarge : String → Option (JsonValue (JsonNumber Empty))
  | "[9223372036854775808]" => some (.array [.number (.int (2 ^ 63))])
  | _ => none

def largeArray : IntegerArray readLarge where
  text := "[9223372036854775808]"
  items := [some (2 ^ 63)]
  reads := rfl
  hasRoom := by simp
  exists_int := ⟨2 ^ 63, mem_cons_self⟩

theorem not_extremal : ¬ Extremal ⟨Empty.elim, fun _ => none, fun _ _ => false⟩ largeArray := by
  rintro ⟨⟨n, hn, -⟩, -⟩
  cases hn

end Rustice
