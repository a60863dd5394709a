import Mathlib.Data.Prod.Lex
import Mathlib.Data.String.Basic
import Mathlib.Data.Int.ConditionallyCompleteOrder
import Rustice.ArrayExtremum

/-!
# `ARRAY_SORT`

Integers are compared by the floating-point numbers next to them; the sort is stable.
-/

namespace Rustice

open List

section Stable

variable {α : Type*} {le : α → α → Bool} {l : List α} {a b : α}

lemma pair_sublist_of_mergeSort (ht : ∀ a b c, le a b = true → le b c = true → le a c = true)
    (htot : ∀ a b, (le a b || le b a) = true) (hb : le b a = true)
    (h : [a, b] <+ l.mergeSort le) : [a, b] <+ l := by
  have hab : le a b = true :=
    pairwise_iff_forall_sublist.mp (pairwise_mergeSort ht htot l) h
  have hr : le a a = true := ht a b a hab hb
  let p := fun x => le a x && le x a
  have hc : (l.filter p).Pairwise fun x y => le x y = true := by
    refine pairwise_of_forall_mem_list fun x hx y hy => ?_
    simp only [p, mem_filter, Bool.and_eq_true] at hx hy
    exact ht x a y hx.2.2 hy.2.1
  have hsub := (sublist_mergeSort ht htot hc filter_sublist).filter p
  rw [filter_filter] at hsub
  simp only [Bool.and_self] at hsub
  have heq := hsub.eq_of_length ((mergeSort_perm l le).filter p).length_eq.symm
  have hp := h.filter p
  rw [← heq, filter_cons_of_pos, filter_cons_of_pos, filter_nil] at hp
  · exact hp.trans filter_sublist
  · simp [p, hab, hb]
  · simp [p, hr]

lemma sublist_or_of_mem (ha : a ∈ l) (hb : b ∈ l) (hne : a ≠ b) : [a, b] <+ l ∨ [b, a] <+ l := by
  obtain ⟨s, t, rfl⟩ := append_of_mem ha
  rcases mem_append.mp hb with hs | ht
  · exact .inr ((singleton_sublist.mpr hs).append (singleton_sublist.mpr mem_cons_self))
  · have ht := (mem_cons.mp ht).resolve_left hne.symm
    exact .inl ((nil_sublist s).append ((singleton_sublist.mpr ht).cons_cons a))

end Stable

structure IntToF64 where
  toRat : ℤ → ℚ
  monotone : Monotone toRat

abbrev SortValue := JsonValue (JsonNumber ℚ)

section

variable (f64 : IntToF64)

def asF64 : JsonNumber ℚ → ℚ
  | .int n => f64.toRat n
  | .float x => x

def typeOrder : SortValue → ℕ
  | .null => 5
  | .bool _ => 0
  | .number _ => 1
  | .string _ => 2
  | .array _ => 3
  | .object _ => 4

def compareJsonValues : SortValue → SortValue → Ordering
  | .null, .null => .eq
  | .bool a, .bool b => compare a b
  | .number a, .number b => compare (asF64 f64 a) (asF64 f64 b)
  | .string a, .string b => compare a b
  | a, b => compare (typeOrder a) (typeOrder b)

def toElement : SortValue → Option SortValue
  | .null => none
  | v => some v

def compareElements (sortAscending : Bool) : Option SortValue → Option SortValue → Ordering
  | none, none => .eq
  | none, some _ => if sortAscending then .gt else .lt
  | some _, none => if sortAscending then .lt else .gt
  | some a, some b =>
    if sortAscending then compareJsonValues f64 a b else (compareJsonValues f64 a b).swap

def sortArray (sortAscending _nullsFirst : Bool) : SortValue → Except ArrayError (List SortValue)
  | .array array => .ok (((array.map toElement).mergeSort fun a b =>
      (compareElements f64 sortAscending a b).isLE).map (·.getD .null))
  | _ => .error .inputMustBeJsonArray

end

def sortKey (toRat : ℤ → ℚ) (v : SortValue) : ℕ ×ₗ Bool ×ₗ ℚ ×ₗ String :=
  toLex (typeOrder v, match v with
    | .bool b => toLex (b, toLex (0, ""))
    | .number (.int n) => toLex (false, toLex (toRat n, ""))
    | .number (.float x) => toLex (false, toLex (x, ""))
    | .string s => toLex (false, toLex (0, s))
    | _ => toLex (false, toLex (0, "")))

def exactKey : SortValue → ℕ ×ₗ Bool ×ₗ ℚ ×ₗ String := sortKey fun n => n

def isNull (v : SortValue) : Bool := v matches .null

inductive Sortable : SortValue → Prop where
  | null : Sortable .null
  | bool (b : Bool) : Sortable (.bool b)
  | int (n : ℤ) : -2 ^ 63 ≤ n → n < 2 ^ 64 → Sortable (.number (.int n))
  | string (s : String) : Sortable (.string s)

structure SortCall where
  items : List SortValue
  sortable : ∀ v ∈ items, Sortable v
  sortAscending : Bool
  nullsFirst : Bool

def SortCall.Below (call : SortCall) (v w : SortValue) : Prop :=
  if call.sortAscending then exactKey v ≤ exactKey w else exactKey w ≤ exactKey v

/-- In order, with the nulls on their side. -/
def SortCall.Sorts (f64 : IntToF64) (call : SortCall) : Prop :=
  ∃ out, sortArray f64 call.sortAscending call.nullsFirst (.array call.items) = .ok out ∧
    out.Perm call.items ∧ (out.filter (!isNull ·)).Pairwise call.Below ∧
    out.Pairwise fun v w => if call.nullsFirst then isNull w → isNull v else isNull v → isNull w

variable {f64 : IntToF64} {call cl : SortCall} {v w : SortValue} {tr : ℤ → ℚ}

lemma compareJsonValues_eq (v w : SortValue) :
    compareJsonValues f64 v w = compare (sortKey f64.toRat v) (sortKey f64.toRat w) := by
  rcases v with _ | _ | (_ | _) | _ | _ | _ <;> rcases w with _ | _ | (_ | _) | _ | _ | _ <;>
    simp [compareJsonValues, sortKey, typeOrder, asF64, Prod.Lex.compare_def, compareLex, compareOn]
  all_goals rfl

lemma isLE_compareElements (sa : Bool) (v w : SortValue) :
    (compareElements f64 sa (toElement v) (toElement w)).isLE = true ↔
      if sa then sortKey f64.toRat v ≤ sortKey f64.toRat w
      else sortKey f64.toRat w ≤ sortKey f64.toRat v := by
  have hc : compareElements f64 sa (toElement v) (toElement w) =
      if sa then compareJsonValues f64 v w else (compareJsonValues f64 v w).swap := by
    cases sa <;> cases v <;> cases w <;> rfl
  rw [hc, compareJsonValues_eq, ← Std.OrientedOrd.eq_swap]
  cases sa
  · exact Ordering.isLE_iff_ne_gt.trans compare_le_iff_le
  · exact Ordering.isLE_iff_ne_gt.trans compare_le_iff_le

lemma isNull_of_le (h : sortKey tr v ≤ sortKey tr w) (hv : isNull v = true) : isNull w = true := by
  have hr : typeOrder v ≤ typeOrder w := Prod.Lex.monotone_fst _ _ h
  cases v <;> cases w <;> simp_all [isNull, typeOrder]

lemma sortKey_int_le_iff {n m : ℤ} :
    sortKey tr (.number (.int n)) ≤ sortKey tr (.number (.int m)) ↔ tr n ≤ tr m := by
  simp only [sortKey, typeOrder, Prod.Lex.toLex_le_toLex, lt_self_iff_false, false_or, true_and,
    le_refl, and_true]
  exact le_iff_lt_or_eq.symm

lemma sortKey_eq_of_le (hv : Sortable v) (hw : Sortable w)
    (h : sortKey f64.toRat v ≤ sortKey f64.toRat w) (he : ¬ exactKey v ≤ exactKey w) :
    sortKey f64.toRat v = sortKey f64.toRat w := by
  cases hv with
  | int n =>
    cases hw with
    | int m =>
      rw [exactKey, sortKey_int_le_iff, Int.cast_le] at he
      exact h.antisymm (sortKey_int_le_iff.mpr (f64.monotone (not_le.mp he).le))
    | _ => simp_all [exactKey, sortKey, typeOrder, Prod.Lex.toLex_le_toLex]
  | _ => cases hw <;> simp_all [exactKey, sortKey, typeOrder, Prod.Lex.toLex_le_toLex]

def SortCall.le (f64 : IntToF64) (call : SortCall) (v w : SortValue) : Bool :=
  (compareElements f64 call.sortAscending (toElement v) (toElement w)).isLE

def SortCall.sorted (f64 : IntToF64) (call : SortCall) : List SortValue :=
  call.items.mergeSort (call.le f64)

lemma sortArray_items : sortArray f64 cl.sortAscending cl.nullsFirst (.array cl.items) =
    .ok (cl.sorted f64) := by
  rw [sortArray, ← map_mergeSort (f := toElement) (r := cl.le f64) fun _ _ _ _ => rfl, map_map]
  have hid : (fun e : Option SortValue => e.getD .null) ∘ toElement = id := by
    funext v
    cases v <;> rfl
  rw [hid, map_id]
  rfl

namespace SortCall

lemma le_iff : cl.le f64 v w = true ↔
    if cl.sortAscending then sortKey f64.toRat v ≤ sortKey f64.toRat w
    else sortKey f64.toRat w ≤ sortKey f64.toRat v :=
  isLE_compareElements cl.sortAscending v w

lemma le_trans (a b c : SortValue) (hab : cl.le f64 a b = true) (hbc : cl.le f64 b c = true) :
    cl.le f64 a c = true := by
  rw [le_iff] at hab hbc ⊢
  split_ifs at hab hbc ⊢
  · exact hab.trans hbc
  · exact hbc.trans hab

lemma le_total (a b : SortValue) : (cl.le f64 a b || cl.le f64 b a) = true := by
  rw [Bool.or_eq_true, le_iff, le_iff]
  split_ifs
  · exact Std.le_total
  · exact Std.le_total

variable (f64) in
lemma le_of_sublist (h : [v, w] <+ cl.sorted f64) : cl.le f64 v w = true :=
  pairwise_iff_forall_sublist.mp (pairwise_mergeSort le_trans le_total cl.items) h

lemma mem_sorted : v ∈ cl.sorted f64 ↔ v ∈ cl.items := (mergeSort_perm _ _).mem_iff

lemma pairwise_below_iff : ((cl.sorted f64).filter (!isNull ·)).Pairwise cl.Below ↔
    cl.items.Pairwise fun v w => sortKey f64.toRat v = sortKey f64.toRat w → cl.Below v w := by
  simp only [pairwise_iff_forall_sublist]
  constructor
  · intro h v w hvw heq
    have hle : cl.le f64 v w = true := le_iff.mpr (by simp [heq])
    have hsub : [v, w] <+ cl.sorted f64 := pair_sublist_mergeSort le_trans le_total hle hvw
    cases hn : isNull v with
    | true =>
      have hw := isNull_of_le heq.le hn
      cases v <;> cases w <;> simp_all [isNull, Below]
    | false =>
      have hw : isNull w = false := by
        cases hw : isNull w with
        | false => rfl
        | true => rw [isNull_of_le heq.ge hw] at hn; cases hn
      have hf := hsub.filter (!isNull ·)
      rw [filter_cons_of_pos (by simp [hn]), filter_cons_of_pos (by simp [hw])] at hf
      exact h hf
  · intro h v w hvw
    have hsub := hvw.trans filter_sublist
    have hle := le_of_sublist f64 hsub
    have hm (x) (hx : x ∈ [v, w]) := cl.sortable x (mem_sorted.mp (hsub.subset hx))
    have hv := hm v mem_cons_self
    have hw := hm w (mem_cons_of_mem _ mem_cons_self)
    by_contra hb
    have heq : sortKey f64.toRat v = sortKey f64.toRat w := by
      rw [le_iff] at hle
      rw [Below] at hb
      split_ifs at hle hb
      · exact sortKey_eq_of_le hv hw hle hb
      · exact (sortKey_eq_of_le hw hv hle hb).symm
    have hge : cl.le f64 w v = true := le_iff.mpr (by simp [heq])
    exact hb (h (pair_sublist_of_mergeSort le_trans le_total hge hsub) heq)

variable (f64) in
lemma pairwise_nulls_iff : ((cl.sorted f64).Pairwise fun v w =>
      if cl.nullsFirst then isNull w → isNull v else isNull v → isNull w) ↔
    ((∃ v ∈ cl.items, isNull v = true) → (∃ v ∈ cl.items, isNull v = false) →
      cl.nullsFirst = !cl.sortAscending) := by
  simp only [pairwise_iff_forall_sublist]
  constructor
  · rintro h ⟨v, hv, hn⟩ ⟨w, hw, ho⟩
    have hne : v ≠ w := by
      rintro rfl
      rw [hn] at ho
      cases ho
    have hnt : ¬ sortKey f64.toRat v ≤ sortKey f64.toRat w := fun hle => by
      rw [isNull_of_le hle hn] at ho
      cases ho
    rcases sublist_or_of_mem (mem_sorted.mpr hv) (mem_sorted.mpr hw) hne with hvw | hwv
    · have hle := le_iff.mp (le_of_sublist f64 hvw)
      have hp := h hvw
      rw [hn, ho] at hp
      cases ha : cl.sortAscending with
      | true => rw [ha] at hle; exact absurd hle hnt
      | false => cases hf : cl.nullsFirst <;> simp [hf] at hp ⊢
    · have hle := le_iff.mp (le_of_sublist f64 hwv)
      have hp := h hwv
      rw [hn, ho] at hp
      cases ha : cl.sortAscending with
      | false => rw [ha] at hle; exact absurd hle hnt
      | true => cases hf : cl.nullsFirst <;> simp [hf] at hp ⊢
  · intro h v w hvw
    have hle := le_iff.mp (le_of_sublist f64 hvw)
    have hv := mem_sorted.mp (hvw.subset mem_cons_self)
    have hw := mem_sorted.mp (hvw.subset (mem_cons_of_mem _ mem_cons_self))
    have hvw' := fun hv' hw' => h ⟨v, hv, hv'⟩ ⟨w, hw, hw'⟩
    have hwv' := fun hw' hv' => h ⟨w, hw, hw'⟩ ⟨v, hv, hv'⟩
    cases ha : cl.sortAscending <;> cases hf : cl.nullsFirst
    all_goals
      simp only [ha, if_true, if_false, Bool.false_eq_true] at hle ⊢
      cases hnv : isNull v <;> cases hnw : isNull w <;> simp_all [isNull_of_le hle]

/-! ### Main result -/

/-- **The function sorts exactly if `nulls_first` is the opposite of `sort_ascending`, unless there
are no nulls or only nulls, and elements that compare as equal are in order already** -/
theorem sorts_iff : call.Sorts f64 ↔
    ((∃ v ∈ call.items, isNull v = true) → (∃ v ∈ call.items, isNull v = false) →
      call.nullsFirst = !call.sortAscending) ∧
    call.items.Pairwise fun v w => sortKey f64.toRat v = sortKey f64.toRat w → call.Below v w := by
  rw [← pairwise_nulls_iff f64, ← pairwise_below_iff, Sorts, sortArray_items]
  simp only [Except.ok.injEq, exists_eq_left']
  exact ⟨fun ⟨_, hb, hn⟩ => ⟨hn, hb⟩, fun ⟨hn, hb⟩ => ⟨mergeSort_perm _ _, hb, hn⟩⟩

end SortCall

def roundOne : IntToF64 where
  toRat n := (if n = 2 ^ 53 + 1 then 2 ^ 53 else n : ℤ)
  monotone a b hab := Int.cast_le.mpr (by split_ifs <;> omega)

def largeIntegers : SortCall where
  items := [.number (.int (2 ^ 53 + 1)), .number (.int (2 ^ 53))]
  sortable := by
    intro v hv
    simp only [mem_cons, not_mem_nil, or_false] at hv
    rcases hv with rfl | rfl
    · exact .int _ (by norm_num) (by norm_num)
    · exact .int _ (by norm_num) (by norm_num)
  sortAscending := true
  nullsFirst := true

theorem not_sorts : ¬ largeIntegers.Sorts roundOne := by
  rintro ⟨out, ho, -, hb, -⟩
  rw [sortArray_items] at ho
  cases ho
  have hp := (pairwise_cons.mp (SortCall.pairwise_below_iff.mp hb)).1 _ mem_cons_self rfl
  exact absurd (sortKey_int_le_iff.mp hp) (by norm_num)

end Rustice
