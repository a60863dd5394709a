import Rustice.Fallible

/-!
# Columnar Values

An argument of a function over a batch is a scalar, which stands for the same value in every row, or
an array with one value for each row.
-/

namespace Rustice

open List

lemma zip_isPrefix {α β : Type} {l l' : List α} {m m' : List β} (h : l <+: l') (h' : m <+: m') :
    l.zip m <+: l'.zip m' := by
  induction l generalizing l' m m' with
  | nil => exact nil_prefix
  | cons a l ih =>
    obtain ⟨r, rfl⟩ := h
    cases m with
    | nil => exact nil_prefix
    | cons b m =>
      obtain ⟨s, rfl⟩ := h'
      exact (prefix_cons_inj _).mpr (ih ⟨r, rfl⟩ ⟨s, rfl⟩)

structure ArrowEntry (α : Type) where
  isValid : Bool
  value : α

inductive Columnar (α : Type) where
  | scalar (value : α)
  | array (values : List α)

namespace Columnar

variable {α : Type} {n : ℕ} {arg : Columnar α} {i : ℕ}

def intoArray (n : ℕ) : Columnar α → List α
  | scalar value => List.replicate n value
  | array values => values

def toArray : Columnar α → List α
  | scalar value => [value]
  | array values => values

def len? : Columnar α → Option ℕ
  | scalar _ => none
  | array values => some values.length

def HasRows (n : ℕ) : Columnar α → Prop
  | scalar _ => True
  | array values => values.length = n

def map {β : Type} (f : α → β) : Columnar α → Columnar β
  | scalar value => scalar (f value)
  | array values => array (values.map f)

def ofRows (scalars : Bool) (rows : List α) : Columnar α :=
  match scalars, rows with
  | true, [row] => scalar row
  | _, rows => array rows

def row? (i : ℕ) : Columnar α → Option α
  | scalar value => some value
  | array values => values[i]?

lemma length_intoArray (h : arg.HasRows n) : (arg.intoArray n).length = n := by
  cases arg with
  | scalar value => exact length_replicate
  | array values => exact h

lemma getElem?_intoArray (arg : Columnar α) (hi : i < n) : (arg.intoArray n)[i]? = arg.row? i := by
  cases arg with
  | scalar value => exact getElem?_replicate_of_lt hi
  | array values => rfl

lemma toArray_isPrefix (h : arg.HasRows n) (hn : 1 ≤ n) : arg.toArray <+: arg.intoArray n := by
  cases arg with
  | scalar v =>
    obtain ⟨m, rfl⟩ := Nat.exists_eq_add_of_le' hn
    exact ⟨List.replicate m v, rfl⟩
  | array values => exact prefix_rfl

lemma eq_of_len? {m : ℕ} (h : arg.HasRows n) (hlen : arg.len? = some m) : m = n := by
  cases arg with
  | scalar value => cases hlen
  | array values =>
    cases hlen
    exact h

lemma length_toArray (h : arg.HasRows n) :
    arg.toArray.length = if arg.len? = none then 1 else n := by
  cases arg with
  | scalar value => rfl
  | array values => exact h

lemma getElem?_toArray (hi : i < arg.toArray.length) : arg.toArray[i]? = arg.row? i := by
  cases arg with
  | scalar value =>
    obtain rfl : i = 0 := Nat.lt_one_iff.mp hi
    rfl
  | array values => rfl

lemma exists_row? (h : arg.HasRows n) (hi : i < n) : ∃ value, arg.row? i = some value := by
  cases arg with
  | scalar value => exact ⟨value, rfl⟩
  | array values =>
    rw [HasRows] at h
    exact ⟨_, getElem?_eq_getElem (h.symm ▸ hi)⟩

lemma exists_getD_toArray_map {β : Type} (f : α → β) (arg : Columnar α)
    (hi : i < arg.toArray.length) :
    ∃ v, arg.row? i = some v ∧ (arg.map fun v => some (f v)).toArray.getD i none = some (f v) := by
  cases arg with
  | scalar v =>
    obtain rfl : i = 0 := Nat.lt_one_iff.mp hi
    exact ⟨v, rfl, rfl⟩
  | array vs =>
    have hr : vs[i]? = some vs[i] := getElem?_eq_getElem hi
    refine ⟨vs[i], hr, ?_⟩
    rw [map, toArray, getD_eq_getElem?_getD, getElem?_map, hr]
    rfl

lemma toArray_map {β : Type} (f : α → β) (arg : Columnar α) :
    (arg.map f).toArray = arg.toArray.map f := by
  cases arg with
  | scalar value => rfl
  | array values => rfl

lemma length_toArray_eq (arg : Columnar α) : arg.toArray.length = arg.len?.getD 1 := by
  cases arg with
  | scalar value => rfl
  | array values => rfl

lemma row?_eq_of_len? (h : arg.len? = none) (i j : ℕ) : arg.row? i = arg.row? j := by
  cases arg with
  | scalar value => rfl
  | array values => cases h

lemma ofRows_false (rows : List α) : ofRows false rows = array rows := rfl

lemma exists_ofRows_true {rs : List α} (h : rs.length = 1) :
    ∃ row, rs = [row] ∧ ofRows true rs = scalar row := by
  obtain ⟨row, rfl⟩ := length_eq_one_iff.mp h
  exact ⟨row, rfl, rfl⟩

end Columnar

/-- All columns, all scalars, or one row. -/
def UniformLens (n : ℕ) (lens : List (Option ℕ)) : Prop :=
  n = 1 ∨ (∀ len ∈ lens, len = none) ∨ ∀ len ∈ lens, len ≠ none

lemma uniformLens_iff {n : ℕ} {l : Option ℕ} {ls : List (Option ℕ)}
    (hr : ∀ l' ∈ l :: ls, l' = none ∨ l' = some n) :
    UniformLens n (l :: ls) ↔ ∀ l' ∈ ls, l'.getD 1 = l.getD 1 := by
  constructor
  · rintro (rfl | hsc | hc) l' hl'
    · have ho : ∀ l' ∈ l :: ls, l'.getD 1 = 1 := fun l' hl' => by
        obtain rfl | rfl := hr l' hl' <;> rfl
      rw [ho l' (mem_cons_of_mem _ hl'), ho l mem_cons_self]
    · rw [hsc l' (mem_cons_of_mem _ hl'), hsc l mem_cons_self]
    · have hs : ∀ l' ∈ l :: ls, l' = some n := fun l' hl' =>
        (hr l' hl').resolve_left (hc l' hl')
      rw [hs l' (mem_cons_of_mem _ hl'), hs l mem_cons_self]
  · intro heq
    by_cases hn : n = 1
    · exact .inl hn
    refine .inr ?_
    obtain rfl | rfl := hr l mem_cons_self
    · refine .inl (forall_mem_cons.mpr ⟨rfl, fun l' hl' => ?_⟩)
      refine (hr l' (mem_cons_of_mem _ hl')).resolve_right fun hs => hn ?_
      have ho := heq l' hl'
      rwa [hs] at ho
    · refine .inr (forall_mem_cons.mpr ⟨Option.some_ne_none n, fun l' hl' hnon => hn ?_⟩)
      have ho := heq l' hl'
      rw [hnon] at ho
      exact ho.symm

section Rows

variable {α β γ ε : Type}

def bothM (f : α → β → Except ε γ) : Option α → Option β → Except ε (Option γ)
  | some x, some y => (f x y).map some
  | _, _ => .ok none

def zipRows (f : α → β → Except ε γ) (xs : List (Option α)) (ys : List (Option β)) :
    Except ε (List (Option γ)) :=
  (xs.zip ys).mapM fun row => bothM f row.1 row.2

end Rows

end Rustice
