import Mathlib.Data.List.Basic

/-!
# Three-Valued Conditions

A SQL condition evaluates to `TRUE`, `FALSE` or `NULL`; a filter, a join and a `CASE` branch accept
a row only on `TRUE`.
-/

namespace Rustice

open List

abbrev Truth := Option Bool

namespace Truth

variable {ts : List Truth}

def and : Truth → Truth → Truth
  | some false, _ => some false
  | _, some false => some false
  | some true, some true => some true
  | _, _ => none

def or : Truth → Truth → Truth
  | some true, _ => some true
  | _, some true => some true
  | some false, some false => some false
  | _, _ => none

lemma and_eq_true_iff {a b : Truth} :
    Truth.and a b = some true ↔ a = some true ∧ b = some true := by
  rcases a with _ | (_ | _) <;> rcases b with _ | (_ | _) <;> simp [Truth.and]

lemma foldl_and_eq_true_iff (ts : List Truth) (t : Truth) :
    ts.foldl Truth.and t = some true ↔ t = some true ∧ ∀ u ∈ ts, u = some true := by
  induction ts generalizing t with
  | nil => simp
  | cons u us ih => rw [foldl_cons, ih, and_eq_true_iff, forall_mem_cons, and_assoc]

lemma or_eq_true_iff {a b : Truth} : Truth.or a b = some true ↔ a = some true ∨ b = some true := by
  rcases a with _ | (_ | _) <;> rcases b with _ | (_ | _) <;> simp [Truth.or]

lemma foldl_or_eq_true_iff (ts : List Truth) (t : Truth) :
    ts.foldl Truth.or t = some true ↔ t = some true ∨ some true ∈ ts := by
  induction ts generalizing t with
  | nil => simp
  | cons u us ih =>
    rw [foldl_cons, ih, or_eq_true_iff, mem_cons, or_assoc]
    exact or_congr_right (or_congr_left eq_comm)

def not : Truth → Truth
  | some b => some !b
  | none => none

def anyOf (ts : List Truth) : Truth :=
  ts.foldr Truth.or (some false)

lemma anyOf_cons (t : Truth) (ts : List Truth) : anyOf (t :: ts) = Truth.or t (anyOf ts) := rfl

lemma or_false (t : Truth) : Truth.or t (some false) = t := by
  rcases t with _ | (_ | _) <;> rfl

lemma anyOf_eq_true_iff : anyOf ts = some true ↔ some true ∈ ts := by
  induction ts with
  | nil => simp [anyOf]
  | cons t ts ih =>
    rw [anyOf_cons, mem_cons, ← ih]
    rcases t with _ | (_ | _) <;> rcases anyOf ts with _ | (_ | _) <;> simp [Truth.or]

lemma anyOf_eq_false_iff : anyOf ts = some false ↔ ∀ t ∈ ts, t = some false := by
  induction ts with
  | nil => simp [anyOf]
  | cons t ts ih =>
    rw [anyOf_cons, forall_mem_cons, ← ih]
    rcases t with _ | (_ | _) <;> rcases anyOf ts with _ | (_ | _) <;> simp [Truth.or]

lemma anyOf_of_forall_eq {t : Truth} (hne : ts ≠ []) (h : ∀ u ∈ ts, u = t) : anyOf ts = t := by
  obtain ⟨u, hu⟩ := exists_mem_of_ne_nil ts hne
  have ht : t ∈ ts := h u hu ▸ hu
  cases ha : anyOf ts with
  | none =>
    rcases t with _ | (_ | _)
    · rfl
    · rw [anyOf_eq_false_iff.mpr h] at ha
      cases ha
    · rw [anyOf_eq_true_iff.mpr ht] at ha
      cases ha
  | some b =>
    cases b with
    | false => exact (anyOf_eq_false_iff.mp ha t ht).symm
    | true => exact h _ (anyOf_eq_true_iff.mp ha)

lemma anyOf_map_not_eq_iff (hne : ts ≠ []) :
    anyOf (ts.map Truth.not) = Truth.not (anyOf ts) ↔ ∀ t ∈ ts, ∀ u ∈ ts, t = u := by
  have hn : ∀ {t : Truth} {b : Bool}, Truth.not t = some b ↔ t = some !b := by
    intro t b
    rcases t with _ | (_ | _) <;> cases b <;> simp [Truth.not]
  constructor
  · intro h
    suffices hal : ∃ v, ∀ t ∈ ts, t = v by
      obtain ⟨v, hv⟩ := hal
      intro t ht u hu
      rw [hv t ht, hv u hu]
    cases ha : anyOf ts with
    | none =>
      rw [ha, Truth.not] at h
      refine ⟨none, fun t ht => ?_⟩
      rcases t with _ | (_ | _)
      · rfl
      · have hm : some true ∈ ts.map Truth.not := mem_map.mpr ⟨_, ht, rfl⟩
        rw [anyOf_eq_true_iff.mpr hm] at h
        cases h
      · rw [anyOf_eq_true_iff.mpr ht] at ha
        cases ha
    | some b =>
      cases b with
      | false => exact ⟨some false, anyOf_eq_false_iff.mp ha⟩
      | true =>
        rw [ha, Truth.not, Bool.not_true, anyOf_eq_false_iff, forall_mem_map] at h
        exact ⟨some true, fun t ht => hn.mp (h t ht)⟩
  · intro h
    obtain ⟨t, ht⟩ := exists_mem_of_ne_nil ts hne
    have hal : ∀ u ∈ ts, u = t := fun u hu => h u hu t ht
    rw [anyOf_of_forall_eq hne hal]
    refine anyOf_of_forall_eq (by simpa using hne) ?_
    rw [forall_mem_map]
    intro u hu
    rw [hal u hu]

end Truth

section Case

variable {β : Type*}

/-- The searched `CASE`. -/
def caseWhen : List (Truth × β) → β → β
  | [], otherwise => otherwise
  | (w, t) :: branches, otherwise =>
    if w = some true then t else caseWhen branches otherwise

@[simp] lemma caseWhen_nil (otherwise : β) : caseWhen [] otherwise = otherwise := rfl

lemma caseWhen_cons (w : Truth) (t : β) (bs : List (Truth × β)) (otherwise : β) :
    caseWhen ((w, t) :: bs) otherwise = if w = some true then t else caseWhen bs otherwise := rfl

lemma caseWhen_append (xs ys : List (Truth × β)) (o : β) :
    caseWhen (xs ++ ys) o = caseWhen xs (caseWhen ys o) := by
  induction xs with
  | nil => rfl
  | cons x xs ih =>
    obtain ⟨w, t⟩ := x
    rw [cons_append, caseWhen_cons, caseWhen_cons, ih]

lemma caseWhen_of_forall_ne {xs : List (Truth × β)} {otherwise : β}
    (h : ∀ x ∈ xs, x.1 ≠ some true) : caseWhen xs otherwise = otherwise := by
  induction xs with
  | nil => rfl
  | cons x xs ih =>
    obtain ⟨w, t⟩ := x
    rw [caseWhen_cons, if_neg (h _ mem_cons_self)]
    exact ih fun y hy => h y (mem_cons_of_mem _ hy)

lemma caseWhen_flatMap {γ : Type*} {b : γ → List (Truth × β)} (op : γ → Truth)
    (h : ∀ g, ∀ x ∈ b g, x.1 = op g) (gs : List γ) (otherwise : β) :
    caseWhen (gs.flatMap b) otherwise =
      match gs.find? fun g => op g == some true && !(b g).isEmpty with
      | some g => caseWhen (b g) otherwise
      | none => otherwise := by
  induction gs with
  | nil => rfl
  | cons g gs ih =>
    rw [flatMap_cons, caseWhen_append, ih, find?_cons]
    rcases hb : b g with - | ⟨x, xs⟩
    · simp
    · obtain ⟨w, t⟩ := x
      have hw : w = op g := h g (w, t) (by simp [hb])
      by_cases ho : op g = some true
      · simp [hw, ho, caseWhen_cons, hb]
      · have hne : ∀ x ∈ (w, t) :: xs, x.1 ≠ some true := by
          intro x hx
          rw [h g x (by rw [hb]; exact hx)]
          exact ho
        have ho' : (op g == some true) = false := by simpa using ho
        rw [caseWhen_of_forall_ne hne, ho', Bool.false_and]

end Case

end Rustice
