import Mathlib.Data.List.AList

/-!
# Maps with String Keys

What hash maps need beyond Mathlib's `AList`.
-/

namespace Rustice

open List AList

variable {β : Type} {m : AList fun _ : String => β} {key : String} {b : β} {key' : String}
  {γ : Type}

lemma mem_of_lookup (h : m.lookup key = some b) : key ∈ m :=
  lookup_isSome.mp (by rw [h]; rfl)

lemma lookup_insert_eq_some_iff {b' : β} : (m.insert key b).lookup key' = some b' ↔
    (key' = key ∧ b = b') ∨ (key' ≠ key ∧ m.lookup key' = some b') := by
  by_cases hk : key' = key
  · subst hk
    simp
  · simp [hk]

lemma lookup_erase_eq_some_iff :
    (m.erase key).lookup key' = some b ↔ key' ≠ key ∧ m.lookup key' = some b := by
  by_cases hk : key' = key
  · subst hk
    simp
  · simp [hk]

def retain {β : Type} (keep : String → β → Bool) (map : AList fun _ : String => β) :
    AList fun _ : String => β :=
  ⟨map.entries.filter fun e => keep e.1 e.2, map.nodupKeys.sublist filter_sublist⟩

lemma mem_lookup_retain {k : String → β → Bool} {id : String} :
    (retain k m).lookup id = some b ↔ m.lookup id = some b ∧ k id b = true := by
  rw [← Option.mem_def, ← Option.mem_def, mem_lookup_iff, mem_lookup_iff]
  exact mem_filter

lemma erase_eq_self_iff : m.erase key = m ↔ key ∉ m := by
  constructor
  · intro h hm
    rw [← h, mem_erase] at hm
    exact hm.1 rfl
  · intro h
    exact AList.ext (kerase_of_notMem_keys h)

lemma lookup_union (m₁ m₂ : AList fun _ : String => β) (key : String) :
    (m₁ ∪ m₂).lookup key = (m₁.lookup key).or (m₂.lookup key) := by
  by_cases hk : key ∈ m₁
  · obtain ⟨b, hb⟩ := Option.isSome_iff_exists.mp (lookup_isSome.mpr hk)
    rw [lookup_union_left hk, hb, Option.some_or]
  · rw [lookup_union_right hk, lookup_eq_none.mpr hk, Option.none_or]

lemma lookup_foldl_union (g : γ → AList fun _ : String => β) (key : String)
    (xs : List γ) (m : AList fun _ : String => β) : (xs.foldl (fun m x => g x ∪ m) m).lookup key =
      (xs.reverse.findSome? fun x => (g x).lookup key).or (m.lookup key) := by
  induction xs generalizing m with
  | nil => rfl
  | cons x xs ih =>
    rw [foldl_cons, ih, lookup_union, reverse_cons, findSome?_append,
      findSome?_singleton, Option.or_assoc]

lemma lookup_of_foldl_erase (f : γ → String) {l : List γ}
    (h : (l.foldl (fun m c => m.erase (f c)) m).lookup key = some b) : m.lookup key = some b := by
  induction l generalizing m with
  | nil => exact h
  | cons c l ih => exact (lookup_erase_eq_some_iff.mp (ih h)).2

end Rustice
