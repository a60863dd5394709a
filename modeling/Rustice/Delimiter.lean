import Mathlib.Algebra.Order.BigOperators.Group.List
import Mathlib.Algebra.Order.Group.Nat
import Mathlib.Data.List.Lex
import Mathlib.Data.List.Sort
import Rustice.QuotedSplit

/-!
# Words and Delimiters

Two ways of writing a list of words as one.
-/

namespace Rustice

open List

universe u

variable {α : Type u} {t : α}

def terminated (terminator : α) (words : List (List α)) : List α :=
  words.flatMap (· ++ [terminator])

lemma append_cons_inj {u v x y : List α} (hu : t ∉ u) (hv : t ∉ v)
    (h : u ++ t :: x = v ++ t :: y) : u = v ∧ x = y := by
  induction u generalizing v with
  | nil =>
    cases v with
    | nil => exact ⟨rfl, (cons.inj h).2⟩
    | cons b v => exact absurd ((cons.inj h).1 ▸ mem_cons_self) hv
  | cons a u ih =>
    cases v with
    | nil => exact absurd ((cons.inj h).1 ▸ mem_cons_self) hu
    | cons b v =>
      obtain ⟨rfl, ht⟩ := cons.inj h
      obtain ⟨rfl, rfl⟩ := ih (not_mem_of_not_mem_cons hu)
        (not_mem_of_not_mem_cons hv) ht
      exact ⟨rfl, rfl⟩

lemma terminated_inj {xs ys : List (List α)} (hxs : ∀ x ∈ xs, t ∉ x)
    (hys : ∀ y ∈ ys, t ∉ y) (h : terminated t xs = terminated t ys) : xs = ys := by
  induction xs generalizing ys with
  | nil =>
    cases ys with
    | nil => rfl
    | cons y ys => simp [terminated] at h
  | cons x xs ih =>
    cases ys with
    | nil => simp [terminated] at h
    | cons y ys =>
      rw [forall_mem_cons] at hxs hys
      simp only [terminated, flatMap_cons, append_assoc, singleton_append] at h
      obtain ⟨rfl, ht⟩ := append_cons_inj hxs.1 hys.1 h
      rw [ih hxs.2 hys.2 ht]

def utf8Bytes (text : String) : List UInt8 := text.toList.flatMap String.utf8EncodeChar

def terminatedTexts (texts : List String) : List UInt8 := terminated 0xff (texts.map utf8Bytes)

lemma utf8Bytes_inj {s t : String} (h : utf8Bytes s = utf8Bytes t) : s = t := by
  have hb := congrArg List.toByteArray h
  have heq : ∀ tx : String, (utf8Bytes tx).toByteArray = tx.toByteArray := fun tx =>
    String.utf8Encode_toList
  rw [heq, heq] at hb
  exact String.toByteArray_inj.mp hb

lemma terminator_notMem_utf8Bytes (text : String) : 0xff ∉ utf8Bytes text := by
  rw [utf8Bytes, mem_flatMap]
  rintro ⟨c, -, hm⟩
  have hlt : ∀ n < 255, (0xff : UInt8) ≠ UInt8.ofNat n := by
    intro n hn h
    have hnt : 255 = n % 256 := congrArg UInt8.toNat h
    omega
  simp only [String.utf8EncodeChar] at hm
  split_ifs at hm <;> simp only [mem_cons, not_mem_nil, or_false] at hm
  · exact hlt _ (by omega) hm
  · rcases hm with h | h <;> exact hlt _ (by omega) h
  · rcases hm with h | h | h <;> exact hlt _ (by omega) h
  · rcases hm with h | h | h | h <;> exact hlt _ (by omega) h

lemma terminatedTexts_inj {xs ys : List String} (h : terminatedTexts xs = terminatedTexts ys) :
    xs = ys := by
  have hnm : ∀ (ts : List String), ∀ bytes ∈ ts.map utf8Bytes, 0xff ∉ bytes := by
    intro ts bytes hm
    obtain ⟨tx, -, rfl⟩ := mem_map.mp hm
    exact terminator_notMem_utf8Bytes tx
  have hmap := terminated_inj (hnm xs) (hnm ys) h
  exact map_injective_iff.mpr (fun s t => utf8Bytes_inj) hmap

variable [LinearOrder α] {ws : List (List α)} (s : α)

def sortedJoin (sep : α) (words : List (List α)) : List α :=
  [sep].intercalate (words.insertionSort (· ≤ ·))

/-- At each separator, what follows is smaller than what precedes. -/
def Indivisible (sep : α) (word : List α) : Prop :=
  word ≠ [] ∧ ∀ u v, word = u ++ sep :: v → v < u

@[simp] lemma sortedJoin_singleton (word : List α) : sortedJoin s [word] = word := by
  simp [sortedJoin]

lemma sortedJoin_pair {u v : List α} (h : u ≤ v) : sortedJoin s [u, v] = u ++ s :: v := by
  simp [sortedJoin, h, intercalate_cons_cons]

lemma le_intercalate_cons (w : List α) (ws : List (List α)) : w ≤ [s].intercalate (w :: ws) := by
  cases ws with
  | nil => simp
  | cons w' ws =>
    rw [intercalate_cons_cons, append_assoc]
    have hlt : w ++ [] < w ++ ([s] ++ [s].intercalate (w' :: ws)) :=
      List.Lex.append_left (· < ·) .nil w
    rw [append_nil] at hlt
    exact le_of_lt hlt

lemma length_lt_sortedJoin {w : List α} (hw : w ∈ ws)
    (hl : 2 ≤ ws.length) : w.length < (sortedJoin s ws).length := by
  have hp := perm_insertionSort (· ≤ ·) ws
  have hne : ws.insertionSort (· ≤ ·) ≠ [] := by
    intro hnil
    rw [hnil] at hp
    rw [← hp.length_eq] at hl
    simp at hl
  have hj := length_intercalate_succ s hne
  have hsum := le_sum_of_mem (mem_map_of_mem (f := List.length) (hp.mem_iff.mpr hw))
  have hc := hp.length_eq
  rw [sortedJoin]
  omega

lemma sortedJoin_determines_iff :
    (∀ ws', sortedJoin t ws' = sortedJoin t ws → ∀ w, w ∈ ws' ↔ w ∈ ws) ↔
      ∃ w, ws = [w] ∧ Indivisible t w := by
  constructor
  · intro h
    match ws with
    | [] =>
      have hm := (h [[]] rfl []).mp (mem_singleton_self _)
      exact absurd hm not_mem_nil
    | [w] =>
      refine ⟨w, rfl, ?_, ?_⟩
      · rintro rfl
        have hm := (h [] rfl []).mpr (mem_singleton_self _)
        exact absurd hm not_mem_nil
      · rintro u v rfl
        by_contra hle
        -- the two halves are another reading
        have hp := sortedJoin_pair t (not_lt.mp hle)
        have hm := (h [u, v] (by rw [hp, sortedJoin_singleton]) u).mp mem_cons_self
        have hl := congrArg List.length (mem_singleton.mp hm)
        rw [length_append, length_cons] at hl
        omega
    | a :: b :: ws =>
      -- the text itself is another reading
      have hm := (h [sortedJoin t (a :: b :: ws)] (sortedJoin_singleton t _) _).mp
        (mem_singleton_self _)
      have hl := length_lt_sortedJoin t hm (by simp)
      omega
  · rintro ⟨w, rfl, hne, hd⟩ ws' h
    rw [sortedJoin_singleton] at h
    have hper := perm_insertionSort (· ≤ ·) ws'
    have hs := pairwise_insertionSort (· ≤ ·) ws'
    rw [sortedJoin] at h
    intro x
    rw [← hper.mem_iff]
    match hL : ws'.insertionSort (· ≤ ·) with
    | [] => rw [hL] at h; exact absurd h.symm hne
    | [y] => rw [hL, intercalate_singleton] at h; rw [h]
    | y :: z :: r =>
      rw [hL, intercalate_cons_cons, append_assoc] at h
      rw [hL, pairwise_cons] at hs
      have hlt := hd y _ h.symm
      have hle := le_trans (hs.1 z mem_cons_self) (le_intercalate_cons t z r)
      exact absurd hlt (not_lt.mpr hle)

end Rustice
