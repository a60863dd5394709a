import Mathlib.Data.List.AList
import Mathlib.Data.List.Induction

/-!
# Last Writes

Entries are written to a map one after the other, so a key holds what was last written to it.
-/

namespace Rustice

open List Option

variable {α β : Type} {p : α → Bool} {x : α} {xs : List α} {q : α → Bool}

def lastMatch (p : α → Bool) (xs : List α) : Option α := xs.reverse.find? p

lemma lastMatch_append (xs ys : List α) :
    lastMatch p (xs ++ ys) = (lastMatch p ys).or (lastMatch p xs) := by
  rw [lastMatch, lastMatch, lastMatch, reverse_append, find?_append]

lemma lastMatch_singleton_of_pos (hx : p x = true) : lastMatch p [x] = some x := by
  rw [lastMatch, reverse_singleton, find?_singleton, if_pos hx]

lemma lastMatch_eq_none_iff : lastMatch p xs = none ↔ ∀ x ∈ xs, p x = false := by simp [lastMatch]

lemma lastMatch_eq_some (h : lastMatch p xs = some x) : x ∈ xs ∧ p x = true :=
  ⟨mem_reverse.mp (mem_of_find?_eq_some h), find?_some h⟩

lemma lastMatch_congr (h : ∀ x ∈ xs, p x = q x) : lastMatch p xs = lastMatch q xs := by
  rw [lastMatch, lastMatch, ← head?_filter, ← head?_filter,
    filter_congr fun x hx => h x (mem_reverse.mp hx)]

lemma lastMatch_of_imp (hi : ∀ x, q x = true → p x = true)
    (h : lastMatch p xs = some x) (hx : q x = true) : lastMatch q xs = some x := by
  rw [lastMatch, find?_eq_some_iff_append] at h ⊢
  obtain ⟨-, l, r, hxs, hb⟩ := h
  refine ⟨hx, l, r, hxs, fun y hy => ?_⟩
  have hy := hb y hy
  cases hq : q y with
  | false => rfl
  | true =>
    rw [hi y hq] at hy
    cases hy

variable {columns cs : List (List α)} {n : ℕ}

def tableRow (columns : List (List α)) (i : ℕ) : List α :=
  columns.filterMap fun column => column[i]?

lemma mem_flatten_of_mem_tableRow {i : ℕ} (h : x ∈ tableRow cs i) : x ∈ cs.flatten := by
  obtain ⟨column, hc, hx⟩ := mem_filterMap.mp h
  exact mem_flatten_of_mem hc (mem_of_getElem? hx)

lemma exists_mem_tableRow (hn : ∀ c ∈ cs, c.length = n) (h : x ∈ cs.flatten) :
    ∃ i < n, x ∈ tableRow cs i := by
  obtain ⟨c, hc, hx⟩ := mem_flatten.mp h
  obtain ⟨i, hi⟩ := mem_iff_getElem?.mp hx
  obtain ⟨hlt, -⟩ := List.getElem?_eq_some_iff.mp hi
  exact ⟨i, hn c hc ▸ hlt, mem_filterMap.mpr ⟨c, hc, hi⟩⟩

lemma exists_lastMatch_tableRow
    (hn : ∀ c ∈ cs, c.length = n) (h : lastMatch p cs.flatten = some x) :
    ∃ i < n, lastMatch p (tableRow cs i) = some x := by
  induction cs using List.reverseRecOn with
  | nil => cases h
  | append_singleton cs d ih =>
    have hcol : d.length = n := hn d (by simp)
    have hr : ∀ i, tableRow (cs ++ [d]) i = tableRow cs i ++ d[i]?.toList := by
      intro i
      rw [tableRow, tableRow, filterMap_append, filterMap_cons, filterMap_nil]
      cases d[i]? with
      | none => rfl
      | some y => rfl
    rw [flatten_append, flatten_singleton, lastMatch_append] at h
    cases hl : lastMatch p d with
    | some y =>
      rw [hl, some_or, some.injEq] at h
      subst h
      obtain ⟨hm, hy⟩ := lastMatch_eq_some hl
      obtain ⟨i, hi⟩ := mem_iff_getElem?.mp hm
      obtain ⟨hlt, -⟩ := List.getElem?_eq_some_iff.mp hi
      refine ⟨i, hcol ▸ hlt, ?_⟩
      rw [hr, hi, toList_some, lastMatch_append, lastMatch_singleton_of_pos hy, some_or]
    | none =>
      rw [hl, none_or] at h
      obtain ⟨i, hi, hx⟩ := ih (fun d hc => hn d (mem_append_left _ hc)) h
      refine ⟨i, hi, ?_⟩
      have hnon : lastMatch p d[i]?.toList = none := by
        rw [lastMatch_eq_none_iff] at hl ⊢
        intro y hy
        exact hl y (mem_of_getElem? (mem_toList.mp hy))
      rw [hr, lastMatch_append, hnon, none_or, hx]

def entryFor (entry : α → Option (String × β)) (k : String) (x : α) : Bool :=
  (entry x).map Prod.fst = some k

def insertEntry (entry : α → Option (String × β)) (map : AList fun _ : String => β) (x : α) :
    AList fun _ : String => β :=
  match entry x with
  | some (k, v) => map.insert k v
  | none => map

def insertAll (entry : α → Option (String × β)) (map : AList fun _ : String => β) (xs : List α) :
    AList fun _ : String => β :=
  xs.foldl (insertEntry entry) map

lemma lookup_insertEntry (en : α → Option (String × β)) (m : AList fun _ : String => β)
    (x : α) (k : String) :
    (insertEntry en m x).lookup k =
      if entryFor en k x then (en x).map Prod.snd else m.lookup k := by
  rw [insertEntry, entryFor]
  cases hx : en x with
  | none => simp
  | some e =>
    by_cases hk : e.1 = k
    · simp [hk]
    · simp [hk, AList.lookup_insert_ne (Ne.symm hk)]

lemma lookup_insertAll (e : α → Option (String × β)) (m : AList fun _ : String => β)
    (xs : List α) (k : String) :
    (insertAll e m xs).lookup k = match lastMatch (entryFor e k) xs with
      | some x => (e x).map Prod.snd
      | none => m.lookup k := by
  rw [insertAll]
  induction xs generalizing m with
  | nil => rfl
  | cons x xs ih =>
    rw [foldl_cons, ih, ← singleton_append, lastMatch_append]
    cases lastMatch (entryFor e k) xs with
    | some y => rfl
    | none =>
      rw [none_or, lookup_insertEntry]
      cases hx : entryFor e k x with
      | false =>
        have hn : lastMatch (entryFor e k) [x] = none := by simpa [lastMatch_eq_none_iff] using hx
        rw [hn]
        rfl
      | true =>
        rw [lastMatch_singleton_of_pos hx]
        rfl

end Rustice
