import Mathlib.Algebra.GroupWithZero.Nat
import Mathlib.Data.List.Basic

/-!
# Splitting Outside Quotes

A list is cut at every separator that is not between two quotes.
-/

namespace Rustice

open List

variable {α : Type*} [DecidableEq α] (sep quote : α)

def splitOutside : Bool → List α → List (List α)
  | _, [] => [[]]
  | quoted, c :: cs =>
    if c = quote then (splitOutside (!quoted) cs).modifyHead (c :: ·)
    else if c = sep ∧ quoted = false then [] :: splitOutside quoted cs
    else (splitOutside quoted cs).modifyHead (c :: ·)

variable {sep quote} {parts : List (List α)}

lemma splitOutside_ne_nil (q : Bool) (cs : List α) : splitOutside sep quote q cs ≠ [] := by
  induction cs generalizing q with
  | nil => simp [splitOutside]
  | cons c cs ih =>
    rw [splitOutside]
    split_ifs
    · simpa [modifyHead_eq_nil_iff] using ih (!q)
    · simp
    · simpa [modifyHead_eq_nil_iff] using ih q

omit [DecidableEq α] in
lemma intercalate_modifyHead_cons {c : α} (h : parts ≠ []) :
    [sep].intercalate (parts.modifyHead (c :: ·)) = c :: [sep].intercalate parts := by
  obtain ⟨p, ps, rfl⟩ := exists_cons_of_ne_nil h
  cases ps with
  | nil => simp
  | cons q ps => simp [intercalate_cons_cons]

omit [DecidableEq α] in
lemma intercalate_nil_cons (h : parts ≠ []) :
    [sep].intercalate ([] :: parts) = sep :: [sep].intercalate parts := by
  obtain ⟨p, ps, rfl⟩ := exists_cons_of_ne_nil h
  simp [intercalate_cons_cons]

lemma intercalate_splitOutside (q : Bool) (cs : List α) :
    [sep].intercalate (splitOutside sep quote q cs) = cs := by
  induction cs generalizing q with
  | nil => simp [splitOutside]
  | cons c cs ih =>
    rw [splitOutside]
    split_ifs with hq hs
    · rw [intercalate_modifyHead_cons (splitOutside_ne_nil _ _), ih]
    · rw [intercalate_nil_cons (splitOutside_ne_nil _ _), ih, hs.1]
    · rw [intercalate_modifyHead_cons (splitOutside_ne_nil _ _), ih]

lemma splitOutside_append {w : List α} (hs : sep ∉ w) (hq : quote ∉ w) (cs : List α) :
    splitOutside sep quote false (w ++ cs) =
      (splitOutside sep quote false cs).modifyHead (w ++ ·) := by
  induction w with
  | nil =>
    rw [nil_append]
    cases splitOutside sep quote false cs <;> rfl
  | cons c w ih =>
    simp only [mem_cons, not_or] at hs hq
    rw [cons_append, splitOutside, if_neg (Ne.symm hq.1),
      if_neg fun h => hs.1 h.1.symm, ih hs.2 hq.2, modifyHead_modifyHead]
    rfl

lemma splitOutside_intercalate (hne : sep ≠ quote)
    (hp : parts ≠ []) (hs : ∀ p ∈ parts, sep ∉ p) (hq : ∀ p ∈ parts, quote ∉ p) :
    splitOutside sep quote false ([sep].intercalate parts) = parts := by
  induction parts with
  | nil => exact absurd rfl hp
  | cons p ps ih =>
    simp only [forall_mem_cons] at hs hq
    cases ps with
    | nil =>
      have h := splitOutside_append hs.1 hq.1 []
      simpa [splitOutside] using h
    | cons q ps =>
      rw [intercalate_cons_cons, append_assoc,
        splitOutside_append hs.1 hq.1, singleton_append, splitOutside,
        if_neg hne, if_pos ⟨rfl, rfl⟩, ih (cons_ne_nil _ _) hs.2 hq.2]
      simp

lemma separator_notMem_of_mem_splitOutside {cs p : List α} (hqu : quote ∉ cs)
    (hp : p ∈ splitOutside sep quote false cs) : sep ∉ p := by
  induction cs generalizing p with
  | nil =>
    simp only [splitOutside, mem_singleton] at hp
    simp [hp]
  | cons c cs ih =>
    simp only [mem_cons, not_or] at hqu
    rw [splitOutside, if_neg (Ne.symm hqu.1)] at hp
    split_ifs at hp with hsp
    · rcases mem_cons.mp hp with rfl | hp
      · simp
      · exact ih hqu.2 hp
    · obtain ⟨q, qs, hs⟩ := exists_cons_of_ne_nil (splitOutside_ne_nil false cs)
      rw [hs, modifyHead_cons] at hp
      have hq : sep ∉ q := ih hqu.2 (by rw [hs]; exact mem_cons_self)
      rcases mem_cons.mp hp with rfl | hp
      · simp only [mem_cons, not_or]
        exact ⟨fun h => hsp ⟨h.symm, rfl⟩, hq⟩
      · exact ih hqu.2 (by rw [hs]; exact mem_cons_of_mem _ hp)

omit [DecidableEq α] in
lemma mem_intercalate {c : α} (h : c ∈ [sep].intercalate parts) : c = sep ∨ ∃ p ∈ parts, c ∈ p := by
  induction parts with
  | nil => simp at h
  | cons p ps ih =>
    cases ps with
    | nil => exact .inr ⟨p, mem_singleton_self p, by simpa using h⟩
    | cons q ps =>
      rw [intercalate_cons_cons, append_assoc, mem_append, mem_append, mem_singleton] at h
      rcases h with h | h | h
      · exact .inr ⟨p, mem_cons_self, h⟩
      · exact .inl h
      · rcases ih h with h | ⟨r, hr, h⟩
        · exact .inl h
        · exact .inr ⟨r, mem_cons_of_mem _ hr, h⟩

lemma quote_notMem_of_splitOutside (hne : sep ≠ quote) {cs : List α}
    (h : ∀ p ∈ splitOutside sep quote false cs, quote ∉ p) : quote ∉ cs := by
  intro hm
  have hj : [sep].intercalate (splitOutside sep quote false cs) = cs :=
    intercalate_splitOutside false cs
  rw [← hj] at hm
  rcases mem_intercalate hm with heq | ⟨p, hp, hq⟩
  · exact hne heq.symm
  · exact h p hp hq

omit [DecidableEq α] in
lemma length_intercalate_succ (sep : α) (h : parts ≠ []) :
    ([sep].intercalate parts).length + 1 = (parts.map List.length).sum + parts.length := by
  induction parts with
  | nil => exact absurd rfl h
  | cons p ps ih =>
    cases ps with
    | nil => simp
    | cons q ps =>
      have hr := ih (cons_ne_nil q ps)
      rw [intercalate_cons_cons]
      simp only [length_append, map_cons, sum_cons, length_cons, length_nil] at hr ⊢
      omega

end Rustice
