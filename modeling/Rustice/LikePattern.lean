import Mathlib.Data.List.Infix

/-!
# LIKE Patterns

In a pattern of `LIKE`, `%` stands for any text and `_` for any character; a backslash takes the
next character as it is.
-/

namespace Rustice

open List

inductive LikeToken where
  | any
  | one
  | char (c : Char)

def likeTokens : List Char → List LikeToken
  | [] => []
  | [c] => [if c = '%' then .any else if c = '_' then .one else .char c]
  | c :: d :: cs =>
    if c = '%' then .any :: likeTokens (d :: cs)
    else if c = '_' then .one :: likeTokens (d :: cs)
    else if c = '\\' then .char d :: likeTokens cs
    else .char c :: likeTokens (d :: cs)

def likeMatch : List LikeToken → List Char → Bool
  | [], s => s.isEmpty
  | .any :: ts, s => s.tails.any (likeMatch ts)
  | .one :: _, [] => false
  | .one :: ts, _ :: s => likeMatch ts s
  | .char _ :: _, [] => false
  | .char c :: ts, d :: s => c = d && likeMatch ts s

def LikeToken.fill (d : Char) : LikeToken → List Char
  | any => []
  | one => [d]
  | char c => [c]

def shortest (d : Char) (ts : List LikeToken) : List Char := ts.flatMap (LikeToken.fill d)

variable {c d : Char} {p q s : List Char}

lemma likeMatch_shortest (d : Char) (ts : List LikeToken) :
    likeMatch ts (shortest d ts) = true := by
  induction ts with
  | nil => rfl
  | cons t ts ih =>
    cases t with
    | any =>
      rw [likeMatch, any_eq_true]
      exact ⟨_, (mem_tails _ _).mpr suffix_rfl, ih⟩
    | one => exact ih
    | char c =>
      show (decide (c = c) && _) = true
      rw [decide_eq_true rfl]
      exact ih

def IsLiteral (c : Char) : Prop := c ≠ '%' ∧ c ≠ '_' ∧ c ≠ '\\'

instance (c : Char) : Decidable (IsLiteral c) := inferInstanceAs (Decidable (_ ∧ _ ∧ _))

lemma likeTokens_cons (h : IsLiteral c) : likeTokens (c :: p) = .char c :: likeTokens p := by
  obtain ⟨ha, ho, he⟩ := h
  cases p with
  | nil => simp [likeTokens, ha, ho]
  | cons d p => rw [likeTokens, if_neg ha, if_neg ho, if_neg he]

lemma likeTokens_any : likeTokens ('%' :: p) = .any :: likeTokens p := by
  cases p with
  | nil => rfl
  | cons d p => rw [likeTokens, if_pos rfl]

lemma likeTokens_one : likeTokens ('_' :: p) = .one :: likeTokens p := by
  cases p with
  | nil => rfl
  | cons d p => rw [likeTokens, if_neg (by decide), if_pos rfl]

lemma likeTokens_escape : likeTokens ('\\' :: d :: p) = .char d :: likeTokens p := by
  rw [likeTokens, if_neg (by decide), if_neg (by decide), if_pos rfl]

lemma shortest_cons (d : Char) (t : LikeToken) (ts : List LikeToken) :
    shortest d (t :: ts) = t.fill d ++ shortest d ts := flatMap_cons

lemma LikeToken.length_fill_le (d : Char) (t : LikeToken) : (t.fill d).length ≤ 1 := by
  cases t <;> simp [fill]

lemma length_shortest (d : Char) (q : List Char) : (shortest d (likeTokens q)).length ≤ q.length ∧
    (q.getLast? = some '%' → (shortest d (likeTokens q)).length < q.length) := by
  -- a part that is one character, before the rest of the pattern
  have hs : ∀ (c : Char) (t : LikeToken) (q : List Char), q ≠ [] →
      ((shortest d (likeTokens q)).length ≤ q.length ∧
        (q.getLast? = some '%' → (shortest d (likeTokens q)).length < q.length)) →
      (shortest d (t :: likeTokens q)).length ≤ (c :: q).length ∧ ((c :: q).getLast? = some '%' →
          (shortest d (t :: likeTokens q)).length < (c :: q).length) := by
    rintro c t q hne ⟨hle, hlt⟩
    have hf := t.length_fill_le d
    rw [shortest_cons, length_append, length_cons]
    refine ⟨by omega, fun hl => ?_⟩
    obtain ⟨e, q, rfl⟩ := exists_cons_of_ne_nil hne
    have := hlt (by rwa [getLast?_cons_cons] at hl)
    omega
  induction q using likeTokens.induct with
  | case1 => exact ⟨Nat.le_refl 0, fun h => by cases h⟩
  | case2 c =>
    refine ⟨?_, fun hl => ?_⟩
    · simpa [likeTokens, shortest] using LikeToken.length_fill_le d _
    · obtain rfl : c = '%' := Option.some.inj hl
      exact Nat.zero_lt_one
  | case3 e cs ih =>
    rw [likeTokens_any]
    exact hs '%' .any (e :: cs) (cons_ne_nil _ _) ih
  | case4 e cs _ ih =>
    rw [likeTokens_one]
    exact hs '_' .one (e :: cs) (cons_ne_nil _ _) ih
  | case5 e cs _ _ ih =>
    -- two characters of the pattern are one of the text
    rw [likeTokens_escape, shortest_cons, length_append, length_cons, length_cons]
    have hf := LikeToken.length_fill_le d (.char e)
    exact ⟨by omega, fun _ => by omega⟩
  | case6 c e cs ha ho he ih =>
    rw [likeTokens_cons ⟨ha, ho, he⟩]
    exact hs c (.char c) (e :: cs) (cons_ne_nil _ _) ih

lemma likeMatch_literal (h : ∀ c ∈ p, IsLiteral c) (s : List Char) :
    likeMatch (likeTokens (p ++ ['%'])) s = true ↔ p <+: s := by
  induction p generalizing s with
  | nil =>
    refine iff_of_true ?_ nil_prefix
    show s.tails.any (likeMatch []) = true
    rw [any_eq_true]
    exact ⟨[], (mem_tails _ _).mpr nil_suffix, rfl⟩
  | cons c p ih =>
    rw [forall_mem_cons] at h
    rw [cons_append, likeTokens_cons h.1]
    cases s with
    | nil => simp [likeMatch]
    | cons d s => simp only [likeMatch, Bool.and_eq_true, decide_eq_true_eq, ih h.2 s,
        cons_prefix_cons]

lemma isLiteral_of_prefix_shortest (h : p <+: shortest 'x' (likeTokens (p ++ ['%']))) :
    ∀ c ∈ p, IsLiteral c := by
  have hl : ∀ q : List Char, (shortest 'x' (likeTokens (q ++ ['%']))).length ≤ q.length := by
    intro q
    have hlt := (length_shortest 'x' (q ++ ['%'])).2 (by simp)
    rw [length_append, length_singleton] at hlt
    omega
  induction p with
  | nil => simp
  | cons c p ih =>
    rw [cons_append] at h
    by_cases hc : IsLiteral c
    · rw [likeTokens_cons hc, shortest_cons] at h
      exact forall_mem_cons.mpr ⟨hc, ih (cons_prefix_cons.mp h).2⟩
    · exfalso
      rw [IsLiteral, not_and_or, not_and_or, not_not, not_not, not_not] at hc
      rcases hc with rfl | rfl | rfl
      · rw [likeTokens_any, shortest_cons] at h
        have hle := h.length_le
        have := hl p
        rw [length_append, length_cons, LikeToken.fill, length_nil] at hle
        omega
      · rw [likeTokens_one, shortest_cons] at h
        exact absurd (cons_prefix_cons.mp h).1 (by decide)
      · match p with
        | [] => exact absurd (cons_prefix_cons.mp h).1 (by decide)
        | d :: p =>
          rw [cons_append, likeTokens_escape, shortest_cons] at h
          have hle := h.length_le
          have := hl p
          rw [length_append, length_cons, length_cons, LikeToken.fill, length_singleton] at hle
          omega

lemma likeMatch_prefix_iff :
    (∀ s, likeMatch (likeTokens (p ++ ['%'])) s = true ↔ p <+: s) ↔ ∀ c ∈ p, IsLiteral c := by
  refine ⟨fun h => ?_, likeMatch_literal⟩
  exact isLiteral_of_prefix_shortest ((h _).mp (likeMatch_shortest 'x' _))

lemma not_likeMatch_of_length (h : (shortest d (likeTokens q)).length < p.length) :
    ¬∀ s, likeMatch (likeTokens q) s = true ↔ p <+: s := by
  intro ha
  have := ((ha _).mp (likeMatch_shortest d _)).length_le
  omega

end Rustice
