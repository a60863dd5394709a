import Mathlib.Algebra.GroupWithZero.Nat
import Mathlib.Algebra.Order.BigOperators.Group.List
import Mathlib.Algebra.Order.Group.Nat

/-!
# Texts Joined by a Delimiter

A text is a list over an arbitrary alphabet.
-/

namespace Rustice

open List

universe u

variable {α : Type u} {sep : List α} {texts : List (List α)} {parts : List (List (List α))}

lemma length_intercalate (sep : List α) (texts : List (List α)) : (sep.intercalate texts).length =
    (texts.map List.length).sum + (texts.length - 1) * sep.length := by
  induction texts with
  | nil => simp
  | cons t ts ih =>
    cases ts with
    | nil => simp
    | cons u us =>
      rw [intercalate_cons_cons, length_append, length_append, ih]
      simp only [map_cons, sum_cons, length_cons, Nat.add_sub_cancel, Nat.add_mul, Nat.one_mul]
      omega

lemma nil_intercalate (texts : List (List α)) : [].intercalate texts = texts.flatten := by
  induction texts with
  | nil => rfl
  | cons t ts ih =>
    cases ts with
    | nil => simp
    | cons u us => rw [intercalate_cons_cons, ih]; simp

lemma intercalate_cons_ne_nil {t : List α} (ts : List (List α)) (ht : t ≠ []) :
    sep.intercalate (t :: ts) ≠ [] := by
  cases ts with
  | nil => simpa using ht
  | cons u us => simp [intercalate_cons_cons, ht]

lemma intercalate_append {xs ys : List (List α)} (hx : xs ≠ []) (hy : ys ≠ []) :
    sep.intercalate (xs ++ ys) = sep.intercalate xs ++ sep ++ sep.intercalate ys := by
  induction xs with
  | nil => exact absurd rfl hx
  | cons x xs ih =>
    obtain ⟨y, ys, rfl⟩ := exists_cons_of_ne_nil hy
    cases xs with
    | nil => simp [intercalate_cons_cons]
    | cons z zs =>
      rw [cons_append, cons_append, intercalate_cons_cons,
        ← cons_append, ih (cons_ne_nil _ _), intercalate_cons_cons]
      simp only [append_assoc]

lemma intercalate_map_intercalate (h : ∀ p ∈ parts, p ≠ []) :
    sep.intercalate (parts.map sep.intercalate) = sep.intercalate parts.flatten := by
  induction parts with
  | nil => rfl
  | cons p ps ih =>
    rw [forall_mem_cons] at h
    cases ps with
    | nil => simp
    | cons q qs =>
      have hne : (q :: qs).flatten ≠ [] := by
        obtain ⟨t, ts, hq⟩ := exists_cons_of_ne_nil (h.2 q mem_cons_self)
        simp [hq]
      rw [flatten_cons, intercalate_append h.1 hne, ← ih h.2, map_cons, map_cons,
        intercalate_cons_cons]

def pushText (sep : List α) : Option (List α) → List α → Option (List α)
  | none, text => some text
  | some result, text => some ((if result.isEmpty then result else result ++ sep) ++ text)

def joinAfterEmpty (sep : List α) (texts : List (List α)) : List α :=
  sep.intercalate (texts.dropWhile isEmpty)

/-- The texts that a join without leading empty texts shows. -/
def shown (texts : List (List α)) : List (List α) :=
  if texts.dropWhile isEmpty = [] then [[]] else texts.dropWhile isEmpty

lemma foldl_pushText_of_ne_nil {r : List α} (h : r ≠ []) :
    texts.foldl (pushText sep) (some r) = some (sep.intercalate (r :: texts)) := by
  induction texts generalizing r with
  | nil => simp
  | cons t ts ih =>
    have hne : r ++ sep ++ t ≠ [] := by simp [h]
    rw [foldl_cons, pushText, if_neg (by simpa using h), ih hne, intercalate_cons_cons]
    cases ts with
    | nil => simp
    | cons u us => simp [intercalate_cons_cons]

lemma foldl_pushText_nil :
    texts.foldl (pushText sep) (some []) = some (joinAfterEmpty sep texts) := by
  induction texts with
  | nil => rfl
  | cons t ts ih =>
    rw [foldl_cons, pushText, joinAfterEmpty]
    cases t with
    | nil => exact ih
    | cons c cs => exact foldl_pushText_of_ne_nil (cons_ne_nil c cs)

lemma foldl_pushText : texts.foldl (pushText sep) none =
    if texts = [] then none else some (joinAfterEmpty sep texts) := by
  cases texts with
  | nil => rfl
  | cons t ts =>
    rw [if_neg (cons_ne_nil t ts), foldl_cons, pushText]
    cases t with
    | nil => exact foldl_pushText_nil
    | cons c cs => exact foldl_pushText_of_ne_nil (cons_ne_nil c cs)

variable {o : List α}

lemma intercalate_shown : sep.intercalate (shown texts) = joinAfterEmpty sep texts := by
  rw [shown, joinAfterEmpty]
  split_ifs with h
  · simp [h]
  · rfl

lemma shown_eq (texts : List (List α)) :
    shown texts = [[]] ∨ ∃ c t ts, shown texts = (c :: t) :: ts := by
  induction texts with
  | nil => exact .inl rfl
  | cons t ts ih =>
    cases t with
    | nil => exact ih
    | cons c t => exact .inr ⟨c, t, ts, rfl⟩

lemma shown_ne_nil (texts : List (List α)) : shown texts ≠ [] := by
  rcases shown_eq texts with h | ⟨c, t, ts, h⟩ <;> simp [h]

lemma mem_of_mem_shown {t : List α} (h : t ∈ shown texts) : t = [] ∨ t ∈ texts := by
  rw [shown] at h
  split_ifs at h
  · exact .inl (mem_singleton.mp h)
  · exact .inr ((dropWhile_suffix _).subset h)

lemma sum_length_dropWhile_isEmpty (texts : List (List α)) :
    ((texts.dropWhile isEmpty).map List.length).sum = (texts.map List.length).sum := by
  induction texts with
  | nil => rfl
  | cons t ts ih =>
    cases t with
    | nil => simpa using ih
    | cons c cs => rfl

lemma length_joinAfterEmpty_le (sep : List α) (texts : List (List α)) :
    (joinAfterEmpty sep texts).length ≤ (sep.intercalate texts).length := by
  rw [joinAfterEmpty, length_intercalate, sum_length_dropWhile_isEmpty, length_intercalate]
  have hle : (texts.dropWhile isEmpty).length ≤ texts.length :=
    (dropWhile_suffix _).length_le
  exact Nat.add_le_add_left (Nat.mul_le_mul_right _ (Nat.sub_le_sub_right hle 1)) _

lemma length_joinAfterEmpty_eq_iff (hs : sep ≠ []) :
    (joinAfterEmpty sep texts).length = (sep.intercalate texts).length ↔
      texts.length ≤ 1 ∨ texts.head? ≠ some [] := by
  rw [joinAfterEmpty, length_intercalate, sum_length_dropWhile_isEmpty, length_intercalate]
  have hpos : 0 < sep.length := length_pos_iff.mpr hs
  rw [Nat.add_left_cancel_iff, Nat.mul_left_inj hpos.ne']
  cases texts with
  | nil => simp
  | cons t ts =>
    cases t with
    | cons c cs => simp
    | nil =>
      have hle : (ts.dropWhile isEmpty).length ≤ ts.length :=
        (dropWhile_suffix _).length_le
      simp only [dropWhile_cons, isEmpty_nil, if_true, length_cons,
        head?_cons, ne_eq, not_true_eq_false, or_false, Nat.add_sub_cancel]
      omega

lemma joinAfterEmpty_of_head (h : texts.head? ≠ some []) :
    joinAfterEmpty sep texts = sep.intercalate texts := by
  cases texts with
  | nil => rfl
  | cons t ts =>
    cases t with
    | nil => exact absurd rfl h
    | cons c cs => rfl

lemma joinAfterEmpty_parts : joinAfterEmpty sep (parts.map (joinAfterEmpty sep)) =
    sep.intercalate (shown (parts.flatMap shown)) := by
  induction parts with
  | nil => rfl
  | cons p ps ih =>
    rcases shown_eq p with h | ⟨c, t, ts, h⟩
    · have hp : joinAfterEmpty sep p = [] := by rw [← intercalate_shown, h, intercalate_singleton]
      rw [map_cons, hp, flatMap_cons, h]
      exact ih
    · have hj : (p :: ps).map (joinAfterEmpty sep) = ((p :: ps).map shown).map sep.intercalate := by
        simp [intercalate_shown]
      have hh : (((p :: ps).map shown).map sep.intercalate).head? ≠ some [] := by
        rw [map_cons, h]
        exact fun hh => intercalate_cons_ne_nil ts (cons_ne_nil _ _) (Option.some.inj hh)
      have hs : shown ((p :: ps).flatMap shown) = (p :: ps).flatMap shown := by
        rw [flatMap_cons, h]
        rfl
      rw [hj, joinAfterEmpty_of_head hh, hs, intercalate_map_intercalate, flatMap_def]
      simp [shown_ne_nil]

lemma joinAfterEmpty_of_length_le (h : texts.length ≤ 1) :
    joinAfterEmpty sep texts = sep.intercalate texts := by
  match texts, h with
  | [], _ => rfl
  | [[]], _ => rfl
  | [c :: cs], _ => rfl

lemma nil_joinAfterEmpty (texts : List (List α)) : joinAfterEmpty [] texts = texts.flatten := by
  rw [joinAfterEmpty, nil_intercalate]
  induction texts with
  | nil => rfl
  | cons t ts ih =>
    cases t with
    | nil => exact ih
    | cons c cs => rfl

lemma lengths_eq_of_parts (hpar : ∀ p ∈ parts, p ≠ []) (ho : o = sep ∨ o = []) (hs : sep ≠ [])
    (heq : joinAfterEmpty o (parts.map (joinAfterEmpty sep)) = sep.intercalate parts.flatten) :
    (∀ p ∈ parts, p.length ≤ 1 ∨ p.head? ≠ some []) ∧ (parts.length ≤ 1 ∨
        o = sep ∧ (parts.map (joinAfterEmpty sep)).head? ≠ some []) := by
  have hle : ∀ p ∈ parts, (joinAfterEmpty sep p).length ≤ (sep.intercalate p).length :=
    fun p _ => length_joinAfterEmpty_le sep p
  have hl := congrArg List.length heq
  have hot := length_joinAfterEmpty_le o (parts.map (joinAfterEmpty sep))
  have hsum := sum_le_sum hle
  rw [← intercalate_map_intercalate hpar, length_intercalate] at hl
  have he := length_intercalate o (parts.map (joinAfterEmpty sep))
  simp only [map_map, length_map] at hl he
  have hlen : (parts.length - 1) * o.length ≤ (parts.length - 1) * sep.length := by
    rcases ho with rfl | rfl
    · exact Nat.le_refl _
    · simp
  simp only [Function.comp_def] at hl he
  constructor
  · intro p hp
    rw [← length_joinAfterEmpty_eq_iff hs]
    refine (hle p hp).eq_of_not_lt fun hlt => ?_
    have hsm := sum_lt_sum _ _ hle ⟨p, hp, hlt⟩
    omega
  · by_cases hon : parts.length ≤ 1
    · exact .inl hon
    have hout : o = sep := by
      refine ho.resolve_right ?_
      rintro rfl
      have hpos : 0 < (parts.length - 1) * sep.length :=
        Nat.mul_pos (by omega) (length_pos_iff.mpr hs)
      simp only [length_nil, Nat.mul_zero] at he
      omega
    subst hout
    have he' : (joinAfterEmpty o (parts.map (joinAfterEmpty o))).length =
        (o.intercalate (parts.map (joinAfterEmpty o))).length := by omega
    rw [length_joinAfterEmpty_eq_iff hs, length_map] at he'
    exact .inr ⟨rfl, he'.resolve_left hon⟩

lemma joinAfterEmpty_parts_of_length_le
    (hpa : ∀ p ∈ parts, p ≠ []) (ho : parts.flatten.length ≤ 1) :
    joinAfterEmpty o (parts.map (joinAfterEmpty sep)) = sep.intercalate parts.flatten := by
  match parts, hpa, ho with
  | [], _, _ => rfl
  | [p], _, ho =>
    rw [flatten_singleton] at ho ⊢
    rw [map_singleton, joinAfterEmpty_of_length_le (Nat.le_refl _),
      joinAfterEmpty_of_length_le ho, intercalate_singleton]
  | p :: q :: ps, hpa, ho =>
    have hp := length_pos_iff.mpr (hpa p mem_cons_self)
    have hq := length_pos_iff.mpr (hpa q (by simp))
    simp only [flatten_cons, length_append] at ho
    omega

lemma joinAfterEmpty_parts_of_head (hpa : ∀ p ∈ parts, p ≠ []) (hh : parts.flatten.head? ≠ some [])
    (hi : ∀ p ∈ parts, p.length ≤ 1 ∨ p.head? ≠ some []) (hb : o = sep ∨ parts.length ≤ 1) :
    joinAfterEmpty o (parts.map (joinAfterEmpty sep)) = sep.intercalate parts.flatten := by
  have hmap : parts.map (joinAfterEmpty sep) = parts.map sep.intercalate := by
    refine map_congr_left fun p hp => ?_
    exact (hi p hp).elim joinAfterEmpty_of_length_le joinAfterEmpty_of_head
  have hf : (parts.map sep.intercalate).head? ≠ some [] := by
    match parts, hpa, hh with
    | [], _, _ => simp
    | [] :: _, hpa, _ => exact absurd rfl (hpa [] mem_cons_self)
    | (t :: ts) :: _, _, hh =>
      have ht : t ≠ [] := by simpa using hh
      simpa using intercalate_cons_ne_nil ts ht
  rw [hmap, joinAfterEmpty_of_head hf, ← intercalate_map_intercalate hpa]
  rcases hb with rfl | hl
  · rfl
  · match parts, hl with
    | [], _ => rfl
    | [p], _ => rw [map_singleton, intercalate_singleton, intercalate_singleton]

lemma joinAfterEmpty_parts_eq_iff (hp : ∀ p ∈ parts, p ≠ []) (hout : o = sep ∨ o = []) :
    joinAfterEmpty o (parts.map (joinAfterEmpty sep)) = sep.intercalate parts.flatten ↔
      sep = [] ∨ parts.flatten.length ≤ 1 ∨
        (parts.flatten.head? ≠ some [] ∧ (∀ p ∈ parts, p.length ≤ 1 ∨ p.head? ≠ some []) ∧
          (o = sep ∨ parts.length ≤ 1)) := by
  constructor
  · intro heq
    by_cases hs : sep = []
    · exact .inl hs
    by_cases ho : parts.flatten.length ≤ 1
    · exact .inr (.inl ho)
    refine .inr (.inr ?_)
    obtain ⟨hi, hb⟩ := lengths_eq_of_parts hp hout hs heq
    refine ⟨?_, hi, hb.elim .inr fun h => .inl h.1⟩
    -- An empty first text is a part of its own, which is then the only part.
    obtain ⟨p, ps, rfl⟩ : ∃ p ps, parts = p :: ps :=
      exists_cons_of_ne_nil (by rintro rfl; simp at ho)
    obtain ⟨t, ts, rfl⟩ := exists_cons_of_ne_nil (hp p mem_cons_self)
    rintro hh
    obtain rfl : t = [] := by simpa using hh
    obtain rfl : ts = [] := by simpa using hi _ mem_cons_self
    rcases hb with hl | ⟨-, hf⟩
    · obtain rfl : ps = [] := by simpa using hl
      simp at ho
    · exact hf rfl
  · rintro (rfl | ho | ⟨hh, hi, hb⟩)
    · obtain rfl : o = [] := hout.elim id id
      rw [nil_joinAfterEmpty, nil_intercalate, flatten_flatten]
      exact congrArg flatten (map_congr_left fun p _ => nil_joinAfterEmpty p)
    · exact joinAfterEmpty_parts_of_length_le hp ho
    · exact joinAfterEmpty_parts_of_head hp hh hi hb

variable [DecidableEq α] {text t : List α}

/-- `skip` symbols of a delimiter are still to be passed over. -/
def splitFrom (sep : List α) : ℕ → List α → List (List α)
  | _, [] => [[]]
  | skip + 1, _ :: text => splitFrom sep skip text
  | 0, c :: text =>
    if sep <+: c :: text then [] :: splitFrom sep (sep.length - 1) text
    else (splitFrom sep 0 text).modifyHead (c :: ·)

def splitAtDelimiter (sep text : List α) : List (List α) :=
  splitFrom sep 0 text

lemma splitFrom_ne_nil (sep : List α) (s : ℕ) (t : List α) : splitFrom sep s t ≠ [] := by
  induction t generalizing s with
  | nil => simp [splitFrom]
  | cons c t ih =>
    cases s with
    | succ s => exact ih s
    | zero =>
      rw [splitFrom]
      split_ifs
      · exact cons_ne_nil _ _
      · simpa using ih 0

lemma splitFrom_length_append (sep s t : List α) :
    splitFrom sep s.length (s ++ t) = splitFrom sep 0 t := by
  induction s with
  | nil => rfl
  | cons c s ih => exact ih

lemma splitAtDelimiter_append {s : List α} (hs : sep ≠ [])
    (h : ¬sep <:+: (s ++ sep).dropLast) (t : List α) :
    splitAtDelimiter sep (s ++ sep ++ t) = s :: splitAtDelimiter sep t := by
  induction s with
  | nil =>
    obtain ⟨c, sep', rfl⟩ := exists_cons_of_ne_nil hs
    rw [nil_append, splitAtDelimiter, cons_append, splitFrom, if_pos ⟨t, rfl⟩]
    exact congrArg _ (splitFrom_length_append _ sep' t)
  | cons c s ih =>
    have hne : s ++ sep ≠ [] := by simp [hs]
    rw [cons_append, dropLast_cons_of_ne_nil hne, infix_cons_iff, not_or] at h
    have hp : ¬sep <+: c :: (s ++ sep ++ t) := by
      refine fun hp => h.1 (prefix_of_prefix_length_le hp ?_ ?_)
      · exact cons_prefix_cons.mpr ⟨rfl, ( dropLast_prefix _).trans (prefix_append _ _)⟩
      · simp
        omega
    rw [splitAtDelimiter, cons_append, cons_append, splitFrom, if_neg hp]
    exact congrArg (modifyHead (c :: ·)) (ih h.2)

lemma splitAtDelimiter_of_not_infix (h : ¬sep <:+: t) :
    splitAtDelimiter sep t = [t] := by
  induction t with
  | nil => rfl
  | cons c t ih =>
    rw [infix_cons_iff, not_or] at h
    rw [splitAtDelimiter, splitFrom, if_neg h.1]
    exact congrArg (modifyHead (c :: ·)) (ih h.2)

/-- A delimiter that ends no text too early is found only where it was put. -/
lemma splitAtDelimiter_intercalate (hs : sep ≠ []) (hne : texts ≠ [])
    (h : ∀ s ∈ texts, ¬sep <:+: (s ++ sep).dropLast) :
    splitAtDelimiter sep (sep.intercalate texts) = texts := by
  induction texts with
  | nil => exact absurd rfl hne
  | cons s ts ih =>
    rw [forall_mem_cons] at h
    cases ts with
    | nil =>
      rw [intercalate_singleton]
      refine splitAtDelimiter_of_not_infix fun hi => h.1 (hi.trans (IsPrefix.isInfix ?_))
      rw [dropLast_append_of_ne_nil hs]
      exact prefix_append _ _
    | cons u us =>
      rw [intercalate_cons_cons, splitAtDelimiter_append hs h.1, ih (cons_ne_nil _ _) h.2]

lemma splitAtDelimiter_singleton_append (c : α) (s t : List α) :
    splitAtDelimiter [c] (s ++ c :: t) = splitAtDelimiter [c] s ++ splitAtDelimiter [c] t := by
  induction s with
  | nil => simp [splitAtDelimiter, splitFrom]
  | cons a s ih =>
    have hp (l : List α) : [c] <+: a :: l ↔ c = a := by simp
    simp only [splitAtDelimiter, cons_append, splitFrom, hp, length_singleton, Nat.sub_self] at ih ⊢
    rw [ih]
    obtain ⟨p, ps, h⟩ := exists_cons_of_ne_nil (splitFrom_ne_nil [c] 0 s)
    split_ifs <;> simp [h]

lemma splitAtDelimiter_singleton_intercalate (c : α) (h : texts ≠ []) :
    splitAtDelimiter [c] ([c].intercalate texts) = texts.flatMap (splitAtDelimiter [c]) := by
  induction texts with
  | nil => exact absurd rfl h
  | cons s ts ih =>
    cases ts with
    | nil => simp
    | cons u us =>
      rw [intercalate_cons_cons, append_assoc, singleton_append,
        splitAtDelimiter_singleton_append, ih (cons_ne_nil _ _)]
      rfl

end Rustice
