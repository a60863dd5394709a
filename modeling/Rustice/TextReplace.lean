import Mathlib.Data.List.Infix

/-!
# Replacing a Text in a Text

`replaceText` replaces every occurrence of a nonempty pattern, from the left and without overlaps.
-/

namespace Rustice

open List

variable {α : Type*} [DecidableEq α]

/-- Every occurrence replaced, after the rest of one. -/
def replaceFrom (pat rep : List α) : ℕ → List α → List α
  | _, [] => []
  | skip + 1, _ :: cs => replaceFrom pat rep skip cs
  | 0, c :: cs =>
    if pat <+: c :: cs then rep ++ replaceFrom pat rep (pat.length - 1) cs
    else c :: replaceFrom pat rep 0 cs

def replaceText (pat rep cs : List α) : List α := replaceFrom pat rep 0 cs

variable {pat rep : List α} {β : Type*} {ps : List β}

@[simp] lemma replaceText_nil : replaceText pat rep [] = [] := rfl

lemma replaceFrom_append (xs cs : List α) :
    replaceFrom pat rep xs.length (xs ++ cs) = replaceText pat rep cs := by
  induction xs with
  | nil => rfl
  | cons x xs ih => exact ih

lemma replaceText_pat_append (hp : pat ≠ []) (cs : List α) :
    replaceText pat rep (pat ++ cs) = rep ++ replaceText pat rep cs := by
  cases pat with
  | nil => exact absurd rfl hp
  | cons p ps =>
    rw [replaceText, cons_append, replaceFrom, if_pos ⟨cs, rfl⟩]
    exact congrArg (rep ++ ·) (replaceFrom_append ps cs)

lemma replaceText_cons_of_not {c : α} {cs : List α} (h : ¬ pat <+: c :: cs) :
    replaceText pat rep (c :: cs) = c :: replaceText pat rep cs := by
  rw [replaceText, replaceFrom, if_neg h]
  rfl

def NoStart (pat : List α) : List α → List α → Prop
  | [], _ => True
  | x :: xs, cs => ¬ pat <+: x :: (xs ++ cs) ∧ NoStart pat xs cs

lemma replaceText_append_of_noStart {xs cs : List α} (h : NoStart pat xs cs) :
    replaceText pat rep (xs ++ cs) = xs ++ replaceText pat rep cs := by
  induction xs with
  | nil => rfl
  | cons x xs ih =>
    obtain ⟨hx, hxs⟩ := h
    rw [cons_append, replaceText_cons_of_not hx, ih hxs, cons_append]

lemma replaceText_of_noStart {xs : List α} (h : NoStart pat xs []) :
    replaceText pat rep xs = xs := by
  have hr := @replaceText_append_of_noStart _ _ _ rep _ _ h
  rwa [append_nil, replaceText_nil, append_nil] at hr

lemma replaceText_flatMap {f g : β → List α} (hp : pat ≠ [])
    (h : ∀ p ∈ ps, (f p = pat ∧ g p = rep) ∨
      (g p = f p ∧ ∀ qs : List β, qs ⊆ ps → NoStart pat (f p) (qs.flatMap f))) :
    replaceText pat rep (ps.flatMap f) = ps.flatMap g := by
  suffices hsub : ∀ qs : List β, qs ⊆ ps →
      replaceText pat rep (qs.flatMap f) = qs.flatMap g from hsub ps (List.Subset.refl ps)
  intro qs
  induction qs with
  | nil => exact fun _ => rfl
  | cons q qs ih =>
    intro hm
    obtain ⟨hq, hqs⟩ := cons_subset.mp hm
    rw [flatMap_cons, flatMap_cons]
    rcases h q hq with ⟨hf, hg⟩ | ⟨hg, hn⟩
    · rw [hf, hg, replaceText_pat_append hp, ih hqs]
    · rw [hg, replaceText_append_of_noStart (hn qs hqs), ih hqs]

omit [DecidableEq α] in
lemma noStart_of_notMem {a : α} {as xs : List α} (h : a ∉ xs) (cs : List α) :
    NoStart (a :: as) xs cs := by
  induction xs with
  | nil => trivial
  | cons x xs ih =>
    obtain ⟨hx, hxs⟩ := not_or.mp (mt mem_cons.mpr h)
    exact ⟨fun hp => hx (cons_prefix_cons.mp hp).1, ih hxs⟩

omit [DecidableEq α] in
lemma not_prefix_of_head? {a b c : α} {as cs : List α} (h : cs.head? ≠ some b) :
    ¬ a :: b :: as <+: c :: cs := by
  intro hp
  obtain ⟨rest, hr⟩ := (cons_prefix_cons.mp hp).2
  rw [← hr] at h
  exact h rfl

omit [DecidableEq α] in
lemma head?_flatMap_ne {f : β → List α} {b : α}
    (hne : ∀ p ∈ ps, f p ≠ []) (h : ∀ p ∈ ps, (f p).head? ≠ some b) :
    (ps.flatMap f).head? ≠ some b := by
  cases ps with
  | nil => exact fun hb => by cases hb
  | cons p ps =>
    rw [flatMap_cons, head?_append_of_ne_nil _ (hne p mem_cons_self)]
    exact h p mem_cons_self

end Rustice
