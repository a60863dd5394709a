import Mathlib.Data.List.Dedup
import Mathlib.Data.List.Perm.Basic
import Rustice.Kleene

/-!
# Joins over Row Lists

Relations are lists of rows and two results are the same relation when they are permutations of one
another.
-/

namespace Rustice

open List

inductive JoinRow (α β : Type*) where
  | both (a : α) (b : β)
  | left (a : α)
  | right (b : β)

variable {α β : Type*}

def JoinRow.left? : JoinRow α β → Option α
  | .both a _ => some a
  | .left a => some a
  | .right _ => none

section Definitions

variable (on : α → β → Truth)

def joins (a : α) (b : β) : Bool :=
  on a b == some true

def partners (r : List β) (a : α) : List β :=
  r.filter (joins on a)

def innerJoin (l : List α) (r : List β) : List (α × β) :=
  l.flatMap fun a => (partners on r a).map fun b => (a, b)

def leftSemiJoin (l : List α) (r : List β) : List α :=
  l.filter fun a => r.any (joins on a)

def leftRows (r : List β) (a : α) : List (JoinRow α β) :=
  match partners on r a with
  | [] => [.left a]
  | b :: bs => (b :: bs).map (.both a)

def unmatchedRight (l : List α) (r : List β) : List β :=
  r.filter fun b => !l.any fun a => joins on a b

def fullJoin (l : List α) (r : List β) : List (JoinRow α β) :=
  l.flatMap (leftRows on r) ++ (unmatchedRight on l r).map .right

def leftRow (r : List β) (a : α) : JoinRow α β :=
  match partners on r a with
  | [] => .left a
  | b :: _ => .both a b

end Definitions

variable {on : α → β → Truth} {a : α} {r : List β} {l : List α} {l₁ l₂ : List α} {l' : List α}
  {γ : Type*} {b : β}

lemma joins_eq_true_iff : joins on a b = true ↔ on a b = some true := by simp [joins]

lemma mem_partners : b ∈ partners on r a ↔ b ∈ r ∧ joins on a b = true :=
  mem_filter

lemma mem_innerJoin {p : α × β} :
    p ∈ innerJoin on l r ↔ p.1 ∈ l ∧ p.2 ∈ r ∧ joins on p.1 p.2 = true := by
  obtain ⟨a, b⟩ := p
  simp only [innerJoin, mem_flatMap, mem_map, mem_partners, Prod.mk.injEq]
  constructor
  · rintro ⟨a', ha, b', ⟨hb, hj⟩, rfl, rfl⟩
    exact ⟨ha, hb, hj⟩
  · rintro ⟨ha, hb, hj⟩
    exact ⟨a, ha, b, ⟨hb, hj⟩, rfl, rfl⟩

lemma leftRows_of_not_joins (h : ∀ b ∈ r, joins on a b = false) : leftRows on r a = [.left a] := by
  have hp : partners on r a = [] := by
    rw [partners, filter_eq_nil_iff]
    intro b hb
    simp [h b hb]
  rw [leftRows, hp]

lemma leftRows_eq_singleton
    (h : (partners on r a).length ≤ 1) : leftRows on r a = [leftRow on r a] := by
  rw [leftRows, leftRow]
  rcases hp : partners on r a with - | ⟨b, bs⟩
  · rfl
  · rw [hp] at h
    have hbs : bs = [] := by
      cases bs with
      | nil => rfl
      | cons c cs => simp at h
    rw [hbs]
    rfl

lemma left?_of_mem_leftRows {j : JoinRow α β} (h : j ∈ leftRows on r a) : j.left? = some a := by
  rw [leftRows] at h
  rcases hp : partners on r a with - | ⟨b, bs⟩
  · rw [hp] at h
    obtain rfl : j = .left a := by simpa using h
    rfl
  · rw [hp] at h
    obtain ⟨b', -, rfl⟩ := mem_map.mp h
    rfl

lemma leftRows_ne_nil (on : α → β → Truth) (r : List β) (a : α) : leftRows on r a ≠ [] := by
  rw [leftRows]
  split <;> simp

lemma exists_left?_mem_fullJoin : (∃ j ∈ fullJoin on l r, j.left? = some a) ↔ a ∈ l := by
  rw [fullJoin]
  constructor
  · rintro ⟨j, hj, hl⟩
    rcases mem_append.mp hj with hj | hj
    · obtain ⟨a', ha', hj⟩ := mem_flatMap.mp hj
      rw [left?_of_mem_leftRows hj] at hl
      exact Option.some.inj hl ▸ ha'
    · obtain ⟨b, -, rfl⟩ := mem_map.mp hj
      exact absurd hl (by simp [JoinRow.left?])
  · intro ha
    obtain ⟨j, hj⟩ := exists_mem_of_ne_nil _ (leftRows_ne_nil on r a)
    exact ⟨j, mem_append_left _ (mem_flatMap.mpr ⟨a, ha, hj⟩), left?_of_mem_leftRows hj⟩

lemma unmatchedRight_perm (h : l.Perm l') (r : List β) :
    unmatchedRight on l r = unmatchedRight on l' r := by
  rw [unmatchedRight]
  refine filter_congr fun b _ => ?_
  rw [h.any_eq]

lemma fullJoin_perm (h : l.Perm l') (r : List β) : (fullJoin on l r).Perm (fullJoin on l' r) := by
  rw [fullJoin]
  rw [unmatchedRight_perm h r]
  exact (h.flatMap_right _).append_right _

lemma unmatchedRight_append_of_not_joins (h : ∀ a ∈ l₂, ∀ b ∈ r, joins on a b = false) :
    unmatchedRight on (l₁ ++ l₂) r = unmatchedRight on l₁ r := by
  rw [unmatchedRight]
  refine filter_congr fun b hb => ?_
  have h₂ : (l₂.any fun a => joins on a b) = false := by
    rw [any_eq_false]
    intro a ha
    simp [h a ha b hb]
  rw [any_append, h₂, Bool.or_false]

lemma fullJoin_append_of_not_joins (h : ∀ a ∈ l₂, ∀ b ∈ r, joins on a b = false) :
    (fullJoin on (l₁ ++ l₂) r).Perm (fullJoin on l₁ r ++ l₂.map .left) := by
  have h₂ : l₂.flatMap (leftRows on r) = l₂.map .left := by
    rw [← flatMap_singleton' (l₂.map _), flatMap_map]
    exact flatMap_congr fun a ha => leftRows_of_not_joins (h a ha)
  simp only [fullJoin]
  rw [unmatchedRight_append_of_not_joins h, flatMap_append, h₂, append_assoc, append_assoc]
  exact perm_append_comm.append_left _

lemma fullJoin_perm_filter (p : α → Bool)
    (h : ∀ a ∈ l, p a = false → ∀ b ∈ r, joins on a b = false) : (fullJoin on l r).Perm
      (fullJoin on (l.filter p) r ++ (l.filter fun a => !p a).map .left) := by
  refine (fullJoin_perm (filter_append_perm p l).symm r).trans ?_
  refine fullJoin_append_of_not_joins fun a ha b hb => ?_
  rw [mem_filter] at ha
  exact h a ha.1 (by simpa using ha.2) b hb

lemma flatMap_leftRows_eq_map (h : ∀ a ∈ l, (partners on r a).length ≤ 1) :
    l.flatMap (leftRows on r) = l.map (leftRow on r) := by
  rw [← flatMap_singleton' (l.map _), flatMap_map]
  exact flatMap_congr fun a ha => leftRows_eq_singleton (h a ha)

lemma filter_eq_of_nodup {gs : List γ} {g : γ} (hnd : gs.Nodup)
    (hg : g ∈ gs) {p : γ → Bool} (hp : ∀ g' ∈ gs, p g' = true → g' = g) :
    gs.filter p = if p g then [g] else [] := by
  induction gs with
  | nil => exact absurd hg not_mem_nil
  | cons a gs ih =>
    obtain ⟨hnm, hnd⟩ := nodup_cons.mp hnd
    rw [filter_cons]
    rcases mem_cons.mp hg with rfl | hg
    · have hr : gs.filter p = [] := by
        rw [filter_eq_nil_iff]
        intro g' hg' hpa
        exact hnm (hp g' (mem_cons_of_mem _ hg') hpa ▸ hg')
      rw [hr]
    · have ha : ¬ p a = true := fun hpa =>
        hnm (hp a mem_cons_self hpa ▸ hg)
      rw [if_neg ha]
      exact ih hnd hg fun g' hg' => hp g' (mem_cons_of_mem _ hg')

lemma innerJoin_map_map {f : γ → α} {h : γ → β} {gs hs : List γ}
    (hnd : hs.Nodup) (hsu : ∀ g ∈ gs, g ∈ hs) (p : γ → Bool)
    (ho : ∀ g ∈ gs, ∀ g' ∈ hs, on (f g) (h g') = some true ↔ g = g' ∧ p g = true) :
    innerJoin on (gs.map f) (hs.map h) = (gs.filter p).map fun g => (f g, h g) := by
  have hp : ∀ g ∈ gs, partners on (hs.map h) (f g) = if p g then [h g] else [] := by
    intro g hg
    have hf : hs.filter (joins on (f g) ∘ h) = if p g then [g] else [] := by
      have hsel : (joins on (f g) ∘ h) g = p g := by
        rw [Bool.eq_iff_iff, Function.comp_apply, joins_eq_true_iff, ho g hg g (hsu g hg)]
        exact and_iff_right rfl
      rw [← hsel]
      refine filter_eq_of_nodup hnd (hsu g hg) fun g' hg' hj => ?_
      exact ((ho g hg g' hg').mp (joins_eq_true_iff.mp hj)).1.symm
    rw [partners, filter_map, hf]
    split <;> rfl
  rw [innerJoin]
  rw [flatMap_map, flatMap_congr fun g hg => by rw [hp g hg]]
  clear ho hp hsu
  induction gs with
  | nil => rfl
  | cons g gs ih =>
    rw [flatMap_cons, ih, filter_cons]
    cases p g <;> rfl

end Rustice
