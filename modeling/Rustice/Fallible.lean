import Mathlib.Data.List.Forall2

/-!
# Fallible Computations

Rules for taking a computation in `Except` apart: a bind succeeds when both of its parts
do, and a traversal succeeds when it succeeds on every element.
-/

namespace Rustice

open List

universe u v w

variable {ε : Type u} {α β : Type v} {γ : Type w}
  {x : Except ε α} {f : γ → Except ε β} {xs : List γ} {ys : List β} {e : ε} {b : β}

lemma bind_eq_ok {f : α → Except ε β} : x >>= f = .ok b ↔ ∃ a, x = .ok a ∧ f a = .ok b := by
  cases x <;> simp [bind, Except.bind]

lemma bind_eq_error {f : α → Except ε β} :
    x >>= f = .error e ↔ x = .error e ∨ ∃ a, x = .ok a ∧ f a = .error e := by
  cases x with
  | error e' => simp [bind, Except.bind]
  | ok a => simp [bind, Except.bind]

lemma map_eq_ok {f : α → β} : f <$> x = .ok b ↔ ∃ a, x = .ok a ∧ f a = b := by
  cases x <;> simp [Functor.map, Except.map]

lemma pure_eq_ok {a b : α} : (pure a : Except ε α) = .ok b ↔ a = b := by simp [pure, Except.pure]

lemma toOption_eq_some_iff {a : α} : x.toOption = some a ↔ x = .ok a := by
  cases x <;> simp [Except.toOption]

lemma mapM_eq_ok_iff : xs.mapM f = .ok ys ↔ List.Forall₂ (fun x y => f x = .ok y) xs ys := by
  induction xs generalizing ys with
  | nil => rw [mapM_nil, pure_eq_ok, forall₂_nil_left_iff, eq_comm]
  | cons x xs ih =>
    simp only [mapM_cons, bind_eq_ok, pure_eq_ok, forall₂_cons_left_iff]
    constructor
    · rintro ⟨y, hy, ys', hys, rfl⟩
      exact ⟨y, ys', hy, ih.mp hys, rfl⟩
    · rintro ⟨y, ys', hy, hys, rfl⟩
      exact ⟨y, hy, ys', ih.mpr hys, rfl⟩

lemma mapM_eq_ok_map_iff {g : γ → β} : xs.mapM f = .ok (xs.map g) ↔ ∀ x ∈ xs, f x = .ok (g x) := by
  rw [mapM_eq_ok_iff, forall₂_map_right_iff, forall₂_same]

lemma mapM_map_eq_ok_map_iff {δ : Type} {f : δ → Except ε β} {g : γ → δ} {h : γ → β} :
    (xs.map g).mapM f = .ok (xs.map h) ↔ ∀ x ∈ xs, f (g x) = .ok (h x) := by
  rw [mapM_eq_ok_iff, forall₂_map_left_iff, forall₂_map_right_iff, forall₂_same]

lemma mapM_eq_ok_map {g : γ → β} (h : ∀ x ∈ xs, f x = .ok (g x)) : xs.mapM f = .ok (xs.map g) :=
  mapM_eq_ok_map_iff.mpr h

lemma length_of_mapM_eq_ok (h : xs.mapM f = .ok ys) : ys.length = xs.length :=
  (mapM_eq_ok_iff.mp h).length_eq.symm

lemma exists_mem_of_mapM_eq_ok
    (h : xs.mapM f = .ok ys) {x : γ} (hx : x ∈ xs) : ∃ y ∈ ys, f x = .ok y := by
  have ha := mapM_eq_ok_iff.mp h
  clear h
  induction ha with
  | nil => exact absurd hx not_mem_nil
  | cons hxy _ ih =>
    rcases mem_cons.mp hx with rfl | hx
    · exact ⟨_, mem_cons_self, hxy⟩
    · obtain ⟨y, hy, hx'⟩ := ih hx
      exact ⟨y, mem_cons_of_mem _ hy, hx'⟩

lemma exists_of_mapM_eq_ok (h : xs.mapM f = .ok ys) {x : γ} (hx : x ∈ xs) : ∃ y, f x = .ok y :=
  (exists_mem_of_mapM_eq_ok h hx).imp fun _ hy => hy.2

lemma getElem?_of_mapM_eq_ok (h : xs.mapM f = .ok ys) {i : ℕ} {x : γ} (hx : xs[i]? = some x) :
    ∃ y, ys[i]? = some y ∧ f x = .ok y := by
  have ha := mapM_eq_ok_iff.mp h
  clear h
  induction ha generalizing i with
  | nil => cases hx
  | cons hy _ ih =>
    cases i with
    | zero =>
      rw [getElem?_cons_zero, Option.some.injEq] at hx
      exact ⟨_, rfl, hx ▸ hy⟩
    | succ i => exact ih hx

lemma mapM_congr {g : γ → Except ε β} (h : ∀ x ∈ xs, f x = g x) : xs.mapM f = xs.mapM g := by
  induction xs with
  | nil => rfl
  | cons x xs ih =>
    rw [forall_mem_cons] at h
    rw [mapM_cons, mapM_cons, h.1, ih h.2]

lemma map_mapM {f : γ → Except ε α} {h : α → β} :
    (xs.mapM f).map (List.map h) = xs.mapM fun x => (f x).map h := by
  induction xs with
  | nil => rfl
  | cons x xs ih =>
    rw [mapM_cons, mapM_cons, ← ih]
    cases f x with
    | error e => rfl
    | ok y =>
      cases xs.mapM f with
      | error e => rfl
      | ok ys => rfl

lemma exists_of_mem_mapM
    (h : xs.mapM f = .ok ys) {y : β} (hy : y ∈ ys) : ∃ x ∈ xs, f x = .ok y := by
  have ha := mapM_eq_ok_iff.mp h
  clear h
  induction ha with
  | nil => exact absurd hy not_mem_nil
  | cons hx _ ih =>
    rcases mem_cons.mp hy with rfl | hy
    · exact ⟨_, mem_cons_self, hx⟩
    · obtain ⟨x, hm, hx⟩ := ih hy
      exact ⟨x, mem_cons_of_mem _ hm, hx⟩

lemma exists_of_mapM_eq_error (h : xs.mapM f = .error e) : ∃ x ∈ xs, f x = .error e := by
  induction xs with
  | nil => cases h
  | cons x xs ih =>
    rw [mapM_cons] at h
    cases hx : f x with
    | error e' =>
      rw [hx] at h
      cases h
      exact ⟨x, mem_cons_self, hx⟩
    | ok y =>
      cases hxs : xs.mapM f with
      | error e' =>
        rw [hx, hxs] at h
        cases h
        obtain ⟨x', hm, hx'⟩ := ih hxs
        exact ⟨x', mem_cons_of_mem x hm, hx'⟩
      | ok ys =>
        rw [hx, hxs] at h
        cases h

lemma mapM_eq_error_iff : xs.mapM f = .error e ↔
    ∃ (i : ℕ) (x : γ), xs[i]? = some x ∧ f x = .error e ∧
      ∀ j < i, ∀ y, xs[j]? = some y → ∃ z, f y = .ok z := by
  induction xs with
  | nil => simp [pure, Except.pure]
  | cons x xs ih =>
    simp only [mapM_cons, bind_eq_error, ih]
    constructor
    · rintro (hx | ⟨z, hx, ⟨i, y, hy, he, hb⟩ | ⟨_, _, h⟩⟩)
      · exact ⟨0, x, rfl, hx, fun j hj => absurd hj (Nat.not_lt_zero j)⟩
      · refine ⟨i + 1, y, hy, he, fun j hj y hy => ?_⟩
        cases j with
        | zero => exact ⟨z, Option.some.inj hy ▸ hx⟩
        | succ j => exact hb j (Nat.lt_of_succ_lt_succ hj) y hy
      · cases h
    · rintro ⟨i, y, hy, he, hb⟩
      cases i with
      | zero => exact .inl (Option.some.inj hy ▸ he)
      | succ i =>
        obtain ⟨z, hz⟩ := hb 0 (Nat.succ_pos i) x rfl
        exact .inr ⟨z, hz, .inl ⟨i, y, hy, he, fun j hj => hb (j + 1) (Nat.succ_lt_succ hj)⟩⟩

lemma exists_mapM_eq_ok_iff {R : γ → β → Prop} :
    (∃ ys, xs.mapM f = .ok ys ∧ List.Forall₂ R xs ys) ↔ ∀ x ∈ xs, ∃ y, f x = .ok y ∧ R x y := by
  simp only [mapM_eq_ok_iff]
  induction xs with
  | nil => simp
  | cons x xs ih =>
    rw [forall_mem_cons, ← ih]
    constructor
    · rintro ⟨ys, ha, hrel⟩
      obtain ⟨y, ys, hy, hys, rfl⟩ := forall₂_cons_left_iff.mp ha
      obtain ⟨hrl, hr⟩ := forall₂_cons.mp hrel
      exact ⟨⟨y, hy, hrl⟩, ys, hys, hr⟩
    · rintro ⟨⟨y, hy, hrl⟩, ys, hys, hr⟩
      exact ⟨y :: ys, .cons hy hys, .cons hrl hr⟩

lemma exists_mapM_eq_ok (h : ∀ x ∈ xs, ∃ y, f x = .ok y) : ∃ ys, xs.mapM f = .ok ys := by
  have ha : ∀ x ∈ xs, ∃ y, f x = .ok y ∧ True := fun x hx =>
    (h x hx).imp fun _ hy => ⟨hy, trivial⟩
  exact (exists_mapM_eq_ok_iff.mpr ha).imp fun _ hys => hys.1

lemma foldlM_eq_ok_of_mapM {g : α → β → α} (h : xs.mapM f = .ok ys) (i : α) :
    xs.foldlM (fun acc x => do
      let y ← f x
      pure (g acc y)) i = .ok (ys.foldl g i) := by
  have ha := mapM_eq_ok_iff.mp h
  clear h
  induction ha generalizing i with
  | nil => rfl
  | cons hx _ ih =>
    rw [foldlM_cons, foldl_cons, hx]
    exact ih _

lemma exists_mapM_of_foldlM_eq_ok {g : α → β → α} {i acc : α} (h : xs.foldlM (fun acc x => do
    let y ← f x
    pure (g acc y)) i = .ok acc) : ∃ ys, xs.mapM f = .ok ys := by
  induction xs generalizing i with
  | nil => exact ⟨[], rfl⟩
  | cons x xs ih =>
    rw [foldlM_cons] at h
    obtain ⟨acc', hx, hxs⟩ := bind_eq_ok.mp h
    obtain ⟨y, hy, -⟩ := bind_eq_ok.mp hx
    obtain ⟨ys, hys⟩ := ih hxs
    refine ⟨y :: ys, ?_⟩
    rw [mapM_cons, hy, hys]
    rfl

lemma foldlM_invariant {f : α → γ → Except ε α} {i acc : α}
    (inv : List γ → α → Prop) (hin : inv [] i)
    (hs : ∀ {pre : List γ} {x : γ} {acc acc' : α}, inv pre acc → x ∈ xs → f acc x = .ok acc' →
      inv (pre ++ [x]) acc') (h : xs.foldlM f i = .ok acc) : inv xs acc := by
  have hru : ∀ (ys pre : List γ) (a : α), (∀ y ∈ ys, y ∈ xs) → inv pre a →
      ys.foldlM f a = .ok acc → inv (pre ++ ys) acc := by
    intro ys
    induction ys with
    | nil =>
      intro pre a _ hi hru
      obtain rfl := pure_eq_ok.mp hru
      rwa [append_nil]
    | cons y ys ih =>
      intro pre a hm hi hru
      rw [foldlM_cons] at hru
      obtain ⟨a', hy, hys⟩ := bind_eq_ok.mp hru
      have hr := ih (pre ++ [y]) a' (fun z hz => hm z (mem_cons_of_mem _ hz))
        (hs hi (hm y mem_cons_self) hy) hys
      rwa [append_assoc] at hr
  exact hru xs [] i (fun _ hy => hy) hin h

end Rustice
