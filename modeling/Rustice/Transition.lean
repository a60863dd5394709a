import Mathlib.Data.List.Induction

/-!
# Runs of Transition Systems

A system has an initial state and a partial step function: `step s a = none` means that the action
`a` is not enabled in `s`.
-/

namespace Rustice

open List

structure TransitionSystem (σ α : Type*) where
  init : σ
  step : σ → α → Option σ

namespace TransitionSystem

variable {σ α : Type*} (M : TransitionSystem σ α)

def anyStep (_ : σ) (_ : α) : Prop := True

instance (s : σ) (a : α) : Decidable (anyStep s a) := isTrue trivial

/-- `Run guard as s`: the actions `as`, taken one after the other from the initial state,
are enabled, meet the guard, and lead to `s`. -/
inductive Run (guard : σ → α → Prop) : List α → σ → Prop where
  | nil : Run guard [] M.init
  | snoc {as : List α} {s t : σ} {a : α} (hrun : Run guard as s) (hguard : guard s a)
      (hstep : M.step s a = some t) : Run guard (as ++ [a]) t

variable {M} {guard : σ → α → Prop} {as : List α} {s t : σ}

lemma Run.invariant (hrun : M.Run guard as s) (i : List α → σ → Prop) (hi : i [] M.init)
    (hs : ∀ {as s t a}, i as s → guard s a → M.step s a = some t → i (as ++ [a]) t) : i as s := by
  induction hrun with
  | nil => exact hi
  | snoc _ hg ht ih => exact hs ih hg ht

lemma Run.of_snoc {a : α} (hrun : M.Run guard (as ++ [a]) t) :
    ∃ s, M.Run guard as s ∧ guard s a ∧ M.step s a = some t := by
  generalize hbs : as ++ [a] = bs at hrun
  cases hrun with
  | nil => simp at hbs
  | @snoc as' s t a' hrun hg hs =>
    obtain ⟨rfl, rfl⟩ := append_singleton_inj.mp hbs
    exact ⟨s, hrun, hg, hs⟩

lemma Run.unique (hs : M.Run guard as s) (ht : M.Run guard as t) : s = t := by
  induction hs generalizing t with
  | nil =>
    generalize hbs : ([] : List α) = bs at ht
    cases ht with
    | nil => rfl
    | snoc => simp at hbs
  | snoc _ _ hst ih =>
    obtain ⟨s', hs', -, hst'⟩ := ht.of_snoc
    rw [ih hs', hst'] at hst
    exact (Option.some.inj hst).symm

lemma Run.forget (hrun : M.Run guard as s) : M.Run anyStep as s := by
  induction hrun with
  | nil => exact .nil
  | snoc _ _ hs ih => exact .snoc ih trivial hs

lemma run_iff_always {P : List α → σ → Prop} (hi : P [] M.init)
    (hst : ∀ {as s t a}, M.Run anyStep as s → P as s → M.step s a = some t →
      (P (as ++ [a]) t ↔ guard s a)) (hrun : M.Run anyStep as s) :
    (∀ p u, p <+: as → M.Run anyStep p u → P p u) ↔ M.Run guard as s := by
  induction hrun with
  | nil =>
    refine ⟨fun _ => .nil, fun _ p u hp hu => ?_⟩
    obtain rfl := prefix_nil.mp hp
    rw [hu.unique .nil]
    exact hi
  | @snoc as s t a hrun ha ht ih =>
    have he : M.Run anyStep (as ++ [a]) t := .snoc hrun ha ht
    constructor
    · intro hP
      have hb := ih.mp fun p u hp => hP p u (hp.trans (prefix_append _ _))
      have hs := hP as s (prefix_append _ _) hrun
      exact .snoc hb ((hst hrun hs ht).mp (hP _ t prefix_rfl he)) ht
    · intro hg p u hp hu
      obtain ⟨s', hs', hgua, ht'⟩ := hg.of_snoc
      obtain rfl := hrun.unique hs'.forget
      have hP := ih.mpr hs'
      rcases prefix_concat_iff.mp hp with rfl | hp
      · rw [hu.unique he]
        exact (hst hrun (hP as s prefix_rfl hrun) ht).mpr hgua
      · exact hP p u hp hu

variable (M) (guard)

def exec [∀ s a, Decidable (guard s a)] (as : List α) : Option σ :=
  as.foldlM (fun s a => if guard s a then M.step s a else none) M.init

variable {M} {guard}

lemma exec_eq_some_iff [∀ s a, Decidable (guard s a)] :
    M.exec guard as = some s ↔ M.Run guard as s := by
  constructor
  · intro h
    induction as using reverseRecOn generalizing s with
    | nil =>
      obtain rfl : M.init = s := Option.some.inj h
      exact .nil
    | append_singleton as a ih =>
      rw [exec, foldlM_append] at h
      obtain ⟨s', hs', hl⟩ := Option.bind_eq_some_iff.mp h
      simp only [foldlM_cons, foldlM_nil, bind_pure] at hl
      split at hl
      case isTrue hg => exact .snoc (ih hs') hg hl
      case isFalse => cases hl
  · intro h
    induction h with
    | nil => rfl
    | snoc _ hg hs ih =>
      rw [exec, foldlM_append]
      refine Option.bind_eq_some_iff.mpr ⟨_, ih, ?_⟩
      simp only [foldlM_cons, foldlM_nil, bind_pure, if_pos hg, hs]

end TransitionSystem

end Rustice
