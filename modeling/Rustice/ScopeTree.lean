import Rustice.Fallible

/-!
# Trees of Names in Scopes

A tree of occurrences of names with binders.
-/

namespace Rustice

universe u

inductive ScopeTree (N B : Type u) where
  | nil
  | name (n : N)
  | seq (first second : ScopeTree N B)
  | bind (isRecursive : Bool) (binder : B) (definition body : ScopeTree N B)

namespace ScopeTree

variable {N B E : Type u}

def occurrences (scope : List B) : ScopeTree N B → List (List B × N)
  | nil => []
  | name n => [(scope, n)]
  | seq first second => occurrences scope first ++ occurrences scope second
  | bind isRecursive binder definition body =>
    occurrences (if isRecursive then binder :: scope else scope) definition ++
      occurrences (binder :: scope) body

def binders : ScopeTree N B → List B
  | nil => []
  | name _ => []
  | seq first second => binders first ++ binders second
  | bind _ binder definition body => binder :: (binders definition ++ binders body)

def rewrite (g : List B → N → Except E N) (scope : List B) :
    ScopeTree N B → Except E (ScopeTree N B)
  | nil => .ok nil
  | name n => (g scope n).map name
  | seq first second => do
    let first ← rewrite g scope first
    let second ← rewrite g scope second
    pure (seq first second)
  | bind isRecursive binder definition body => do
    let definition ← rewrite g (if isRecursive then binder :: scope else scope) definition
    let body ← rewrite g (binder :: scope) body
    pure (bind isRecursive binder definition body)

def visit (f : N → Except E N) : ScopeTree N B → ScopeTree N B × Option E
  | nil => (nil, none)
  | name n =>
    match f n with
    | .ok n => (name n, none)
    | .error e => (name n, some e)
  | seq first second =>
    match visit f first with
    | (first, some e) => (seq first second, some e)
    | (first, none) =>
      let (second, stop) := visit f second
      (seq first second, stop)
  | bind isRecursive binder definition body =>
    match visit f definition with
    | (definition, some e) => (bind isRecursive binder definition body, some e)
    | (definition, none) =>
      let (body, stop) := visit f body
      (bind isRecursive binder definition body, stop)

variable {f : N → Except E N} {g : List B → N → Except E N} {s : List B} {t : ScopeTree N B}

def Agree (f : N → Except E N) (g : List B → N → Except E N) (occurrence : List B × N) : Prop :=
  ∃ n, f occurrence.2 = .ok n ∧ g occurrence.1 occurrence.2 = .ok n

lemma visit_of_agree (h : ∀ o ∈ t.occurrences s, Agree f g o) :
    ∃ u, visit f t = (u, none) ∧ rewrite g s t = .ok u := by
  induction t generalizing s with
  | nil => exact ⟨nil, rfl, rfl⟩
  | name n =>
    obtain ⟨n', hf, hg⟩ := h (s, n) (List.mem_singleton_self _)
    exact ⟨name n', by simp only [visit, hf], by rw [rewrite, hg]; rfl⟩
  | seq a b ihf ih =>
    rw [occurrences, List.forall_mem_append] at h
    obtain ⟨a', hv, hr⟩ := ihf h.1
    obtain ⟨b', hv', hr'⟩ := ih h.2
    exact ⟨seq a' b', by simp only [visit, hv, hv'], by rw [rewrite, hr, hr']; rfl⟩
  | bind ir bn d bd i ihb =>
    rw [occurrences, List.forall_mem_append] at h
    obtain ⟨d', hv, hr⟩ := i h.1
    obtain ⟨bd', hv', hr'⟩ := ihb h.2
    exact ⟨bind ir bn d' bd', by simp only [visit, hv, hv'], by rw [rewrite, hr, hr']; rfl⟩

lemma agree_of_rewrite (hst : ∀ s n e, f n = .error e → g s n ≠ .ok n)
    (h : rewrite g s t = .ok (visit f t).1) : ∀ o ∈ t.occurrences s, Agree f g o := by
  induction t generalizing s with
  | nil => simp [occurrences]
  | name n =>
    simp only [occurrences, List.mem_singleton, forall_eq]
    rw [rewrite] at h
    cases hg : g s n with
    | error e => rw [hg] at h; cases h
    | ok n' =>
      rw [hg] at h
      cases hf : f n with
      | error e =>
        simp only [visit, hf] at h
        cases h
        exact absurd hg (hst s n e hf)
      | ok n'' =>
        simp only [visit, hf] at h
        cases h
        exact ⟨_, hf, hg⟩
  | seq a b ihf ih =>
    obtain ⟨a', hr, h⟩ := bind_eq_ok.mp h
    obtain ⟨b', hr', h⟩ := bind_eq_ok.mp h
    have hs := pure_eq_ok.mp h
    have hf' : a' = (visit f a).1 := by
      rw [visit] at hs
      split at hs
      case _ hv => rw [hv]; exact (seq.inj hs).1
      case _ hv => rw [hv]; exact (seq.inj hs).1
    have hfir := ihf (hr.trans (congrArg Except.ok hf'))
    -- so the visit goes on to the second part
    obtain ⟨u, hv, -⟩ := visit_of_agree hfir
    simp only [visit, hv] at hs
    have hsec := ih (hr'.trans (congrArg Except.ok (seq.inj hs).2))
    rw [occurrences, List.forall_mem_append]
    exact ⟨hfir, hsec⟩
  | bind isRecursive binder d bd i ihb =>
    obtain ⟨d', hr, h⟩ := bind_eq_ok.mp h
    obtain ⟨bd', hr', h⟩ := bind_eq_ok.mp h
    have hb := pure_eq_ok.mp h
    have hd' : d' = (visit f d).1 := by
      rw [visit] at hb
      split at hb
      case _ hv => rw [hv]; exact (bind.inj hb).2.2.1
      case _ hv => rw [hv]; exact (bind.inj hb).2.2.1
    have hd := i (hr.trans (congrArg Except.ok hd'))
    obtain ⟨u, hv, -⟩ := visit_of_agree hd
    simp only [visit, hv] at hb
    have hbod := ihb (hr'.trans (congrArg Except.ok (bind.inj hb).2.2.2))
    rw [occurrences, List.forall_mem_append]
    exact ⟨hd, hbod⟩

lemma rewrite_eq_ok_visit_iff (hs : ∀ s n e, f n = .error e → g s n ≠ .ok n) :
    rewrite g s t = .ok (visit f t).1 ↔ ∀ o ∈ t.occurrences s, Agree f g o := by
  refine ⟨agree_of_rewrite hs, fun h => ?_⟩
  obtain ⟨u, hv, hr⟩ := visit_of_agree h
  rw [hv, hr]

lemma exists_rewrite_eq_ok_iff :
    (∃ u, rewrite g s t = .ok u) ↔ ∀ o ∈ t.occurrences s, ∃ n, g o.1 o.2 = .ok n := by
  induction t generalizing s with
  | nil => simp [rewrite, occurrences]
  | name n =>
    simp only [rewrite, occurrences, List.mem_singleton, forall_eq]
    cases g s n with
    | error e => simp [Except.map]
    | ok n' => simp [Except.map]
  | seq a b ihf ih =>
    rw [occurrences, List.forall_mem_append, ← ihf, ← ih]
    constructor
    · rintro ⟨u, h⟩
      obtain ⟨a', hr, h⟩ := bind_eq_ok.mp h
      obtain ⟨b', hr', -⟩ := bind_eq_ok.mp h
      exact ⟨⟨a', hr⟩, b', hr'⟩
    · rintro ⟨⟨a', hr⟩, b', hr'⟩
      exact ⟨seq a' b', by rw [rewrite, hr, hr']; rfl⟩
  | bind ir bn d bd i ihb =>
    rw [occurrences, List.forall_mem_append, ← i, ← ihb]
    constructor
    · rintro ⟨u, h⟩
      obtain ⟨d', hr, h⟩ := bind_eq_ok.mp h
      obtain ⟨bd', hr', -⟩ := bind_eq_ok.mp h
      exact ⟨⟨d', hr⟩, bd', hr'⟩
    · rintro ⟨⟨d', hr⟩, bd', hr'⟩
      exact ⟨bind ir bn d' bd', by rw [rewrite, hr, hr']; rfl⟩

end ScopeTree

end Rustice
