import Mathlib.Data.List.Basic
import Mathlib.Data.List.Induction

/-!
# Partial Aggregation

An aggregate is computed in two stages.
-/

namespace Rustice

open List

universe u

def firstRows {α : Type u} : List (List α) → List α
  | [] => []
  | [] :: _ => []
  | (row :: _) :: calls => row :: firstRows calls

lemma firstRows_sublist {α : Type u} (cs : List (List α)) : (firstRows cs).Sublist cs.flatten := by
  induction cs with
  | nil => exact List.Sublist.refl _
  | cons c cs ih =>
    cases c with
    | nil => exact nil_sublist _
    | cons r rows =>
      rw [firstRows, flatten_cons, cons_append]
      exact (ih.trans (sublist_append_right _ _)).cons_cons r

lemma firstRows_map {α β : Type u} (f : α → β) (cs : List (List α)) :
    firstRows (cs.map (List.map f)) = (firstRows cs).map f := by
  induction cs with
  | nil => rfl
  | cons c cs ih =>
    cases c with
    | nil => rfl
    | cons row rows => simp only [map_cons, firstRows, ih]

/-- The calls are a cut of the values. -/
def IsCut {α : Type u} (calls : List (List (List (List α)))) (values : List α) : Prop :=
  calls.flatten.flatten.flatten.Perm values

lemma IsCut.mem {α : Type u} {cs : List (List (List (List α)))} {values : List α}
    (hc : IsCut cs values) {bs : List (List α)} (hr : bs ∈ firstRows cs)
    {v : α} (hv : v ∈ bs.flatten) : v ∈ values := by
  have hb : bs ∈ cs.flatten := (firstRows_sublist cs).subset hr
  refine hc.mem_iff.mp (mem_flatten.mpr ?_)
  obtain ⟨b, hbat, hv⟩ := mem_flatten.mp hv
  exact ⟨b, mem_flatten.mpr ⟨bs, hb, hbat⟩, hv⟩

section FirstUnion

variable {α : Type u} [DecidableEq α] {ls : List (List α)} {a : α} (vs : List α)

/-- The list and what is new in another one, copies included. -/
def keepNew (values more : List α) : List α := values ++ more.filter (· ∉ values)

def firstUnion (lists : List (List α)) : List α := lists.foldl keepNew []

lemma mem_keepNew {vs more : List α} : a ∈ keepNew vs more ↔ a ∈ vs ∨ a ∈ more := by
  by_cases ha : a ∈ vs <;> simp [keepNew, ha]

lemma foldl_keepNew (ls : List (List α)) : ls.foldl keepNew vs = keepNew vs (firstUnion ls) := by
  induction ls using reverseRecOn with
  | nil => simp [keepNew, firstUnion]
  | append_singleton ls list ih =>
    rw [firstUnion, foldl_append, foldl_append, ih, ← firstUnion]
    simp only [foldl_cons, foldl_nil, keepNew, filter_append, filter_filter, append_assoc]
    congr 2
    refine filter_congr fun a _ => ?_
    by_cases ha : a ∈ vs <;> simp [ha]

lemma firstUnion_map_firstUnion (gs : List (List (List α))) :
    firstUnion (gs.map firstUnion) = firstUnion gs.flatten := by
  rw [firstUnion, firstUnion, foldl_map, foldl_flatten]
  exact congrArg (fun f => gs.foldl f []) (funext₂ fun vs ls =>
    (foldl_keepNew vs ls).symm)

end FirstUnion

/-- Accumulators `σ`, their states `τ`, results `ρ` and failures `ε`. -/
structure Aggregate (β σ τ ρ ε : Type u) where
  new : σ
  updateBatch : σ → β → σ
  state : σ → τ
  mergeBatch : σ → List τ → Except ε σ
  evaluate : σ → Except ε ρ

namespace Aggregate

variable {β σ τ ρ ε : Type u} (A : Aggregate β σ τ ρ ε)

def accumulate (batches : List β) : σ :=
  batches.foldl A.updateBatch A.new

def states (calls : List (List (List β))) : List (List τ) :=
  calls.map (List.map fun batches => A.state (A.accumulate batches))

def merge (calls : List (List (List β))) : Except ε σ :=
  (A.states calls).foldlM A.mergeBatch A.new

def run (calls : List (List (List β))) : Except ε ρ :=
  A.merge calls >>= A.evaluate

variable {A}

lemma merge_of_row (mr : σ → τ → σ) (hm : ∀ s rs, A.mergeBatch s rs = .ok (rs.foldl mr s))
    (cs : List (List (List β))) : A.merge cs = .ok ((A.states cs).flatten.foldl mr A.new) := by
  rw [merge]
  generalize A.new = s
  generalize A.states cs = rs
  induction rs generalizing s with
  | nil => rfl
  | cons c rs ih =>
    rw [foldlM_cons, hm s c, flatten_cons, foldl_append]
    exact ih _

lemma merge_of_firstRow (f : σ → Prop) (mr : σ → τ → σ) {e : ε}
    (hf : ∀ s rs, f s → A.mergeBatch s rs = .ok s)
    (hnil : ∀ s, ¬ f s → A.mergeBatch s [] = .error e)
    (hcon : ∀ s row rs, ¬ f s → A.mergeBatch s (row :: rs) = .ok (mr s row))
    (hk : ∀ s row, f s → mr s row = s) {cs : List (List (List β))} {t : σ} :
    A.merge cs = .ok t ↔ (firstRows (A.states cs)).foldl mr A.new = t ∧ (f t ∨ [] ∉ cs) := by
  -- Once the state is final, neither the calls nor the rows change it.
  have hc : ∀ (s : σ) (rs : List (List τ)), f s → rs.foldlM A.mergeBatch s = .ok s := by
    intro s rs hs
    induction rs with
    | nil => rfl
    | cons c rs ih =>
      rw [foldlM_cons, hf s c hs]
      exact ih
  have hr : ∀ (s : σ) (rs : List τ), f s → rs.foldl mr s = s := fun s rs hs =>
    foldl_fixed' (fun row => hk s row hs) rs
  have he : ([] ∉ cs) = ([] ∉ A.states cs) := by simp [states]
  rw [merge, he]
  generalize A.new = s
  generalize A.states cs = rs
  induction rs generalizing s with
  | nil => simp [firstRows, pure, Except.pure]
  | cons c rs ih =>
    by_cases hs : f s
    · rw [hc s _ hs, hr s _ hs, Except.ok.injEq]
      constructor
      · rintro rfl
        exact ⟨rfl, .inl hs⟩
      · exact And.left
    · cases c with
      | nil =>
        rw [foldlM_cons, hnil s hs, firstRows, foldl_nil]
        constructor
        · intro h
          cases h
        · rintro ⟨rfl, ht | hm⟩
          · exact absurd ht hs
          · simp at hm
      | cons row m =>
        have hm : ([] ∉ (row :: m) :: rs) = ([] ∉ rs) := by simp
        rw [foldlM_cons, hcon s row m hs, firstRows, foldl_cons, hm]
        exact ih _

end Aggregate

lemma foldlM_flatten_eq {β σ ε : Type u} (f : σ → β → Except ε σ) (ls : List (List β)) (acc : σ) :
    ls.foldlM (fun acc l => l.foldlM f acc) acc = ls.flatten.foldlM f acc := by
  induction ls generalizing acc with
  | nil => rfl
  | cons l ls ih =>
    rw [foldlM_cons, flatten_cons, foldlM_append]
    exact bind_congr ih

/-- An aggregate function whose accumulators may refuse a batch. -/
structure FallibleAggregate (β σ τ ρ ε : Type u) where
  new : σ
  updateBatch : σ → β → Except ε σ
  state : σ → τ
  mergeBatch : σ → List τ → Except ε σ
  evaluate : σ → Except ε ρ

namespace FallibleAggregate

variable {β σ τ ρ ε : Type u} (A : FallibleAggregate β σ τ ρ ε)

def accumulate (batches : List β) : Except ε σ :=
  batches.foldlM A.updateBatch A.new

def single (batches : List β) : Except ε ρ :=
  A.accumulate batches >>= A.evaluate

def states (calls : List (List (List β))) : Except ε (List (List τ)) :=
  calls.mapM fun call => call.mapM fun batches => A.state <$> A.accumulate batches

def merge (calls : List (List (List β))) : Except ε σ := do
  let states ← A.states calls
  states.foldlM A.mergeBatch A.new

def run (calls : List (List (List β))) : Except ε ρ :=
  A.merge calls >>= A.evaluate

variable {A}

lemma merge_of_firstRow (mr : σ → τ → σ) {e : ε} {cs : List (List (List β))}
    {states : List (List τ)} (hs : A.states cs = .ok states)
    (hnil : ∀ s, A.mergeBatch s [] = .error e)
    (hc : ∀ s row rs, row :: rs ∈ states → A.mergeBatch s (row :: rs) = .ok (mr s row)) {t : σ} :
    A.merge cs = .ok t ↔ (firstRows states).foldl mr A.new = t ∧ [] ∉ states := by
  rw [merge, hs]
  change states.foldlM A.mergeBatch A.new = .ok t ↔ _
  generalize A.new = s
  clear hs
  induction states generalizing s with
  | nil => simp [firstRows, pure, Except.pure]
  | cons c states ih =>
    cases c with
    | nil =>
      rw [foldlM_cons, hnil]
      exact iff_of_false (fun h => by cases h) fun h => h.2 mem_cons_self
    | cons row rs =>
      have hm : ([] ∉ (row :: rs) :: states) = ([] ∉ states) := by simp
      rw [foldlM_cons, hc s row rs mem_cons_self, firstRows, foldl_cons, hm]
      exact ih (fun s row rs hr => hc s row rs (mem_cons_of_mem _ hr)) _

end FallibleAggregate

end Rustice
