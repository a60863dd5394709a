import Mathlib.Data.List.Basic

/-!
# `CONDITIONAL_TRUE_EVENT`

The window function counts the rows of a partition whose condition is true. It is evaluated over
the whole partition, or row by row with one evaluator.
-/

namespace Rustice

open List

structure ConditionalTrueEventEvaluator where
  prev : Bool := false
  count : ℕ := 0

namespace ConditionalTrueEventEvaluator

variable (self : ConditionalTrueEventEvaluator) (bools : List (Option Bool))

/-- One turn of the loop of `evaluate_all`, which is also the body of `evaluate`. -/
def next (bool : Option Bool) : ConditionalTrueEventEvaluator :=
  let current := bool.getD false
  ⟨current, if current then self.count + 1 else self.count⟩

def evaluateAll : ConditionalTrueEventEvaluator → List (Option Bool) → List ℕ
  | _, [] => []
  | self, bool :: bools => (self.next bool).count :: (self.next bool).evaluateAll bools

def evaluate (rangeEnd : ℕ) : Option (ℕ × ConditionalTrueEventEvaluator) :=
  -- an empty range has no last row
  if rangeEnd = 0 then none
  else bools[rangeEnd - 1]?.map fun bool => ((self.next bool).count, self.next bool)

def evaluateRanges : ConditionalTrueEventEvaluator → List ℕ → Option (List ℕ)
  | _, [] => some []
  | self, rangeEnd :: ends => do
    let (value, self) ← self.evaluate bools rangeEnd
    let values ← self.evaluateRanges ends
    return value :: values

/-- The event numbers as documented: they go up where the condition becomes true. -/
def eventNumbers (prev : Bool) (count : ℕ) : List (Option Bool) → List ℕ
  | [] => []
  | bool :: bools =>
    let current := bool.getD false
    let count := if current && !prev then count + 1 else count
    count :: eventNumbers current count bools

variable {self bools}

lemma evaluateRanges_append (bs : List (Option Bool)) :
    self.evaluateRanges (bs ++ bools) (range' (bs.length + 1) bools.length) =
      some (self.evaluateAll bools) := by
  induction bools generalizing self bs with
  | nil => rfl
  | cons b bools ih =>
    have he : self.evaluate (bs ++ b :: bools) (bs.length + 1) =
        some ((self.next b).count, self.next b) := by simp [evaluate]
    have hr := @ih (self.next b) (bs ++ [b])
    rw [append_assoc, singleton_append, length_append, length_singleton] at hr
    simp [range'_succ, evaluateRanges, he, hr, evaluateAll]

lemma count_next (b : Option Bool) :
    (self.next b).count = self.count + if b = some true then 1 else 0 := by
  rcases b with _ | _ | _ <;> rfl

lemma getElem?_evaluateAll {i : ℕ} (hi : i < bools.length) : (self.evaluateAll bools)[i]? =
    some (self.count + (bools.take (i + 1)).countP (· = some true)) := by
  induction bools generalizing self i with
  | nil => cases hi
  | cons b bools ih =>
    rw [evaluateAll, take_succ_cons, countP_cons]
    cases i with
    | zero => simp [count_next]
    | succ i =>
      rw [getElem?_cons_succ, ih (Nat.lt_of_succ_lt_succ hi), count_next]
      simp only [decide_eq_true_eq, Option.some.injEq]
      omega

/-! ### Main results -/

/-- **Row by row as over the partition**: each value is the number of true rows so far. -/
theorem evaluateRanges_eq_evaluateAll (bools : List (Option Bool)) :
    evaluateRanges bools {} (range' 1 bools.length) = some (evaluateAll {} bools) ∧
      ∀ i < bools.length, (evaluateAll {} bools)[i]? =
        some ((bools.take (i + 1)).countP (· = some true)) := by
  refine ⟨evaluateRanges_append [], fun i hi => ?_⟩
  rw [getElem?_evaluateAll hi, Nat.zero_add]

lemma evaluateAll_eq_iff : self.evaluateAll bools = eventNumbers self.prev self.count bools ↔
    (self.prev :: bools.map (·.getD false)).IsChain fun a b => (a && b) = false := by
  induction bools generalizing self with
  | nil => simp [evaluateAll, eventNumbers]
  | cons b bools ih =>
    have hi := @ih (self.next b)
    rw [evaluateAll, eventNumbers, map_cons, isChain_cons_cons, cons.injEq]
    -- the counts of the row differ only if it and the row before it are true
    cases hp : self.prev <;> cases hb : b.getD false <;> simp_all [next]

/-- **The documented event numbers** come out where no true row follows a true row. -/
theorem evaluateAll_eq_eventNumbers_iff (bools : List (Option Bool)) :
    evaluateAll {} bools = eventNumbers false 0 bools ↔
      (bools.map (·.getD false)).IsChain fun a b => (a && b) = false := by
  refine evaluateAll_eq_iff.trans ?_
  cases bools with
  | nil => simp
  | cons b bools => simp [isChain_cons_cons]

end ConditionalTrueEventEvaluator

end Rustice
