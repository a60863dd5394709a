import Mathlib.Data.List.Dedup

/-!
# Set Operations on Row Lists

The SQL set operations, on lists of rows, with and without `ALL`.
-/

namespace Rustice

open List

inductive SetOperator where
  | union
  | intersect
  | except
  | minus

section

variable {ρ σ : Type*} [DecidableEq ρ] [DecidableEq σ] {e : ρ → σ}

def setOperation (op : SetOperator) (all : Bool) (left right : List ρ) : List ρ :=
  match op, all with
  | .union, true => left ++ right
  | .union, false => (left ++ right).dedup
  | .intersect, true => left.bagInter right
  | .intersect, false => (left.filter (· ∈ right)).dedup
  | .except, true | .minus, true => left.diff right
  | .except, false | .minus, false => (left.filter (· ∉ right)).dedup

lemma map_bagInter (he : Function.Injective e) (l r : List ρ) :
    (l.map e).bagInter (r.map e) = (l.bagInter r).map e := by
  induction l generalizing r with
  | nil => simp
  | cons x l ih =>
    by_cases hx : x ∈ r
    · rw [map_cons, cons_bagInter_of_mem _ hx, cons_bagInter_of_mem _ (mem_map_of_mem hx), map_cons,
        ← map_erase he, ih]
    · rw [map_cons, cons_bagInter_of_not_mem _ hx,
        cons_bagInter_of_not_mem _ fun h => hx ((mem_map_of_injective he).mp h), ih]

lemma setOperation_map (he : Function.Injective e) (op : SetOperator) (a : Bool)
    (l r : List ρ) : setOperation op a (l.map e) (r.map e) = (setOperation op a l r).map e := by
  have hf : ∀ p : σ → Bool, (l.map e).filter p = (l.filter fun x => p (e x)).map e :=
    fun p => filter_map
  cases op <;> cases a <;>
    simp only [setOperation, ← map_append, map_bagInter he,
      map_diff he, hf, mem_map_of_injective he, dedup_map_of_injective he]

end

end Rustice
