import Rustice.Fallible

/-!
# Trees of Plan Nodes

Finitely branching trees with labelled leaves and labelled inner nodes, the shape of a query plan.
-/

namespace Rustice

universe u

inductive PlanTree (L N : Type*) where
  | leaf (l : L)
  | node (n : N) (children : List (PlanTree L N))

namespace PlanTree

variable {L N β : Type*} (f : PlanTree L N → PlanTree L N)

@[elab_as_elim]
lemma induction {motive : PlanTree L N → Prop} (leaf : ∀ l, motive (leaf l))
    (node : ∀ n cs, (∀ c ∈ cs, motive c) → motive (node n cs)) (t : PlanTree L N) : motive t :=
  @PlanTree.rec L N motive (fun ts => ∀ c ∈ ts, motive c) leaf node
    (fun _ h => absurd h List.not_mem_nil)
    (fun _ _ ht hts _ hc => (List.mem_cons.mp hc).elim (fun h => h ▸ ht) (hts _)) t

section Fold

variable (onLeaf ol : L → β) (onNode on : N → List β → β)

mutual

def fold : PlanTree L N → β
  | leaf l => onLeaf l
  | node n cs => onNode n (foldAll cs)

def foldAll : List (PlanTree L N) → List β
  | [] => []
  | t :: ts => fold t :: foldAll ts

end

@[simp] lemma fold_leaf (l : L) : fold ol on (leaf l : PlanTree L N) = ol l := by rw [fold]

lemma foldAll_eq_map (ts : List (PlanTree L N)) : foldAll ol on ts = ts.map (fold ol on) := by
  induction ts with
  | nil => rw [foldAll]; rfl
  | cons t ts ih => rw [foldAll, ih, List.map_cons]

@[simp] lemma fold_node (n : N) (cs : List (PlanTree L N)) :
    fold ol on (node n cs) = on n (cs.map (fold ol on)) := by
  rw [fold, foldAll_eq_map]

end Fold

def transformUp (f : PlanTree L N → PlanTree L N) : PlanTree L N → PlanTree L N :=
  fold (fun l => f (leaf l)) fun n cs => f (node n cs)

@[simp] lemma transformUp_leaf (l : L) : transformUp f (leaf l) = f (leaf l) :=
  fold_leaf _ _ l

@[simp] lemma transformUp_node (n : N)
    (cs : List (PlanTree L N)) : transformUp f (node n cs) = f (node n (cs.map (transformUp f))) :=
  fold_node _ _ n cs

section Substitute

variable {ε : Type*} {L N : Type u}

def substitute (f : L → Except ε (PlanTree L N)) : PlanTree L N → Except ε (PlanTree L N) :=
  fold f fun n cs => (cs.mapM id).map (node n)

@[simp] lemma substitute_leaf (f : L → Except ε (PlanTree L N)) (l : L) :
    substitute f (leaf l) = f l :=
  fold_leaf _ _ l

end Substitute

inductive Subplan (q : PlanTree L N) : PlanTree L N → Prop where
  | refl : Subplan q q
  | child {n : N} {cs : List (PlanTree L N)} {c : PlanTree L N} (hc : c ∈ cs)
      (h : Subplan q c) : Subplan q (node n cs)

lemma Subplan.trans {p q r : PlanTree L N} (hpq : Subplan p q) (hq : Subplan q r) :
    Subplan p r := by
  induction hq with
  | refl => exact hpq
  | child hc _ ih => exact .child hc ih

end PlanTree

end Rustice
