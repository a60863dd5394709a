import Rustice.Join
import Rustice.PlanTree

/-!
# `RemoveExecAboveEmpty`

A physical plan is a tree whose leaves are `EmptyExec` and row sources and whose inner nodes are
operators.
-/

namespace Rustice

open List

inductive JoinType where
  | inner | left | right | full
  | leftSemi | rightSemi | leftAnti | rightAnti | leftMark | rightMark

inductive Operator (ρ : Type*) where
  | filter (predicate : ρ → Bool)
  | projection (exprs : ρ → ρ)
  | sort (le : ρ → ρ → Bool)
  | limit (skip : ℕ) (fetch : Option ℕ)
  | join (type : JoinType) (on : ρ → ρ → Truth) (output : JoinRow ρ ρ → ρ)
      (mark : ρ → Bool → ρ)
  | union
  | aggregate (groups : List ρ → List ρ)
  | sink (result : List ρ → ρ)

inductive PlanLeaf (σ ρ : Type*) where
  | emptyExec (schema : σ)
  | source (schema : σ) (rows : List ρ)

structure ExecNode (σ ρ : Type*) where
  schema : σ
  op : Operator ρ

abbrev PhysicalPlan (σ ρ : Type*) := PlanTree (PlanLeaf σ ρ) (ExecNode σ ρ)

section Joins

variable {ρ : Type*}

/-- The rows of the full join that the outer sides keep. -/
def outerJoin (keepLeft keepRight : Bool) (on : ρ → ρ → Truth) (l r : List ρ) :
    List (JoinRow ρ ρ) :=
  (fullJoin on l r).filter fun
    | .both _ _ => true
    | .left _ => keepLeft
    | .right _ => keepRight

def joinExec (type : JoinType) (on : ρ → ρ → Truth) (output : JoinRow ρ ρ → ρ)
    (mark : ρ → Bool → ρ) (l r : List ρ) : List ρ :=
  match type with
  | .inner => (outerJoin false false on l r).map output
  | .left => (outerJoin true false on l r).map output
  | .right => (outerJoin false true on l r).map output
  | .full => (outerJoin true true on l r).map output
  | .leftSemi => leftSemiJoin on l r
  | .rightSemi => leftSemiJoin (fun b a => on a b) r l
  | .leftAnti => unmatchedRight (fun b a => on a b) r l
  | .rightAnti => unmatchedRight on l r
  | .leftMark => l.map fun a => mark a (r.any (joins on a))
  | .rightMark => r.map fun b => mark b (l.any fun a => joins on a b)

lemma joinExec_nil_nil (ty : JoinType) (on : ρ → ρ → Truth) (o : JoinRow ρ ρ → ρ)
    (m : ρ → Bool → ρ) : joinExec ty on o m [] [] = [] := by
  cases ty <;> rfl

end Joins

variable {σ ρ : Type*} {i1 : List (List ρ)} {op : Operator ρ}

namespace Operator

def apply : Operator ρ → List (List ρ) → List ρ
  | filter predicate, inputs => (inputs.getD 0 []).filter predicate
  | projection exprs, inputs => (inputs.getD 0 []).map exprs
  | sort le, inputs => (inputs.getD 0 []).mergeSort le
  | limit skip none, inputs => (inputs.getD 0 []).drop skip
  | limit skip (some n), inputs => ((inputs.getD 0 []).drop skip).take n
  | join type on output mark, inputs =>
    joinExec type on output mark (inputs.getD 0 []) (inputs.getD 1 [])
  | union, inputs => inputs.flatten
  | aggregate groups, inputs => groups (inputs.getD 0 [])
  -- the row counts of a statement, returned on empty input as well
  | sink result, inputs => [result (inputs.getD 0 [])]

def isAggregate : Operator ρ → Bool
  | aggregate _ => true
  | _ => false

def isSink : Operator ρ → Bool
  | sink _ => true
  | _ => false

lemma getD_eq_nil (h : ∀ rs ∈ i1, rs = []) (i : ℕ) : i1.getD i [] = [] := by
  rw [getD_eq_getElem?_getD]
  cases hi : i1[i]? with
  | none => rfl
  | some rs => exact h rs (mem_of_getElem? hi)

lemma apply_of_inputs_empty (ha : op.isAggregate = false) (hs : op.isSink = false)
    (h : ∀ rs ∈ i1, rs = []) : op.apply i1 = [] := by
  cases op with
  | filter predicate => rw [apply, getD_eq_nil h]; rfl
  | projection exprs => rw [apply, getD_eq_nil h]; rfl
  | sort le => rw [apply, getD_eq_nil h, mergeSort_nil]
  | limit skip f =>
    cases f <;> simp only [apply, getD_eq_nil h, drop_nil, take_nil]
  | join type on output mark => rw [apply, getD_eq_nil h, getD_eq_nil h, joinExec_nil_nil]
  | union => exact flatten_eq_nil_iff.mpr h
  | aggregate groups => cases ha
  | sink result => cases hs

lemma apply_ne_nil_of_isSink (hs : op.isSink = true) (i1 : List (List ρ)) : op.apply i1 ≠ [] := by
  cases op with
  | sink result => exact cons_ne_nil _ _
  | _ => cases hs

end Operator

open PlanTree

namespace PhysicalPlan

def schema : PhysicalPlan σ ρ → σ
  | .leaf (.emptyExec s) => s
  | .leaf (.source s _) => s
  | .node n _ => n.schema

def children : PhysicalPlan σ ρ → List (PhysicalPlan σ ρ)
  | .leaf _ => []
  | .node _ cs => cs

def exec : PhysicalPlan σ ρ → List ρ :=
  fold (fun | .emptyExec _ => [] | .source _ rows => rows)
    fun n inputs => n.op.apply inputs

def isEmptyExec : PhysicalPlan σ ρ → Bool
  | .leaf (.emptyExec _) => true
  | _ => false

def containsAggregates : PhysicalPlan σ ρ → Bool :=
  fold (fun _ => false) fun n below => n.op.isAggregate || below.any id

variable {plan p : PhysicalPlan σ ρ} (n : ExecNode σ ρ) (l : PlanLeaf σ ρ)
  (cs : List (PhysicalPlan σ ρ))

def removeExec (plan : PhysicalPlan σ ρ) : PhysicalPlan σ ρ :=
  if plan.isEmptyExec || plan.containsAggregates then plan
  else
    let inputs := plan.children
    if inputs.isEmpty then plan
    else if inputs.all isEmptyExec then .leaf (.emptyExec plan.schema)
    else plan

def optimize : PhysicalPlan σ ρ → PhysicalPlan σ ρ :=
  transformUp removeExec

lemma exec_node : exec (.node n cs) = n.op.apply (cs.map exec) :=
  fold_node _ _ n cs

lemma containsAggregates_node :
    containsAggregates (.node n cs) = (n.op.isAggregate || cs.any containsAggregates) := by
  rw [containsAggregates, fold_node, any_map]
  rfl

lemma exec_of_isEmptyExec (h : p.isEmptyExec = true) : exec p = [] := by
  match p, h with
  | .leaf (.emptyExec _), _ => exact fold_leaf _ _ _

lemma containsAggregates_of_isEmptyExec
    (h : p.isEmptyExec = true) : containsAggregates p = false := by
  match p, h with
  | .leaf (.emptyExec _), _ => exact fold_leaf _ _ _

lemma removeExec_leaf : removeExec (.leaf l) = .leaf l := by
  simp [removeExec, children]

lemma removeExec_node :
    removeExec (.node n cs) = if !n.op.isAggregate && !cs.isEmpty && cs.all isEmptyExec then
        .leaf (.emptyExec n.schema) else .node n cs := by
  have hb : cs.all isEmptyExec = true → cs.any containsAggregates = false := by
    intro ha
    simp only [all_eq_true] at ha
    simpa only [any_eq_false, Bool.not_eq_true] using
      fun c hc => containsAggregates_of_isEmptyExec (ha c hc)
  simp only [removeExec, isEmptyExec, containsAggregates_node, children, schema]
  by_cases ha : cs.all isEmptyExec = true
  · by_cases hne : cs.isEmpty = true <;> cases n.op.isAggregate <;>
      simp [ha, hb ha, hne]
  · simp [ha]

lemma optimize_leaf : optimize (.leaf l) = .leaf l := by
  rw [optimize, transformUp_leaf, removeExec_leaf]

lemma optimize_node : optimize (.node n cs) =
    if !n.op.isAggregate && !cs.isEmpty && cs.all (fun c => (optimize c).isEmptyExec) then
      .leaf (.emptyExec n.schema) else .node n (cs.map optimize) := by
  rw [optimize, transformUp_node, removeExec_node, isEmpty_map, all_map]
  rfl

def collapses : PhysicalPlan σ ρ → Bool :=
  fold (fun | .emptyExec _ => true | .source _ _ => false)
    fun n below => !n.op.isAggregate && !below.isEmpty && below.all id

lemma collapses_node :
    collapses (.node n cs) = (!n.op.isAggregate && !cs.isEmpty && cs.all collapses) := by
  rw [collapses, fold_node, isEmpty_map, all_map]
  rfl

lemma isEmptyExec_optimize (plan : PhysicalPlan σ ρ) :
    (optimize plan).isEmptyExec = collapses plan := by
  induction plan using PlanTree.induction with
  | leaf l =>
    rw [optimize_leaf]
    cases l <;> rfl
  | node n cs ih =>
    have ha : cs.all (fun c => (optimize c).isEmptyExec) = cs.all collapses := by
      rw [Bool.eq_iff_iff, all_eq_true, all_eq_true]
      exact forall₂_congr fun c hc => by rw [ih c hc]
    rw [optimize_node, collapses_node, ha]
    split
    case isTrue h => rw [h]; rfl
    case isFalse h => rw [Bool.not_eq_true _ |>.mp h]; rfl

def starvedSink : PhysicalPlan σ ρ → Bool
  | .leaf _ => false
  | .node n cs => n.op.isSink && !cs.isEmpty && cs.all collapses

lemma exec_ne_nil_of_starvedSink (h : p.starvedSink = true) : exec p ≠ [] := by
  cases p with
  | leaf l => cases h
  | node n cs =>
    simp only [starvedSink, Bool.and_eq_true] at h
    rw [exec_node]
    exact Operator.apply_ne_nil_of_isSink h.1.1 _

lemma exec_optimize_of_starvedSink (h : p.starvedSink = true) : exec (optimize p) = [] := by
  apply exec_of_isEmptyExec
  cases p with
  | leaf l => cases h
  | node n cs =>
    simp only [starvedSink, Bool.and_eq_true] at h
    obtain ⟨⟨hs, hne⟩, hal⟩ := h
    have ha : n.op.isAggregate = false := by
      cases ho : n.op <;> simp_all [Operator.isSink, Operator.isAggregate]
    rw [isEmptyExec_optimize, collapses_node, ha, hne, hal]
    rfl

lemma exec_optimize_node {n : ExecNode σ ρ} {cs : List (PhysicalPlan σ ρ)}
    (hcs : ∀ c ∈ cs, exec (optimize c) = exec c) (hf : starvedSink (.node n cs) = false) :
    exec (optimize (.node n cs)) = exec (.node n cs) := by
  rw [optimize_node]
  split
  case isTrue h =>
    simp only [Bool.and_eq_true, Bool.not_eq_true', all_eq_true] at h
    obtain ⟨⟨ha, hne⟩, he⟩ := h
    have hcol : cs.all collapses = true := by
      simpa only [all_eq_true, isEmptyExec_optimize] using he
    have hs : n.op.isSink = false := by simpa [starvedSink, hne, hcol] using hf
    have hi : ∀ rs ∈ cs.map exec, rs = [] := by
      simp only [mem_map, forall_exists_index, and_imp, forall_apply_eq_imp_iff₂]
      intro c hc
      rw [← hcs c hc, exec_of_isEmptyExec (he c hc)]
    rw [exec_node, Operator.apply_of_inputs_empty ha hs hi]
    exact fold_leaf _ _ _
  case isFalse =>
    have hr : (cs.map optimize).map exec = cs.map exec := by
      rw [map_map]
      exact map_congr_left hcs
    rw [exec_node, exec_node, hr]

lemma exec_optimize (plan : PhysicalPlan σ ρ)
    (hf : ∀ q, PlanTree.Subplan q plan → starvedSink q = false) :
    exec (optimize plan) = exec plan := by
  induction plan using PlanTree.induction with
  | leaf l => rw [optimize_leaf]
  | node n cs ih =>
    refine exec_optimize_node (fun c hc => ih c hc ?_) (hf _ .refl)
    exact fun q hq => hf q (.child hc hq)

def isSink : PhysicalPlan σ ρ → Bool
  | .leaf _ => false
  | .node n _ => n.op.isSink

lemma starvedSink_of_isSink_false (h : p.isSink = false) : starvedSink p = false := by
  cases p with
  | leaf l => rfl
  | node n cs =>
    have ho : n.op.isSink = false := h
    simp only [starvedSink, ho, Bool.false_and]

lemma not_starved_of_root (hr : ∀ c ∈ p.children, ∀ q, PlanTree.Subplan q c → isSink q = false)
    (hp : starvedSink p = false) (q : PhysicalPlan σ ρ) (hq : PlanTree.Subplan q p) :
    starvedSink q = false := by
  cases hq with
  | refl => exact hp
  | child hc h => exact starvedSink_of_isSink_false (hr _ hc q h)

lemma exec_optimize_ne_of_starvedSink
    (h : plan.starvedSink = true) : exec (optimize plan) ≠ exec plan := by
  rw [exec_optimize_of_starvedSink h]
  exact (exec_ne_nil_of_starvedSink h).symm

/-! ### Main result -/

/-- **The rule preserves results exactly where no sink is starved.** -/
theorem optimize_preserves_rows_iff (plan : PhysicalPlan σ ρ) :
    ((∀ q, PlanTree.Subplan q plan → exec (optimize q) = exec q) ↔
      ∀ q, PlanTree.Subplan q plan → starvedSink q = false) ∧
    ((∀ c ∈ plan.children, ∀ q, PlanTree.Subplan q c → isSink q = false) →
      (exec (optimize plan) = exec plan ↔ starvedSink plan = false)) := by
  refine ⟨⟨fun hp q hq => ?_, fun hf q hq => ?_⟩, fun hr => ⟨fun hp => ?_, ?_⟩⟩
  · rw [← Bool.not_eq_true]
    exact fun hs => exec_optimize_ne_of_starvedSink hs (hp q hq)
  · exact exec_optimize q fun q' hq' => hf q' (hq'.trans hq)
  · rw [← Bool.not_eq_true]
    exact fun hs => exec_optimize_ne_of_starvedSink hs hp
  · exact fun hpl => exec_optimize plan (not_starved_of_root hr hpl)

def insertPlan (source : PhysicalPlan (List String) ℕ) : PhysicalPlan (List String) ℕ :=
  .node ⟨["count"], .sink List.length⟩ [.node ⟨["id"], .projection id⟩ [source]]

theorem optimize_loses_row_count :
    exec (insertPlan (.leaf (.emptyExec ["id"]))) = [0] ∧
      exec (optimize (insertPlan (.leaf (.emptyExec ["id"])))) = [] :=
  ⟨rfl, rfl⟩

theorem optimize_preserves_rows_of_insert :
    exec (optimize (insertPlan (.leaf (.source ["id"] [7])))) =
      exec (insertPlan (.leaf (.source ["id"] [7]))) := by
  refine ((optimize_preserves_rows_iff _).2 ?_).mpr rfl
  intro c hc q hq
  obtain rfl := mem_singleton.mp hc
  cases hq with
  | refl => rfl
  | child hc h =>
    obtain rfl := mem_singleton.mp hc
    cases h
    rfl

end PhysicalPlan

end Rustice
