import Rustice.Fallible
import Rustice.NamedRow

/-!
# Logical Plans

A plan has a schema, a list of column names, and evaluates to rows.
-/

namespace Rustice

open List

variable {V : Type} {es : List (String × String)}

structure SortExpr where
  expr : String
  asc : Bool
  nullsFirst : Bool

inductive AggrExpr (V : Type) where
  | aggregateFunction (name : String) (orderBy : List SortExpr)
      (kernel : List (NamedRow V) → Option V)
  | aliased (expr : AggrExpr V) (name : String)
  | cast (expr : AggrExpr V) (kernel : Option V → Option V)
  | tryCast (expr : AggrExpr V) (kernel : Option V → Option V)
  | other (name : String) (kernel : List (NamedRow V) → Option V)

def AggrExpr.schemaName : AggrExpr V → String
  | aggregateFunction name _ _ => name
  | aliased _ name => name
  | cast expr _ => expr.schemaName
  | tryCast expr _ => expr.schemaName
  | other name _ => name

def AggrExpr.eval (rows : List (NamedRow V)) : AggrExpr V → Option V
  | aggregateFunction _ _ kernel => kernel rows
  | aliased expr _ => expr.eval rows
  | cast expr kernel => kernel (expr.eval rows)
  | tryCast expr kernel => kernel (expr.eval rows)
  | other _ kernel => kernel rows

abbrev GroupExpr (V : Type) := String × (NamedRow V → Option V)

inductive GroupBy (V : Type) where
  | plain (exprs : List (GroupExpr V))
  | groupingSets (exprs : List (GroupExpr V)) (sets : List (List String))
      (groupingId : List String → V)

abbrev Group (V : Type) := List (Option V) × List (NamedRow V)

namespace GroupBy

def names : GroupBy V → List String
  | plain exprs => exprs.map Prod.fst
  | groupingSets exprs _ _ => exprs.map Prod.fst ++ ["__grouping_id"]

def rowKeys (row : NamedRow V) : GroupBy V → List (List (Option V))
  | plain exprs => [exprs.map fun e => e.2 row]
  | groupingSets exprs sets groupingId =>
    sets.map fun set =>
      (exprs.map fun e => if e.1 ∈ set then e.2 row else none) ++ [some (groupingId set)]

def groups [DecidableEq V] (group : GroupBy V) (rows : List (NamedRow V)) :
    List (Group V) :=
  if group.names = [] then [([], rows)]
  else
    (rows.flatMap fun row => group.rowKeys row).dedup.map fun key =>
      (key, rows.filter fun row => key ∈ group.rowKeys row)

variable [DecidableEq V] {gr : GroupBy V}

lemma nodup_keys_groups (gr : GroupBy V) (rs : List (NamedRow V)) :
    ((gr.groups rs).map Prod.fst).Nodup := by
  rw [groups]
  split
  · simp
  · rw [map_map, show Prod.fst ∘ (fun key : List (Option V) =>
      (key, rs.filter fun row => key ∈ gr.rowKeys row)) = id from rfl, map_id]
    exact nodup_dedup _

omit [DecidableEq V] in
lemma length_of_mem_rowKeys {r : NamedRow V} {k : List (Option V)} (h : k ∈ gr.rowKeys r) :
    k.length = gr.names.length := by
  cases gr with
  | plain es =>
    obtain rfl := mem_singleton.mp h
    simp [names]
  | groupingSets es sets groupingId =>
    obtain ⟨set, -, rfl⟩ := mem_map.mp h
    simp [names]

lemma length_key_of_mem_groups {rs : List (NamedRow V)}
    {g : Group V} (hg : g ∈ gr.groups rs) : g.1.length = gr.names.length := by
  rw [groups] at hg
  split at hg
  case isTrue hn =>
    obtain rfl := mem_singleton.mp hg
    simp [hn]
  case isFalse =>
    obtain ⟨key, hk, rfl⟩ := mem_map.mp hg
    obtain ⟨row, -, hr⟩ := mem_flatMap.mp (mem_dedup.mp hk)
    exact length_of_mem_rowKeys hr

lemma groups_of_names_eq_nil (h : gr.names = [])
    (rs : List (NamedRow V)) : gr.groups rs = [([], rs)] :=
  if_pos h

end GroupBy

inductive LogicalPlan (V : Type) where
  | scan (columns : List String) (rows : List (NamedRow V))
  | aggregate (input : LogicalPlan V) (group : GroupBy V) (aggrExpr : List (AggrExpr V))
  | projection (input : LogicalPlan V) (exprs : List (String × String))
  | join (left right : LogicalPlan V) (on : List (String × String))
  | crossJoin (left right : LogicalPlan V)

def aggregateRow (group : GroupBy V) (aggrExpr : List (AggrExpr V)) (g : Group V) :
    NamedRow V :=
  bindRow (group.names ++ aggrExpr.map AggrExpr.schemaName)
    (g.1 ++ aggrExpr.map (AggrExpr.eval g.2))

lemma map_aggregateRow {gr : GroupBy V} {ae : List (AggrExpr V)}
    (hnd : (gr.names ++ ae.map AggrExpr.schemaName).Nodup) {g : Group V}
    (hlen : g.1.length = gr.names.length) : gr.names.map (aggregateRow gr ae g) = g.1 ∧
      ∀ a ∈ ae, aggregateRow gr ae g a.schemaName = a.eval g.2 := by
  have hmap : (gr.names ++ ae.map AggrExpr.schemaName).map
      (aggregateRow gr ae g) = g.1 ++ ae.map (AggrExpr.eval g.2) :=
    map_bindRow hnd (by simp [hlen])
  rw [map_append, map_map] at hmap
  obtain ⟨hk, hv⟩ := append_inj hmap (by simp [hlen])
  exact ⟨hk, map_inj_left.mp hv⟩

namespace LogicalPlan

def schema : LogicalPlan V → List String
  | scan columns _ => columns
  | aggregate _ group aggrExpr => group.names ++ aggrExpr.map AggrExpr.schemaName
  | projection _ exprs => exprs.map Prod.snd
  | join left right _ => left.schema ++ right.schema
  | crossJoin left right => left.schema ++ right.schema

variable [DecidableEq V]

def eval : LogicalPlan V → List (NamedRow V)
  | scan _ rows => rows
  | aggregate input group aggrExpr =>
    (group.groups input.eval).map (aggregateRow group aggrExpr)
  | projection input exprs =>
    input.eval.map fun row => bindRow (exprs.map Prod.snd) (exprs.map fun e => row e.1)
  | join left right on =>
    (innerJoin (fun l r => keysEq (on.map fun p => l p.1) (on.map fun p => r p.2))
      left.eval right.eval).map fun p => mergeRows left.schema p.1 p.2
  | crossJoin left right =>
    (innerJoin (fun _ _ => some true) left.eval right.eval).map fun p =>
      mergeRows left.schema p.1 p.2

def tuples (plan : LogicalPlan V) : List (List (Option V)) :=
  plan.eval.map fun row => plan.schema.map row

lemma tuples_aggregate {i : LogicalPlan V} {gr : GroupBy V}
    {ae : List (AggrExpr V)} (hnd : (aggregate i gr ae).schema.Nodup) : (aggregate i gr ae).tuples =
      (gr.groups i.eval).map fun g => g.1 ++ ae.map (AggrExpr.eval g.2) := by
  rw [tuples, eval, map_map]
  refine map_congr_left fun g hg => ?_
  obtain ⟨hk, hv⟩ :=
    map_aggregateRow hnd (GroupBy.length_key_of_mem_groups hg)
  rw [Function.comp_apply, schema, map_append, hk, map_map]
  exact congrArg _ (map_congr_left hv)

lemma tuples_projection {i : LogicalPlan V}
    (hnd : (es.map Prod.snd).Nodup) : (projection i es).tuples =
      i.eval.map fun row => (es.map Prod.fst).map row := by
  rw [tuples, eval, map_map]
  refine map_congr_left fun row _ => ?_
  rw [Function.comp_apply, schema, map_bindRow hnd (by simp), map_map]
  rfl

lemma tuples_projection_schema (p : LogicalPlan V) (hnd : p.schema.Nodup) :
    (projection p (p.schema.map fun n => (n, n))).tuples = p.tuples := by
  have hfst : (p.schema.map fun n => (n, n)).map Prod.fst = p.schema := by simp [Function.comp_def]
  have hsnd : (p.schema.map fun n => (n, n)).map Prod.snd = p.schema := by simp [Function.comp_def]
  rw [tuples_projection (by rwa [hsnd]), hfst, tuples]

end LogicalPlan

inductive PlanError where
  | fieldNotFound (name : String)
  | ambiguousReference (schema : List String)
  | internal (message : String)

namespace LogicalPlan

variable {plan p : LogicalPlan V}

def checkNames (plan : LogicalPlan V) : Except PlanError (LogicalPlan V) :=
  if plan.schema.Nodup then .ok plan else .error (.ambiguousReference plan.schema)

def checkColumns (schema names : List String) : Except PlanError Unit :=
  match names.find? fun n => n ∉ schema with
  | some n => .error (.fieldNotFound n)
  | none => .ok ()

def buildAggregate (input : LogicalPlan V) (group : GroupBy V)
    (aggrExpr : List (AggrExpr V)) : Except PlanError (LogicalPlan V) :=
  checkNames (.aggregate input group aggrExpr)

def buildProject (input : LogicalPlan V) (exprs : List (String × String)) :
    Except PlanError (LogicalPlan V) := do
  checkColumns input.schema (exprs.map Prod.fst)
  checkNames (.projection input exprs)

def buildJoinOn (left right : LogicalPlan V) (on : List (String × String)) :
    Except PlanError (LogicalPlan V) := do
  checkColumns left.schema (on.map Prod.fst)
  checkColumns right.schema (on.map Prod.snd)
  checkNames (.join left right on)

def buildCrossJoin (left right : LogicalPlan V) : Except PlanError (LogicalPlan V) :=
  checkNames (.crossJoin left right)

lemma checkNames_eq_ok : checkNames plan = .ok p ↔ plan.schema.Nodup ∧ p = plan := by
  rw [checkNames]
  split
  case isTrue h => simp [h, eq_comm]
  case isFalse h => simp [h]

lemma buildProject_eq_ok
    (h : buildProject plan es = .ok p) : p = .projection plan es ∧ (es.map Prod.snd).Nodup := by
  obtain ⟨-, -, h⟩ := bind_eq_ok.mp h
  obtain ⟨hnd, r⟩ := checkNames_eq_ok.mp h
  exact ⟨r, hnd⟩

lemma buildJoinOn_eq_ok {l r : LogicalPlan V}
    (h : buildJoinOn l r es = .ok p) : p = .join l r es ∧ (l.schema ++ r.schema).Nodup := by
  obtain ⟨-, -, h⟩ := bind_eq_ok.mp h
  obtain ⟨-, -, h⟩ := bind_eq_ok.mp h
  obtain ⟨hnd, rf⟩ := checkNames_eq_ok.mp h
  exact ⟨rf, hnd⟩

end LogicalPlan

end Rustice
