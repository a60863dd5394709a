import Rustice.AsciiCase
import Rustice.QueryTree

/-!
# Session Functions

`current_database()`, `last_query_id()` and their like are registered as stubs that know nothing of
the session.
-/

namespace Rustice

inductive SessionFunction where
  | currentDatabase
  | currentSchema
  | currentWarehouse
  | currentRoleType
  | currentRole
  | currentVersion
  | currentClient
  | currentSession
  | lastQueryId
  | currentIpAddress
  | currentSchemas
  | systemCancelQuery

namespace SessionFunction

def name : SessionFunction → String
  | currentDatabase => "current_database"
  | currentSchema => "current_schema"
  | currentWarehouse => "current_warehouse"
  | currentRoleType => "current_role_type"
  | currentRole => "current_role"
  | currentVersion => "current_version"
  | currentClient => "current_client"
  | currentSession => "current_session"
  | lastQueryId => "last_query_id"
  | currentIpAddress => "current_ip_address"
  | currentSchemas => "current_schemas"
  | systemCancelQuery => "system$cancel_query"

def all : List SessionFunction :=
  [currentDatabase, currentSchema, currentWarehouse, currentRoleType, currentRole, currentVersion,
    currentClient, currentSession, lastQueryId, currentIpAddress, currentSchemas,
    systemCancelQuery]

def ofName (name : String) : Option SessionFunction :=
  all.find? fun function => function.name = toAsciiLowercase name

end SessionFunction

def IsSession (name : String) : Prop := (SessionFunction.ofName name).isSome

instance (name : String) : Decidable (IsSession name) := inferInstanceAs (Decidable (_ = true))

inductive SessionScalar (V : Type) where
  | utf8 (value : Option String)
  | list (items : List String)
  | other (value : V)

structure SessionContextExprRewriter (V U : Type) where
  database : String
  schema : String
  schemas : List String
  warehouse : String
  sessionId : String
  version : String
  ipAddress : Option String
  recentQueries : List String
  toI64 : V → Option Int
  parseUuid : String → Option U
  abort : U → Bool
  displayUuid : U → String

def getQueryByIndex (queries : List String) (index : Int) : Option String :=
  if index < 0 then
    -- `checked_abs` has no result for the least `i64`
    if index = -9223372036854775808 then none else queries[(-index - 1).toNat]?
  else if 0 < index then
    if index.toNat ≤ queries.length then queries[queries.length - index.toNat]? else none
  else none

namespace SessionContextExprRewriter

variable {V U : Type} (rewriter : SessionContextExprRewriter V U)

def lastQueryId (index : Int) : SessionScalar V :=
  .utf8 (some ((getQueryByIndex rewriter.recentQueries index).getD ""))

def cancelQuery (queryId : String) : SessionScalar V :=
  match rewriter.parseUuid queryId with
  | none => .utf8 (some "Invalid UUID.")
  | some id =>
    if rewriter.abort id then
      .utf8 (some ("query [" ++ rewriter.displayUuid id ++ "] terminated."))
    else .utf8 (some "Identified SQL statement is not currently executing.")

def queryIndex : Option (SessionScalar V) → Int
  | some (.other v) => (rewriter.toI64 v).getD (-1)
  | _ => -1

def value (function : SessionFunction) (arg : Option (SessionScalar V)) : SessionScalar V :=
  match function with
  | .currentDatabase => .utf8 (some rewriter.database)
  | .currentSchema => .utf8 (some rewriter.schema)
  | .currentWarehouse => .utf8 (some rewriter.warehouse)
  | .currentRoleType => .utf8 (some "ROLE")
  | .currentRole => .utf8 (some "default")
  | .currentVersion => .utf8 (some rewriter.version)
  | .currentClient => .utf8 (some ("Embucket " ++ rewriter.version))
  | .currentSession => .utf8 (some rewriter.sessionId)
  | .lastQueryId => rewriter.lastQueryId (rewriter.queryIndex arg)
  | .currentIpAddress => .utf8 (some (rewriter.ipAddress.getD ""))
  | .currentSchemas => .list rewriter.schemas
  | .systemCancelQuery =>
    rewriter.cancelQuery (match arg with
      | some (.utf8 (some queryId)) => queryId
      | _ => "")

variable {L O : Type}

def fUp : QueryExpr L O (SessionScalar V) → QueryExpr L O (SessionScalar V) :=
  replaceCall SessionFunction.ofName rewriter.value

def rewriteExpr (expr : QueryExpr L O (SessionScalar V)) : QueryExpr L O (SessionScalar V) :=
  expr.rewrite false rewriter.fUp

end SessionContextExprRewriter

open QueryExpr

/-- `with_new_exprs` keeps the expressions, up to aliases. -/
structure PlanEnv (L O V ε : Type) where
  withNewExprs : L → List (QueryExpr L O V) → List (QueryPlan L O V) → Except ε (QueryPlan L O V)
  eq_node : ∀ {label exprs inputs plan}, withNewExprs label exprs inputs = .ok plan →
    ∃ exprs', plan = .node label exprs' inputs ∧ exprs'.map erase = exprs.map erase

namespace PlanEnv

variable {L O V U ε : Type} (env : PlanEnv L O (SessionScalar V) ε)
  (rewriter : SessionContextExprRewriter V U)

def rewritePlan : QueryPlan L O (SessionScalar V) → Except ε (QueryPlan L O (SessionScalar V))
  | .node label exprs inputs =>
    env.withNewExprs label (exprs.map rewriter.rewriteExpr) inputs

/-- Up to aliases, the old plan with every call replaced. -/
def SessionCallsReplaced (plan plan' : QueryPlan L O (SessionScalar V)) : Prop :=
  ¬plan'.Calls IsSession ∧ plan'.erase = (plan.rewrite true rewriter.fUp).erase

/-- All calls stand in the top node, outside of subqueries. -/
def CallsOnTop : QueryPlan L O V → Prop
  | .node _ exprs inputs =>
    (∀ e ∈ exprs, ¬e.Missed IsSession) ∧ ∀ i ∈ inputs, ¬i.Calls IsSession

variable {env rewriter} {plan plan' : QueryPlan L O (SessionScalar V)}

/-! ### Main result -/

/-- **Session functions** are replaced exactly at the top node, outside of subqueries. -/
theorem sessionCallsReplaced_iff (h : env.rewritePlan rewriter plan = .ok plan') :
    SessionCallsReplaced rewriter plan plan' ↔ CallsOnTop plan := by
  obtain ⟨l, exprs, inputs⟩ := plan
  obtain ⟨exprs', rfl, her⟩ := env.eq_node h
  have hcal : (∃ e ∈ exprs', e.Calls IsSession) ↔ ∃ e ∈ exprs, e.Missed IsSession := by
    have hers : (∃ e ∈ exprs'.map erase, e.Calls IsSession) ↔ ∃ e ∈ exprs', e.Calls IsSession :=
      exists_mem_map_congr fun e _ => calls_erase_both.1 e
    rw [← hers, her, List.map_map]
    refine exists_mem_map_congr fun e _ => ?_
    rw [Function.comp_apply, calls_erase_both.1]
    exact calls_rewrite_iff e
  constructor
  · rintro ⟨hn, -⟩
    rw [QueryPlan.calls_node, not_or, hcal] at hn
    exact ⟨fun e he hmis => hn.1 ⟨e, he, hmis⟩, fun i hi hc => hn.2 ⟨i, hi, hc⟩⟩
  · rintro ⟨hex, hin⟩
    refine ⟨?_, ?_⟩
    · rw [QueryPlan.calls_node, not_or, hcal]
      exact ⟨fun ⟨e, he, hm⟩ => hex e he hm, fun ⟨i, hi, hc⟩ => hin i hi hc⟩
    · -- the shallow pass has replaced what the deep one would have, and there is nothing below
      have ht : exprs.map rewriter.rewriteExpr = exprs.map (QueryExpr.rewrite true rewriter.fUp) :=
        List.map_congr_left fun e he => rewrite_eq_of_not_missed e (hex e he)
      have hb : inputs.map (QueryPlan.rewrite true rewriter.fUp) = inputs :=
        (List.map_congr_left fun i hi => rewrite_eq_self_both.2 i (hin i hi)).trans
          (List.map_id' inputs)
      have hnod : ∀ es is, (QueryPlan.node l es is : QueryPlan L O (SessionScalar V)).erase =
          .node l (es.map erase) (is.map QueryPlan.erase) := fun es is =>
        QueryPlan.rewrite_node ..
      rw [QueryPlan.rewrite_node, hb, ← ht, hnod, hnod, her]

inductive NodeKind where
  | projection
  | filter
  | emptyRelation

inductive ExprKind where
  | column (name : String)
  | eq

def publicRewriter : SessionContextExprRewriter Int Unit where
  database := "embucket"
  schema := "public"
  schemas := []
  warehouse := "default"
  sessionId := "s1"
  version := "0.1.0"
  ipAddress := none
  recentQueries := []
  toI64 := some
  parseUuid := fun _ => none
  abort := fun _ => false
  displayUuid := fun _ => ""

def anyNode : PlanEnv NodeKind ExprKind (SessionScalar Int) Unit where
  withNewExprs := fun label exprs inputs => .ok (.node label exprs inputs)
  eq_node := fun h => ⟨_, (Except.ok.inj h).symm, rfl⟩

def selectSchema : QueryPlan NodeKind ExprKind (SessionScalar Int) :=
  .node .projection [.scalarFunction "current_schema" []] [.node .emptyRelation [] []]

def whereSchema : QueryPlan NodeKind ExprKind (SessionScalar Int) :=
  .node .projection [.other (.column "name") [] []]
    [.node .filter
      [.other .eq [.other (.column "schema") [] [], .scalarFunction "current_schema" []] []]
      [.node .emptyRelation [] []]]

theorem selectSchema_replaced :
    ∃ plan', anyNode.rewritePlan publicRewriter selectSchema = .ok plan' ∧
      SessionCallsReplaced publicRewriter selectSchema plan' := by
  obtain ⟨plan', h⟩ : ∃ plan', anyNode.rewritePlan publicRewriter selectSchema = .ok plan' :=
    ⟨_, rfl⟩
  refine ⟨plan', h, (sessionCallsReplaced_iff h).mpr ⟨?_, ?_⟩⟩
  · simp
  · simp

theorem whereSchema_not_replaced :
    ∃ plan', anyNode.rewritePlan publicRewriter whereSchema = .ok plan' ∧
      plan'.Calls IsSession ∧ ¬SessionCallsReplaced publicRewriter whereSchema plan' := by
  have hcal : IsSession "current_schema" := by decide +kernel
  have hc : whereSchema.Calls IsSession :=
    .input (.head _) (.expr (.head _) (.child (.tail _ (.head _)) (.call hcal)))
  refine ⟨whereSchema, ?_, hc, fun h => h.1 hc⟩
  simp [whereSchema, rewritePlan, anyNode, SessionContextExprRewriter.rewriteExpr,
    SessionContextExprRewriter.fUp, replaceCall_other]

end PlanEnv

end Rustice
