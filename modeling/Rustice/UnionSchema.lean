import Rustice.PlanTree
import Rustice.Timestamp

/-!
# `UnionSchemaAnalyzer`

The rule retypes the columns of a `Union` with a `to_timestamp` of another unit, and leaves its
inputs as they are.
-/

namespace Rustice

open List PlanTree

variable {O ε : Type}

inductive UnionType where
  | timestamp (unit : TimeUnit) (tz : Option String)
  | other (name : String)
  deriving DecidableEq

structure UnionField where
  name : String
  dataType : UnionType
  nullable : Bool

abbrev UnionSchema := List UnionField

def types (schema : UnionSchema) : List UnionType := schema.map (·.dataType)

inductive UnionExpr where
  | column (name : String)
  | scalarFunction (name : String) (args : List UnionExpr)
  | other (op : String) (args : List UnionExpr)

mutual

def containsToTimestamp : UnionExpr → Bool
  | .column _ => false
  | .scalarFunction name args => name == "to_timestamp" || anyContainsToTimestamp args
  | .other _ args => anyContainsToTimestamp args

def anyContainsToTimestamp : List UnionExpr → Bool
  | [] => false
  | e :: es => containsToTimestamp e || anyContainsToTimestamp es

end

inductive UnionNode (O : Type) where
  | projection (exprs : List UnionExpr) (schema : UnionSchema)
  | subqueryAlias (schema : UnionSchema)
  | union (schema : UnionSchema)
  | passThrough
  | other (op : O) (schema : UnionSchema)

abbrev UnionPlan (O : Type) := PlanTree UnionSchema (UnionNode O)

def UnionNode.schema : UnionNode O → List UnionSchema → UnionSchema
  | projection _ s, _ | subqueryAlias s, _ | union s, _ | other _ s, _ => s
  | passThrough, ss => ss.headD []

def planSchema : UnionPlan O → UnionSchema := fold id UnionNode.schema

structure SchemaEnv (O ε : Type) where
  toField : UnionExpr → UnionSchema → Except ε UnionField
  unionSchema : List UnionSchema → Except ε UnionSchema
  otherSchema : O → List UnionSchema → Except ε UnionSchema
  types_unionSchema : ∀ {ss s}, unionSchema ss = .ok s →
    ∀ t ∈ ss, (∀ t' ∈ ss, types t' = types t) → types s = types t

namespace SchemaEnv

variable (env : SchemaEnv O ε)

def recomputeSchema (ss : List UnionSchema) : UnionNode O → Except ε (UnionNode O)
  | .projection exprs _ =>
    (exprs.mapM fun e => env.toField e (ss.headD [])).map (.projection exprs)
  | .subqueryAlias _ => .ok (.subqueryAlias (ss.headD []))
  | .union _ => (env.unionSchema ss).map .union
  | .passThrough => .ok .passThrough
  | .other op _ => (env.otherSchema op ss).map (.other op)

def resolveExprAndSchema (i : ℕ) (base : UnionField) : UnionPlan O → UnionExpr × UnionSchema
  | .node (.projection exprs _) cs =>
    (exprs[i]?.getD (.column base.name), (cs.map planSchema).headD [])
  | input => (.column base.name, planSchema input)

def reconcileFieldType (chosen : UnionType) (e : UnionExpr) (s : UnionSchema) : UnionType :=
  match env.toField e s with
  | .error _ => chosen
  | .ok f =>
    if containsToTimestamp e then
      match chosen, f.dataType with
      | .timestamp .nanosecond tz, .timestamp .microsecond tz1
      | .timestamp .microsecond tz, .timestamp .nanosecond tz1 =>
        .timestamp .microsecond (tz.or tz1)
      | _, _ => chosen
    else chosen

def rewriteUnion (inputs : List (UnionPlan O)) (schema : UnionSchema) : UnionSchema :=
  schema.mapIdx fun i base =>
    let chosen := inputs.foldl (fun chosen input =>
      let (e, s) := resolveExprAndSchema i base input
      env.reconcileFieldType chosen e s) base.dataType
    ⟨base.name, chosen, base.nullable⟩

def rewriteNode (cs : List (UnionPlan O)) : UnionNode O → UnionNode O
  | .union s => .union (env.rewriteUnion cs s)
  | n => n

def rewriteUnions : UnionPlan O → UnionPlan O :=
  fold .leaf fun n cs => .node (env.rewriteNode cs n) cs

def refreshNode (ss : List UnionSchema) : UnionNode O → Except ε (UnionNode O)
  | .projection exprs s => env.recomputeSchema ss (.projection exprs s)
  | .subqueryAlias s => env.recomputeSchema ss (.subqueryAlias s)
  | n => .ok n

def refresh : UnionPlan O → Except ε (UnionPlan O) :=
  fold (fun s => .ok (.leaf s)) fun n cs => do
    let cs ← cs.mapM id
    let n ← env.refreshNode (cs.map planSchema) n
    return .node n cs

def transformed : UnionPlan O → Bool :=
  fold (fun _ => false) fun n bs => (n matches .union _) || bs.any id

def analyzeInternal (plan : UnionPlan O) : Except ε (UnionPlan O) :=
  if transformed plan then env.refresh (env.rewriteUnions plan) else .ok (env.rewriteUnions plan)

def Fresh (plan : UnionPlan O) : Prop :=
  ∀ n cs, Subplan (.node n cs) plan → env.recomputeSchema (cs.map planSchema) n = .ok n

def InputsMatch (plan : UnionPlan O) : Prop :=
  ∀ s cs, Subplan (.node (.union s) cs) plan → ∀ c ∈ cs, types (planSchema c) = types s

/-- The inputs of every `Union` have the same column types. -/
def Uniform (plan : UnionPlan O) : Prop :=
  ∀ s cs, Subplan (.node (.union s) cs) plan →
    ∀ c ∈ cs, ∀ d ∈ cs, types (planSchema c) = types (planSchema d)

structure BuiltPlan where
  plan : UnionPlan O
  fresh : env.Fresh plan

def BuiltPlan.StaysConsistent (p : env.BuiltPlan) : Prop :=
  ∃ q, env.analyzeInternal p.plan = .ok q ∧ InputsMatch q ∧ env.Fresh q

variable {env} {n : UnionNode O} {cs : List (UnionPlan O)} {s : UnionSchema} {c p q : UnionPlan O}
  {e : UnionExpr}

lemma Fresh.child (h : env.Fresh (.node n cs)) (hc : c ∈ cs) : env.Fresh c :=
  fun m ds hd => h m ds (hd.trans (.child hc .refl))

lemma InputsMatch.child (h : InputsMatch (.node n cs)) (hc : c ∈ cs) : InputsMatch c :=
  fun s ds hd => h s ds (hd.trans (.child hc .refl))

lemma Uniform.child (h : Uniform (.node n cs)) (hc : c ∈ cs) : Uniform c :=
  fun s ds hd => h s ds (hd.trans (.child hc .refl))

lemma uniform_node (hcs : ∀ c ∈ cs, Uniform c) (hn : ∀ s, n = .union s →
    ∀ c ∈ cs, ∀ d ∈ cs, types (planSchema c) = types (planSchema d)) : Uniform (.node n cs) := by
  intro s ds h
  cases h with
  | refl => exact hn s rfl
  | child hc h => exact hcs _ hc s ds h

lemma Fresh.types_eq (hf : env.Fresh p) (hu : Uniform p)
    (h : Subplan (.node (.union s) cs) p) (hc : c ∈ cs) : types (planSchema c) = types s := by
  have hs : env.unionSchema (cs.map planSchema) = .ok s := by
    have := hf _ _ h
    rw [recomputeSchema] at this
    cases hr : env.unionSchema (cs.map planSchema) <;> simp_all [Except.map]
  refine (env.types_unionSchema hs _ (mem_map_of_mem hc) fun t' ht' => ?_).symm
  obtain ⟨d, hd, rfl⟩ := mem_map.mp ht'
  exact hu s cs h d hd c hc

lemma reconcileFieldType_of_not_contains {chosen : UnionType}
    (h : containsToTimestamp e = false) : env.reconcileFieldType chosen e s = chosen := by
  rw [reconcileFieldType]
  cases env.toField e s with
  | error _ => rfl
  | ok f => simp [h]

lemma reconcileFieldType_of_same {f : UnionField}
    (h : env.toField e s = .ok f) : env.reconcileFieldType f.dataType e s = f.dataType := by
  simp only [reconcileFieldType, h]
  split
  · split
    · simp_all
    · simp_all
    · rfl
  · rfl

lemma reconcileFieldType_resolve (hf : env.Fresh c) {i : ℕ} {b : UnionField}
    (hs : s[i]? = some b) (ht : types (planSchema c) = types s) :
    env.reconcileFieldType b.dataType (resolveExprAndSchema i b c).1
      (resolveExprAndSchema i b c).2 = b.dataType := by
  unfold resolveExprAndSchema
  split
  next exprs s' ds =>
    have hr : exprs.mapM (fun e => env.toField e ((ds.map planSchema).headD [])) = .ok s' := by
      have := hf _ _ .refl
      rw [recomputeSchema] at this
      cases hr : exprs.mapM fun e => env.toField e ((ds.map planSchema).headD []) <;>
        simp_all [Except.map]
    have ht : types s' = types s := by simpa [planSchema, UnionNode.schema] using ht
    cases he : exprs[i]? with
    | none =>
      exact reconcileFieldType_of_not_contains (by rw [Option.getD_none, containsToTimestamp])
    | some e =>
      obtain ⟨f, hfs, hf'⟩ := getElem?_of_mapM_eq_ok hr he
      have : f.dataType = b.dataType := by
        have := congrArg (·[i]?) ht
        simpa [types, hfs, hs] using this
      rw [Option.getD_some, ← this]
      exact reconcileFieldType_of_same hf'
  next => exact reconcileFieldType_of_not_contains (by rw [containsToTimestamp])

lemma rewriteUnion_eq_self (hf : ∀ c ∈ cs, env.Fresh c)
    (ht : ∀ c ∈ cs, types (planSchema c) = types s) : env.rewriteUnion cs s = s := by
  apply ext_getElem?
  intro i
  rw [rewriteUnion, getElem?_mapIdx]
  cases hs : s[i]? with
  | none => rfl
  | some b =>
    -- no input changes the type with which the loop over the inputs starts
    rw [Option.map_some, foldlRecOn (motive := (· = b.dataType)) cs _ rfl]
    rintro _ rfl c hc
    exact reconcileFieldType_resolve (hf c hc) hs (ht c hc)

lemma map_eq_self {f : UnionPlan O → UnionPlan O} (h : ∀ c ∈ cs, f c = c) : cs.map f = cs :=
  (map_congr_left h).trans (map_id' cs)

lemma rewriteUnions_node : env.rewriteUnions (.node n cs) =
    .node (env.rewriteNode (cs.map env.rewriteUnions) n) (cs.map env.rewriteUnions) :=
  fold_node _ _ n cs

lemma rewriteUnions_eq_self (hf : env.Fresh p) (hu : Uniform p) : env.rewriteUnions p = p := by
  induction p using PlanTree.induction with
  | leaf s => exact fold_leaf _ _ s
  | node n cs ih =>
    have hcs : cs.map env.rewriteUnions = cs :=
      map_eq_self fun c hc => ih c hc (hf.child hc) (hu.child hc)
    rw [rewriteUnions_node, hcs]
    cases n with
    | union s =>
      rw [rewriteNode, rewriteUnion_eq_self (fun c hc => hf.child hc)
        fun c hc => hf.types_eq hu .refl hc]
    | _ => rfl

lemma refresh_node : env.refresh (.node n cs) = (do
    let cs ← cs.mapM env.refresh
    let n ← env.refreshNode (cs.map planSchema) n
    return .node n cs) := by
  rw [refresh, fold_node, mapM_map]
  rfl

lemma refreshNode_eq_self {ss : List UnionSchema} (h : env.recomputeSchema ss n = .ok n) :
    env.refreshNode ss n = .ok n := by
  cases n with
  | projection => exact h
  | subqueryAlias => exact h
  | _ => rfl

lemma refresh_eq_self (hf : env.Fresh p) : env.refresh p = .ok p := by
  induction p using PlanTree.induction with
  | leaf s => exact fold_leaf _ _ s
  | node n cs ih =>
    have hcs : cs.mapM env.refresh = .ok cs := by
      simpa using mapM_eq_ok_map (g := id) fun c hc => ih c hc (hf.child hc)
    rw [refresh_node, hcs]
    exact bind_eq_ok.mpr ⟨cs, rfl, bind_eq_ok.mpr ⟨n, refreshNode_eq_self (hf _ _ .refl), rfl⟩⟩

lemma uniform_of_refresh (hf : env.Fresh p) (hq : env.refresh (env.rewriteUnions p) = .ok q)
    (hm : InputsMatch q) : Uniform p := by
  induction p using PlanTree.induction generalizing q with
  | leaf s => exact fun _ _ h => nomatch h
  | node n cs ih =>
    rw [rewriteUnions_node, refresh_node] at hq
    obtain ⟨ds, hds, hq⟩ := bind_eq_ok.mp hq
    obtain ⟨m, hn, hq⟩ := bind_eq_ok.mp hq
    obtain rfl := pure_eq_ok.mp hq
    have hu : ∀ c ∈ cs, Uniform c := by
      intro c hc
      obtain ⟨d, hd, hcd⟩ := exists_mem_of_mapM_eq_ok hds (mem_map_of_mem hc)
      exact ih c hc (hf.child hc) hcd (hm.child hd)
    have hcs : cs.map env.rewriteUnions = cs :=
      map_eq_self fun c hc => rewriteUnions_eq_self (hf.child hc) (hu c hc)
    have hs : cs.mapM env.refresh = .ok cs := by
      simpa using mapM_eq_ok_map (g := id) fun c hc => refresh_eq_self (hf.child hc)
    rw [hcs, hs] at hds
    obtain rfl := Except.ok.inj hds
    refine uniform_node hu ?_
    rintro s rfl c hc d hd
    obtain rfl := Except.ok.inj hn
    exact (hm _ _ .refl c hc).trans (hm _ _ .refl d hd).symm

lemma transformed_of_subplan (h : Subplan (.node (.union s) cs) p) : transformed p = true := by
  induction h with
  | refl => simp [transformed]
  | child hc _ ih =>
    rw [transformed, fold_node, Bool.or_eq_true, any_map]
    exact .inr (any_eq_true.mpr ⟨_, hc, ih⟩)

/-! ### Main result -/

/-- **The schemas are consistent after the rule exactly if the inputs of every `Union` had the same
column types before it.** -/
theorem BuiltPlan.staysConsistent_iff (p : env.BuiltPlan) :
    p.StaysConsistent ↔ Uniform p.plan := by
  constructor
  · rintro ⟨q, hq, hm, -⟩
    rw [analyzeInternal] at hq
    split_ifs at hq with h
    · exact uniform_of_refresh p.fresh hq hm
    · exact fun s cs hs => absurd (transformed_of_subplan hs) h
  · intro hu
    refine ⟨p.plan, ?_, fun s cs h c hc => p.fresh.types_eq hu h hc, p.fresh⟩
    rw [analyzeInternal, rewriteUnions_eq_self p.fresh hu, refresh_eq_self p.fresh, ite_self]

def timestampEnv : SchemaEnv Empty String where
  toField
    | .scalarFunction _ [.other text _], _ =>
      .ok ⟨"ts", .timestamp (if text = "9999-12-31" then .microsecond else .nanosecond) none, true⟩
    | _, _ => .error "no such field"
  unionSchema
    | [] => .error "no input"
    | s :: _ => .ok s
  otherSchema _ _ := .error "no such operator"
  types_unionSchema := by
    intro ss s h t ht hall
    cases ss with
    | nil => cases h
    | cons s' ss => exact Except.ok.inj h ▸ hall _ mem_cons_self

def selectTimestamp (date : String) (unit : TimeUnit) : UnionPlan Empty :=
  .node (.projection [.scalarFunction "to_timestamp" [.other date []]]
    [⟨"ts", .timestamp unit none, true⟩]) [.leaf []]

def timestampUnion : timestampEnv.BuiltPlan where
  plan := .node (.union [⟨"ts", .timestamp .nanosecond none, true⟩])
    [selectTimestamp "2025-01-01" .nanosecond, selectTimestamp "9999-12-31" .microsecond]
  fresh := by
    intro n cs h
    cases h with
    | refl => rfl
    | child hc h =>
      simp only [mem_cons, not_mem_nil, or_false] at hc
      rcases hc with rfl | rfl
      all_goals
        cases h with
        | refl => rfl
        | child hd h => cases mem_singleton.mp hd; cases h

theorem BuiltPlan.not_staysConsistent : ¬ timestampUnion.StaysConsistent := by
  rintro ⟨q, hq, hm, -⟩
  cases hq
  have := hm _ _ .refl (selectTimestamp "2025-01-01" .nanosecond) mem_cons_self
  exact absurd this (by decide)

end SchemaEnv

end Rustice
