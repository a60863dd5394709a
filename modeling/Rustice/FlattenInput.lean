import Rustice.ObjectName

/-!
# The Input of FLATTEN

The input of `FLATTEN` is an expression.
-/

namespace Rustice

open List

variable {ρ ω κ η ε : Type}

inductive InputValue (ω : Type) where
  | utf8 (s : String)
  | other (v : ω)

inductive InputExpr (ω κ η : Type) where
  | column (relation : Option TableReference) (name : String)
  | literal (value : Option (InputValue ω))
  | scalarFunction (func : η) (args : List (InputExpr ω κ η))
  | binaryExpr (left : InputExpr ω κ η) (op : η) (right : InputExpr ω κ η)
  | scalarSubquery (subquery : κ)
  | other (node : η) (children : List (InputExpr ω κ η))

mutual

def extractTableRef : InputExpr ω κ η → Option TableReference
  | .column relation _ => relation
  | .literal _ => none
  | .scalarFunction _ args => extractTableRefs args
  | .binaryExpr left _ right =>
    match extractTableRef left with
    | some tableRef => some tableRef
    | none => extractTableRef right
  | .scalarSubquery _ => none
  | .other _ children => extractTableRefs children

def extractTableRefs : List (InputExpr ω κ η) → Option TableReference
  | [] => none
  | expr :: exprs =>
    match extractTableRef expr with
    | some tableRef => some tableRef
    | none => extractTableRefs exprs

end

structure PartitionedPlan (ρ : Type) where
  partitions : List (List (List ρ))
  partitions_ne_nil : partitions ≠ []

def PartitionedPlan.rows (plan : PartitionedPlan ρ) : List ρ := plan.partitions.flatten.flatten

def PartitionedPlan.OnlyFirst (plan : PartitionedPlan ρ) : Prop :=
  ∀ bs ∈ plan.partitions.tail, bs.flatten = []

inductive InputError (ε : Type) where
  | noTableFoundForReferenceInExpression
  | partitionOutOfBounds
  | external (error : ε)

def PartitionedPlan.execute (plan : PartitionedPlan ρ) (partition : ℕ) :
    Except (InputError ε) (List (List ρ)) :=
  match plan.partitions[partition]? with
  | some batches => .ok batches
  | none => .error .partitionOutOfBounds

structure FlattenSession (ρ ω κ η ε : Type) where
  table : TableReference → Except (InputError ε) (Option (PartitionedPlan ρ))
  createPhysicalPlan : κ → Except (InputError ε) (PartitionedPlan (List (Option (InputValue ω))))
  evaluateRow : InputExpr ω κ η → ρ → Except (InputError ε) (Option (InputValue ω))
  evaluate : InputExpr ω κ η → Except (InputError ε) (List (Option (InputValue ω)))
  castUtf8 : ω → Except (InputError ε) String

namespace FlattenSession

section

variable (session : FlattenSession ρ ω κ η ε)

def evaluateSubquery (subquery : κ) :
    Except (InputError ε) (List (List (List (Option (InputValue ω))))) := do
  let plan ← session.createPhysicalPlan subquery
  plan.execute 0

def subqueryValue : List (List (List (Option (InputValue ω)))) → Option (InputValue ω)
  | ((value :: _) :: _) :: _ => value
  | _ => none

mutual

def inlineScalarSubqueries : InputExpr ω κ η → Except (InputError ε) (InputExpr ω κ η)
  | .scalarFunction func args => do
    let inlinedArgs ← inlineArgs args
    .ok (.scalarFunction func inlinedArgs)
  | .scalarSubquery subquery => do
    let batches ← session.evaluateSubquery subquery
    .ok (.literal (subqueryValue batches))
  | .binaryExpr left op right => do
    let left ← inlineScalarSubqueries left
    let right ← inlineScalarSubqueries right
    .ok (.binaryExpr left op right)
  | .column relation name => .ok (.column relation name)
  | .literal value => .ok (.literal value)
  | .other node children => .ok (.other node children)

def inlineArgs : List (InputExpr ω κ η) → Except (InputError ε) (List (InputExpr ω κ η))
  | [] => .ok []
  | arg :: args => do
    let inlinedArg ← inlineScalarSubqueries arg
    let inlinedArgs ← inlineArgs args
    .ok (inlinedArg :: inlinedArgs)

end

def evaluateExprOrPlan (expr : InputExpr ω κ η) :
    Except (InputError ε) (List (List (Option (InputValue ω)))) :=
  match extractTableRef expr with
  | none => do
    let parsedExpr ← session.inlineScalarSubqueries expr
    let array ← session.evaluate parsedExpr
    .ok [array]
  | some tableRef => do
    let table ← session.table tableRef
    match table with
    | none => .error .noTableFoundForReferenceInExpression
    | some scan =>
      let batches ← scan.execute 0
      batches.mapM fun batch => batch.mapM (session.evaluateRow expr)

end

lemma execute_zero (p : PartitionedPlan ρ) :
    ∃ bs os, p.execute 0 = (.ok bs : Except (InputError ε) _) ∧
      p.rows = bs.flatten ++ os ∧ (p.OnlyFirst ↔ os = []) := by
  obtain ⟨bs, r, h⟩ := exists_cons_of_ne_nil p.partitions_ne_nil
  refine ⟨bs, r.flatten.flatten, ?_, ?_, ?_⟩
  · rw [PartitionedPlan.execute, h]
    rfl
  · rw [PartitionedPlan.rows, h, flatten_cons, flatten_append]
  · rw [PartitionedPlan.OnlyFirst, h, tail_cons]
    simp only [flatten_eq_nil_iff, mem_flatten, forall_exists_index, and_imp]
    exact ⟨fun h b bs hb hbat => h bs hb b hbat, fun h bs hb b hbat => h b bs hb hbat⟩

variable {session ss : FlattenSession ρ ω κ η ε} {e : InputExpr ω κ η} {s : PartitionedPlan ρ}
  {tr : TableReference}

lemma evaluateExprOrPlan_table (hr : extractTableRef e = some tr)
    (ht : ss.table tr = .ok (some s)) :
    ss.evaluateExprOrPlan e = (do
      let batches ← s.execute 0
      batches.mapM fun b => b.mapM (ss.evaluateRow e)) := by
  simp only [evaluateExprOrPlan, hr, ht]
  rfl

lemma perm_evaluateExprOrPlan_iff {bs : List (List (Option (InputValue ω)))}
    (hrf : extractTableRef e = some tr) (ht : ss.table tr = .ok (some s))
    (h : ss.evaluateExprOrPlan e = .ok bs) :
    (∃ vs, s.rows.mapM (ss.evaluateRow e) = .ok vs ∧ bs.flatten.Perm vs) ↔ s.OnlyFirst := by
  obtain ⟨a, others, he, hr, ho⟩ := @execute_zero ρ ε s
  rw [evaluateExprOrPlan_table hrf ht, he] at h
  have hf : List.Forall₂ (fun r v => ss.evaluateRow e r = .ok v)
      a.flatten bs.flatten := by
    refine rel_flatten ((mapM_eq_ok_iff.mp h).imp ?_)
    intro batch vs hb
    exact mapM_eq_ok_iff.mp hb
  rw [ho, hr]
  constructor
  · rintro ⟨vs, hv, hp⟩
    have hl := (length_of_mapM_eq_ok hv).symm
    rw [length_append, ← hp.length_eq, ← hf.length_eq] at hl
    exact eq_nil_of_length_eq_zero (by omega)
  · rintro rfl
    rw [append_nil]
    exact ⟨_, mapM_eq_ok_iff.mpr hf, List.Perm.refl _⟩

lemma evaluateSubquery_eq_iff {s : κ} {p : PartitionedPlan (List (Option (InputValue ω)))}
    {r : List (Option (InputValue ω))} (hp : ss.createPhysicalPlan s = .ok p) (hrw : p.rows = [r]) :
    (∃ bs, ss.evaluateSubquery s = .ok bs ∧ bs.flatten = [r]) ↔ p.OnlyFirst := by
  obtain ⟨first, others, he, hr, ho⟩ := @execute_zero _ ε p
  have hev : ss.evaluateSubquery s = .ok first := by
    rw [evaluateSubquery, hp]
    exact he
  rw [hrw] at hr
  simp only [hev, Except.ok.injEq, exists_eq_left', ho]
  constructor
  · intro hf
    rw [hf] at hr
    simpa using hr.symm
  · rintro rfl
    rw [hr, append_nil]

/-! ### Main result -/

/-- **No row is lost** exactly when in both plans only partition 0 has rows. -/
theorem evaluateExprOrPlan_iff {expr : InputExpr ω κ η} {tableRef : TableReference}
    {scan : PartitionedPlan ρ} {batches : List (List (Option (InputValue ω)))} {subquery : κ}
    {plan : PartitionedPlan (List (Option (InputValue ω)))} {row : List (Option (InputValue ω))}
    (href : extractTableRef expr = some tableRef)
    (htable : session.table tableRef = .ok (some scan))
    (h : session.evaluateExprOrPlan expr = .ok batches)
    (hplan : session.createPhysicalPlan subquery = .ok plan) (hrow : plan.rows = [row]) :
    ((∃ values, scan.rows.mapM (session.evaluateRow expr) = .ok values ∧
          batches.flatten.Perm values) ∧
        ∃ batches, session.evaluateSubquery subquery = .ok batches ∧ batches.flatten = [row]) ↔
      scan.OnlyFirst ∧ plan.OnlyFirst :=
  and_congr (perm_evaluateExprOrPlan_iff href htable h) (evaluateSubquery_eq_iff hplan hrow)

def sampleSession (scan : PartitionedPlan String)
    (plan : PartitionedPlan (List (Option (InputValue Unit)))) :
    FlattenSession String Unit Unit Unit Unit where
  table _ := .ok (some scan)
  createPhysicalPlan _ := .ok plan
  evaluateRow _ row := .ok (some (.utf8 row))
  evaluate _ := .ok []
  castUtf8 _ := .ok ""

def sampleColumn : InputExpr Unit Unit Unit := .column (some (.bare "t")) "v"

theorem evaluateExprOrPlan_first_partition :
    (∃ values, (["[1]", "[2]"] : List String).mapM
          ((sampleSession ⟨[[["[1]"], ["[2]"]], []], cons_ne_nil _ _⟩
            ⟨[[[[none]]], []], cons_ne_nil _ _⟩).evaluateRow sampleColumn) = .ok values ∧
        [some (.utf8 "[1]"), some (.utf8 "[2]")].Perm values) ∧
      ∃ batches, (sampleSession ⟨[[["[1]"], ["[2]"]], []], cons_ne_nil _ _⟩
          ⟨[[[[none]]], []], cons_ne_nil _ _⟩).evaluateSubquery () = .ok batches ∧
        batches.flatten = [[none]] :=
  (@evaluateExprOrPlan_iff _ _ _ _ _ (sampleSession ⟨[[["[1]"], ["[2]"]], []], cons_ne_nil _ _⟩
    ⟨[[[[none]]], []], cons_ne_nil _ _⟩) sampleColumn _ _ _ () _ [none] rfl rfl rfl rfl
    rfl).mpr ⟨by simp [PartitionedPlan.OnlyFirst], by simp [PartitionedPlan.OnlyFirst]⟩

theorem evaluateExprOrPlan_loses_rows :
    (sampleSession ⟨[[["[1]"]], [["[2]"]]], cons_ne_nil _ _⟩
        ⟨[[], [[[none]]]], cons_ne_nil _ _⟩).evaluateExprOrPlan sampleColumn =
          .ok [[some (.utf8 "[1]")]] ∧
      (sampleSession ⟨[[["[1]"]], [["[2]"]]], cons_ne_nil _ _⟩
        ⟨[[], [[[none]]]], cons_ne_nil _ _⟩).evaluateRow sampleColumn "[2]" =
          .ok (some (.utf8 "[2]")) ∧
      (sampleSession ⟨[[["[1]"]], [["[2]"]]], cons_ne_nil _ _⟩
        ⟨[[], [[[none]]]], cons_ne_nil _ _⟩).evaluateSubquery () = .ok [] :=
  ⟨rfl, rfl, rfl⟩

end FlattenSession

end Rustice
