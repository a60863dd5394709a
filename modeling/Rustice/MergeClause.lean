import Mathlib.Data.List.FinRange
import Rustice.Join

/-!
# The Projection of a MERGE Statement

`merge_clause_projection` turns the `WHEN` clauses of a `MERGE` into one expression per column,
evaluated on the rows of the full join.
-/

namespace Rustice

inductive ScalarValue (α : Type) where
  | null
  | boolean (b : Bool)
  | utf8 (s : String)
  | other (v : α)

def targetExistsColumn : String := "__target_exists"

def dataFilePathColumn : String := "__data_file_path"

def manifestFilePathColumn : String := "__manifest_file_path"

inductive TargetColumn (width : ℕ) where
  | table (i : Fin width)
  | dataFilePath
  | manifestFilePath
  | targetExists

def auxiliaryColumns : List String :=
  [dataFilePathColumn, manifestFilePathColumn, targetExistsColumn]

structure TableSchema (τ : Type) where
  width : ℕ
  name : Fin width → String
  dataType : TargetColumn width → τ
  name_injective : Function.Injective name
  name_notMem_auxiliary : ∀ i, name i ∉ auxiliaryColumns

variable {τ α σ : Type} (s : TableSchema τ) (c : TargetColumn s.width)

namespace TableSchema

def columnName (s : TableSchema τ) : TargetColumn s.width → String
  | .table i => s.name i
  | .dataFilePath => dataFilePathColumn
  | .manifestFilePath => manifestFilePathColumn
  | .targetExists => targetExistsColumn

def columns (s : TableSchema τ) : List (TargetColumn s.width) :=
  (List.finRange s.width).map .table ++ [.dataFilePath, .manifestFilePath, .targetExists]

def columnNames (s : TableSchema τ) : List String :=
  s.columns.map s.columnName

lemma mem_columns : c ∈ s.columns := by
  cases c <;> simp [columns]

lemma columnName_mem_columnNames : s.columnName c ∈ s.columnNames :=
  List.mem_map_of_mem (s.mem_columns c)

end TableSchema

structure TargetRow (width : ℕ) (α : Type) where
  dataFilePath : String
  manifestFilePath : String
  values : Fin width → ScalarValue α

def TargetRow.get {width : ℕ} (t : TargetRow width α) :
    TargetColumn width → ScalarValue α
  | .table i => t.values i
  | .dataFilePath => .utf8 t.dataFilePath
  | .manifestFilePath => .utf8 t.manifestFilePath
  | .targetExists => .boolean true

abbrev MergeRow (width : ℕ) (α σ : Type) := JoinRow (TargetRow width α) σ

namespace MergeRow

variable {width : ℕ}

def col (c : TargetColumn width) : MergeRow width α σ → ScalarValue α
  | .both t _ => t.get c
  | .left t => t.get c
  | .right _ => .null

def targetExists : MergeRow width α σ → Truth
  | .both _ _ => some true
  | .left _ => some true
  | .right _ => none

def sourceExists : MergeRow width α σ → Truth
  | .both _ _ => some true
  | .left _ => none
  | .right _ => some true

end MergeRow

inductive MergeError where
  | onlyMergeStatements
  | mergeInsertOnlyOneRow
  | invalidColumnIdentifier (ident : String)
  | notMatchedBySourceNotSupported
  | mergeSourceNotSupported
  | mergeTargetMustBeTable
  | unsupportedIcebergValueType (valueType : String)
  | iceberg (message : String)
  | dataFusion (message : String)
  | notYetImplemented

inductive MergeClauseKind where
  | matched
  | notMatched
  | notMatchedByTarget
  | notMatchedBySource

inductive AssignmentTarget where
  | columnName (parts : List String)
  | tuple (names : List (List String))

inductive MergeInsertKind (Sql : Type) where
  | values (rows : List (List Sql))
  | row

inductive MergeAction (Sql : Type) where
  | update (assignments : List (AssignmentTarget × Sql))
  | insert (columns : List String) (kind : MergeInsertKind Sql)
  | delete

structure MergeClause (Sql : Type) where
  clauseKind : MergeClauseKind
  predicate : Option Sql
  action : MergeAction Sql

def MergeClause.Supported {Sql : Type} (c : MergeClause Sql) : Prop :=
  match c.clauseKind, c.action with
  | .matched, .update _ => True
  | .notMatched, .insert _ _ => True
  | .notMatchedByTarget, .insert _ _ => True
  | _, _ => False

structure DFExpr (τ ρ α : Type) where
  getType : Option τ
  eval : ρ → ScalarValue α

structure SqlPlanner (Sql τ ρ α : Type) where
  toExpr : Sql → Except MergeError (DFExpr τ ρ α)
  toCondition : Sql → Except MergeError (ρ → Truth)
  toSourceExpr : Sql → Except MergeError (DFExpr τ ρ α)

inductive PlannedAction (τ ρ α : Type) where
  | update (assignments : List (String × DFExpr τ ρ α))
  | insert (columns : List (String × DFExpr τ ρ α))
  | delete

structure PlannedClause (τ ρ α : Type) where
  op : ρ → Truth
  action : PlannedAction τ ρ α

section Planning

variable {Sql : Type} {width : ℕ} (planner : SqlPlanner Sql τ (MergeRow width α σ) α)

def mergeClauseExpression :
    MergeClauseKind → Except MergeError (MergeRow width α σ → Truth)
  | .matched => .ok fun row => Truth.and row.targetExists row.sourceExists
  | .notMatched => .ok fun row => some row.targetExists.isNone
  | .notMatchedByTarget => .ok fun row => some row.targetExists.isNone
  | .notMatchedBySource => .error .notMatchedBySourceNotSupported

def clauseCondition (clause : MergeClause Sql) :
    Except MergeError (MergeRow width α σ → Truth) := do
  let op ← mergeClauseExpression clause.clauseKind
  match clause.predicate with
  | some predicate => do
    let predicate ← planner.toCondition predicate
    pure fun row => Truth.and (op row) (predicate row)
  | none => pure op

def planAssignment (assignment : AssignmentTarget × Sql) :
    Except MergeError (String × DFExpr τ (MergeRow width α σ) α) :=
  match assignment.1 with
  | .columnName parts =>
    match parts.getLast? with
    | some columnName => do
      let expr ← planner.toExpr assignment.2
      pure (columnName, expr)
    | none => .error (.invalidColumnIdentifier (".".intercalate parts))
  | .tuple _ => .error .notYetImplemented

def planInsert (columns : List String) :
    MergeInsertKind Sql → Except MergeError (List (String × DFExpr τ (MergeRow width α σ) α))
  | .values [row] =>
    (columns.zip row).mapM fun cv => do
      let expr ← planner.toSourceExpr cv.2
      pure (cv.1, expr)
  | .values _ => .error .mergeInsertOnlyOneRow
  | .row => .error .onlyMergeStatements

def planClause (clause : MergeClause Sql) :
    Except MergeError (PlannedClause τ (MergeRow width α σ) α) := do
  let op ← clauseCondition planner clause
  match clause.action with
  | .update assignments => do
    let assignments ← assignments.mapM (planAssignment planner)
    pure ⟨op, .update assignments⟩
  | .insert columns kind => do
    let columns ← planInsert planner columns kind
    pure ⟨op, .insert columns⟩
  | .delete => pure ⟨op, .delete⟩

end Planning

abbrev ClauseEntry (τ ρ α : Type) := (ρ → Truth) × DFExpr τ ρ α

abbrev ClauseMap (τ ρ α : Type) := String → Option (List (ClauseEntry τ ρ α))

section Collecting

variable {ρ : Type}

def ClauseMap.push (m : ClauseMap τ ρ α) (k : String) (v : ClauseEntry τ ρ α) :
    ClauseMap τ ρ α :=
  Function.update m k (some ((m k).getD [] ++ [v]))

def ClauseMap.entries (m : ClauseMap τ ρ α) (k : String) : List (ClauseEntry τ ρ α) :=
  (m k).getD []

def nullExpr : DFExpr τ ρ α := ⟨none, fun _ => .null⟩

structure ClauseState (τ ρ α : Type) where
  updates : ClauseMap τ ρ α
  inserts : ClauseMap τ ρ α
  updatedOps : List (ρ → Truth)
  insertedOps : List (ρ → Truth)

def ClauseState.init : ClauseState τ ρ α :=
  ⟨fun _ => none, fun _ => none, [], []⟩

def ClauseState.add (s : TableSchema τ) (st : ClauseState τ ρ α)
    (p : PlannedClause τ ρ α) : ClauseState τ ρ α :=
  match p.action with
  | .update assignments =>
    { st with
      updatedOps := st.updatedOps ++ [p.op]
      updates := assignments.foldl (fun m a => m.push a.1 (p.op, a.2)) st.updates }
  | .insert columns =>
    let inserts := columns.foldl (fun m c => m.push c.1 (p.op, c.2)) st.inserts
    let allColumns := s.columnNames.filter fun n => n ∉ columns.map Prod.fst
    { st with
      insertedOps := st.insertedOps ++ [p.op]
      inserts := allColumns.foldl
        (fun m n => Function.update m n (some [(p.op, nullExpr)])) inserts }
  | .delete => st

variable [DecidableEq τ] (cast : τ → ScalarValue α → ScalarValue α)

def tryCast (ty : τ) : ScalarValue α → ScalarValue α
  | .null => .null
  | v => cast ty v

def castIfNecessary (e : DFExpr τ ρ α) (ty : τ) (row : ρ) : ScalarValue α :=
  if e.getType = some ty then e.eval row else tryCast cast ty (e.eval row)

def evalBranches (ty : τ) (row : ρ) (entries : List (ClauseEntry τ ρ α)) :
    List (Truth × ScalarValue α) :=
  entries.map fun e => (e.1 row, castIfNecessary cast e.2 ty row)

end Collecting

section Projection

variable [DecidableEq τ] (cast : τ → ScalarValue α → ScalarValue α) {Sql : Type}

def collectMergeClauseExpressions (s : TableSchema τ)
    (updates inserts : ClauseMap τ (MergeRow s.width α σ) α)
    (c : TargetColumn s.width) (row : MergeRow s.width α σ) : ScalarValue α :=
  let branches := evalBranches cast (s.dataType c) row
  match updates (s.columnName c), inserts (s.columnName c) with
  | some us, some is => caseWhen (branches (us ++ is)) (row.col c)
  | some x, none => caseWhen (branches x) (row.col c)
  | none, some x => caseWhen (branches x) (row.col c)
  | none, none => row.col c

structure MergeProjection (s : TableSchema τ) (α σ : Type) where
  column : TargetColumn s.width → MergeRow s.width α σ → ScalarValue α
  sourceExists : MergeRow s.width α σ → Truth
  mergeUpdated : MergeRow s.width α σ → Truth
  mergeInserted : MergeRow s.width α σ → Truth

def ClauseState.projection (s : TableSchema τ)
    (st : ClauseState τ (MergeRow s.width α σ) α) : MergeProjection s α σ where
  column := collectMergeClauseExpressions cast s st.updates st.inserts
  sourceExists := MergeRow.sourceExists
  mergeUpdated row := (st.updatedOps.map (· row)).foldl Truth.or (some false)
  mergeInserted row := (st.insertedOps.map (· row)).foldl Truth.or (some false)

def mergeClauseProjection (s : TableSchema τ)
    (planner : SqlPlanner Sql τ (MergeRow s.width α σ) α)
    (clauses : List (MergeClause Sql)) : Except MergeError (MergeProjection s α σ) := do
  let st ← clauses.foldlM
    (fun st clause => do
      let p ← planClause planner clause
      pure (st.add s p))
    ClauseState.init
  pure (st.projection cast s)

end Projection

end Rustice
