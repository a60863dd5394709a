import Mathlib.Algebra.Group.Int.Defs
import Mathlib.Algebra.Group.Nat.Defs

/-!
# Partition Specifications

`build_iceberg_partition_spec` reads a `PARTITION BY` clause: columns, or a transform of a column.
-/

namespace Rustice

inductive ObjectNamePart where
  | identifier (value : String)
  | function

inductive FunctionArg (E : Type) where
  | unnamed (expr : E)
  | other

inductive SqlExpr where
  | identifier (value : String)
  | compoundIdentifier (idents : List String)
  | function (name : List ObjectNamePart) (args : Option (List (FunctionArg SqlExpr)))
  | number (digits : String)
  | tuple (exprs : List SqlExpr)
  | nested (inner : SqlExpr)
  | other (text : String)

inductive Transform where
  | identity
  | year
  | month
  | day
  | hour
  | bucket (n : ℕ)
  | truncate (n : ℕ)
  | void
  deriving DecidableEq

inductive PartitionError where
  | invalidPartitionByExpression (expr : String)
  | partitionFieldNotFoundInSchema (name : String)
  deriving DecidableEq

def flattenPartitionExprs : SqlExpr → List SqlExpr
  | .tuple exprs => exprs
  | .nested inner => flattenPartitionExprs inner
  | other => [other]

def parseU32 (text : String) : Option ℕ :=
  let digits := match text.toList with
    | '+' :: rest => rest
    | chars => chars
  if digits.isEmpty || !digits.all Char.isDigit then none
  else
    let n := digits.foldl (fun n c => 10 * n + (c.toNat - '0'.toNat)) 0
    if n < 2 ^ 32 then some n else none

section Parse

variable (render : SqlExpr → String)

def invalidExpr {α : Type} (expr : SqlExpr) : Except PartitionError α :=
  .error (.invalidPartitionByExpression (render expr))

def columnNameFromArg (arg : FunctionArg SqlExpr) (parent : SqlExpr) :
    Except PartitionError String :=
  match arg with
  | .unnamed (.identifier value) => .ok value
  | .unnamed (.compoundIdentifier idents) =>
    match idents.getLast? with
    | some ident => .ok ident
    | none => invalidExpr render parent
  | _ => invalidExpr render parent

def u32FromArg (arg : FunctionArg SqlExpr) (parent : SqlExpr) : Except PartitionError ℕ :=
  match arg with
  | .unnamed (.number digits) =>
    match parseU32 digits with
    | some n => .ok n
    | none => invalidExpr render parent
  | _ => invalidExpr render parent

def extractPartitionCol (args : List (FunctionArg SqlExpr)) (parent : SqlExpr) :
    Except PartitionError String :=
  match args with
  | [arg] => columnNameFromArg render arg parent
  | _ => invalidExpr render parent

def extractPartitionNCol (args : List (FunctionArg SqlExpr)) (parent : SqlExpr) :
    Except PartitionError (ℕ × String) :=
  match args with
  | [n, col] => do
    let n ← u32FromArg render n parent
    let col ← columnNameFromArg render col parent
    pure (n, col)
  | _ => invalidExpr render parent

def functionName (name : List ObjectNamePart) : Option String :=
  match name.getLast? with
  | some (.identifier value) => some value.toLower
  | _ => none

def parseTransform (fnName : String) (args : List (FunctionArg SqlExpr))
    (expr : SqlExpr) : Except PartitionError (String × Transform) :=
  let ofColumn (transform : Transform) : Except PartitionError (String × Transform) := do
    let col ← extractPartitionCol render args expr
    pure (col, transform)
  let ofNumberAndColumn (transform : ℕ → Transform) :
      Except PartitionError (String × Transform) := do
    let (n, col) ← extractPartitionNCol render args expr
    pure (col, transform n)
  match fnName with
  | "year" => ofColumn .year
  | "month" => ofColumn .month
  | "day" => ofColumn .day
  | "hour" => ofColumn .hour
  | "bucket" => ofNumberAndColumn .bucket
  | "truncate" => ofNumberAndColumn .truncate
  | _ => invalidExpr render expr

def parsePartitionFieldExpr (expr : SqlExpr) :
    Except PartitionError (String × Transform) :=
  match expr with
  | .identifier value => .ok (value, .identity)
  | .compoundIdentifier idents =>
    match idents.getLast? with
    | some ident => .ok (ident, .identity)
    | none => invalidExpr render expr
  | .function name args =>
    match functionName name, args with
    | some fnName, some args => parseTransform render fnName args expr
    | _, _ => invalidExpr render expr
  | _ => invalidExpr render expr

end Parse

def partitionFieldName (colName : String) : Transform → String
  | .identity => colName
  | .year => colName ++ "_year"
  | .month => colName ++ "_month"
  | .day => colName ++ "_day"
  | .hour => colName ++ "_hour"
  | .bucket n => colName ++ "_bucket_" ++ toString n
  | .truncate n => colName ++ "_trunc_" ++ toString n
  | .void => colName ++ "_void"

structure SchemaField where
  id : ℤ
  name : String

structure PartitionField where
  sourceId : ℤ
  fieldId : ℤ
  name : String
  transform : Transform
  deriving DecidableEq

def partitionFieldId (idx : ℕ) : ℤ :=
  min (1000 + idx) (2 ^ 31 - 1)

def buildPartitionField (render : SqlExpr → String) (schema : List SchemaField)
    (item : SqlExpr × ℕ) : Except PartitionError PartitionField := do
  let (colName, transform) ← parsePartitionFieldExpr render item.1
  match schema.find? fun f => f.name.toLower == colName.toLower with
  | some sourceField =>
    pure ⟨sourceField.id, partitionFieldId item.2, partitionFieldName colName transform, transform⟩
  | none => .error (.partitionFieldNotFoundInSchema colName)

def buildIcebergPartitionSpec (render : SqlExpr → String) (partitionBy : SqlExpr)
    (schema : List SchemaField) : Except PartitionError (List PartitionField) :=
  (flattenPartitionExprs partitionBy).zipIdx.mapM (buildPartitionField render schema)

end Rustice
