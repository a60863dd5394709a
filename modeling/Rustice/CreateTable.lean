import Rustice.CachingSchema
import Rustice.ObjectName
import Rustice.PartitionSpec

/-!
# CREATE TABLE

`create_table_query` plans the statement, finds the schema of the table and checks whether the table
exists.
-/

namespace Rustice

open Option

structure CreateTableStatement (Q : Type) where
  name : List NamePart
  columns : List String
  query : Option Q
  partitionBy : Option SqlExpr
  ifNotExists : Bool
  orReplace : Bool

inductive ArrowType (T : Type) where
  | null
  | utf8
  | other (type : T)
  deriving DecidableEq

structure ArrowField (T : Type) where
  name : String
  dataType : ArrowType T
  nullable : Bool

/-- The input of a `CREATE TABLE AS`, with the nodes that
`is_logical_plan_effectively_empty` looks into. -/
inductive InputPlan where
  | emptyRelation (produceOneRow : Bool)
  | projection (input : InputPlan)
  | subqueryAlias (input : InputPlan)
  | filter (predicate : Option Bool) (input : InputPlan)
  | other

def isLogicalPlanEffectivelyEmpty : InputPlan → Bool
  | .emptyRelation produceOneRow => !produceOneRow
  | .projection input => isLogicalPlanEffectivelyEmpty input
  | .subqueryAlias input => isLogicalPlanEffectivelyEmpty input
  | .filter predicate input => predicate == some false || isLogicalPlanEffectivelyEmpty input
  | .other => false

structure CreatePlan (T : Type) where
  fields : List (ArrowField T)
  createMemoryTable : Option (TableReference × InputPlan)

structure ResolvedTableReference where
  catalog : String
  schema : String
  table : String
  deriving DecidableEq

structure TableData (κ ρ : Type) where
  uuid : ℕ
  schema : κ
  partitionSpec : Option (List PartitionField)
  rows : List ρ

inductive OperationType where
  | create
  | drop
  deriving DecidableEq

inductive CreateTableError (ε : Type) where
  | sqlParser (message : String)
  | resolve (error : NameError)
  | planning (error : ε)
  | catalogNotFound (operation : OperationType) (catalog : String)
  | schemaNotFoundInDatabase (operation : OperationType) (schema db : String)
  | objectAlreadyExists (name : String)
  | catalog (error : CatalogError ε)
  | dataFusion (error : DataFusionError ε)
  | icebergSchema (error : ε)
  | partitionBy (error : PartitionError)
  | invalidSchemaIdentifier (ident : String)
  | tableProviderNotFound (tableName : String)
  | insertNotImplemented
  | execution (error : ε)
  deriving DecidableEq

inductive CreateTableResponse where
  | created
  | inserted

structure CreateEnv (ε Q T κ ρ : Type) where
  names : NameContext
  plan : CreateTableStatement Q → List Ident → Except ε (CreatePlan T)
  analyze : CreatePlan T → Except ε (CreatePlan T)
  hasCatalog : String → Bool
  hasSchema : String → String → Bool
  icebergSchema : List (ArrowField T) → Except ε κ
  fields : κ → List SchemaField
  render : SqlExpr → String
  uuid : ℕ
  dropFaults : Faults ε
  createFaults : Faults ε
  lookupFaults : Faults ε
  otherTable : String → String → Except (DataFusionError ε) (Option (TableProvider (TableData κ ρ)))
  cast : InputPlan → Except ε Unit
  insert : Except ε (List ρ)

def TableReference.schema : TableReference → Option String
  | .bare _ => none
  | .schemaTable schema _ => some schema
  | .full _ schema _ => some schema

def TableReference.table : TableReference → String
  | .bare table => table
  | .schemaTable _ table => table
  | .full _ _ table => table

def TableProvider.content {τ : Type} : TableProvider τ → τ
  | .table _ content => content
  | .icebergTableBuilder builder => builder.table
  | .cachingTable _ inner => inner.content

def TableProvider.isUnbuilt {τ : Type} : TableProvider τ → Bool
  | .table _ _ => false
  | .icebergTableBuilder _ => true
  | .cachingTable _ inner => inner.isUnbuilt

def TableProvider.modify {τ : Type} (f : τ → τ) : TableProvider τ → TableProvider τ
  | .table tableType content => .table tableType (f content)
  | .icebergTableBuilder builder => .icebergTableBuilder builder
  | .cachingTable name inner => .cachingTable name (inner.modify f)

namespace CachingSchema

variable {τ : Type}

def modifyTable (s : CachingSchema τ) (name : String) (f : τ → τ) : CachingSchema τ :=
  { schema := ((s.schema.lookup name).map fun p => s.schema.insert name (p.modify f)).getD s.schema
    icebergCatalog := s.icebergCatalog.map fun catalog =>
      ((catalog.lookup name).map fun t =>
        catalog.insert name { t with table := f t.table }).getD catalog
    tablesCache := ((s.tablesCache.lookup name).map fun t =>
      s.tablesCache.insert name { t with table := t.table.modify f }).getD s.tablesCache }

end CachingSchema

open CachingSchema

namespace CreateEnv

variable {ε Q T κ ρ : Type} (env : CreateEnv ε Q T κ ρ)

def resolveIdent (tableIdent : List Ident) : Except (CreateTableError ε) ResolvedTableReference :=
  let resolve (catalog schema table : String) : ResolvedTableReference :=
    ⟨toAsciiLowercase catalog, toAsciiLowercase schema, toAsciiLowercase table⟩
  match tableIdent.map Ident.value with
  | [table] => .ok (resolve env.names.currentDatabase env.names.currentSchema table)
  | [schema, table] => .ok (resolve env.names.currentDatabase schema table)
  | [catalog, schema, table] => .ok (resolve catalog schema table)
  | _ => .error (.resolve (.invalidTableIdentifier (normalizedIdentText tableIdent)))

def prepare (stmt : CreateTableStatement Q) :
    Except (CreateTableError ε) (CreatePlan T × ResolvedTableReference) := do
  if stmt.columns.isEmpty && stmt.query.isNone then
    throw (.sqlParser "syntax error unexpected end of input")
  let newTableIdent ← (env.names.resolveTableObjectName stmt.name).mapError .resolve
  let plan ← (env.plan stmt newTableIdent).mapError .planning
  let plan ← (env.analyze plan).mapError .planning
  let tableRef ← env.resolveIdent newTableIdent
  if !env.hasCatalog tableRef.catalog then
    throw (.catalogNotFound .create tableRef.catalog)
  if !env.hasSchema tableRef.catalog tableRef.schema then
    throw (.schemaNotFoundInDatabase .drop tableRef.schema tableRef.catalog)
  pure (plan, tableRef)

def buildPartitionSpec (schema : κ) :
    Option SqlExpr → Except (CreateTableError ε) (Option (List PartitionField))
  | none => .ok none
  | some partitionBy =>
    ((buildIcebergPartitionSpec env.render partitionBy (env.fields schema)).map some).mapError
      .partitionBy

def buildIcebergCreateTableBuilder (tableRef : ResolvedTableReference) (plan : CreatePlan T)
    (partitionBy : Option SqlExpr) :
    Except (CreateTableError ε) (CreateTableBuilder (TableData κ ρ)) := do
  let fields := plan.fields.map fun field =>
    match field.dataType with
    | .null => ⟨field.name, .utf8, true⟩
    | _ => field
  let schema ← (env.icebergSchema fields).mapError .icebergSchema
  let partitionSpec ← env.buildPartitionSpec schema partitionBy
  pure ⟨tableRef.table, ⟨env.uuid, schema, partitionSpec, []⟩⟩

def dropExisting (name : String) (s : CachingSchema (TableData κ ρ)) :
    Except (CreateTableError ε) Unit × CachingSchema (TableData κ ρ) :=
  if s.icebergCatalog.isSome then
    match s.dropTableAsync env.dropFaults name with
    | (.error e, s) => (.error (.catalog e), s)
    | (.ok _, s) => (.ok (), s)
  else
    match s.deregisterTable env.dropFaults name with
    | (.error e, s) => (.error (.dataFusion e), s)
    | (.ok _, s) => (.ok (), s)

def registerNew (name : String) (builder : CreateTableBuilder (TableData κ ρ))
    (s : CachingSchema (TableData κ ρ)) :
    Except (CreateTableError ε) Unit × CachingSchema (TableData κ ρ) :=
  if s.icebergCatalog.isSome then
    match s.createIcebergTableAsync env.createFaults name builder with
    | (.error e, s) => (.error (.catalog e), s)
    | (.ok _, s) => (.ok (), s)
  else
    match s.registerTable env.createFaults name (.icebergTableBuilder builder) with
    | (.error e, s) => (.error (.dataFusion e), s)
    | (.ok _, s) => (.ok (), s)

def targetTable (tableRef : ResolvedTableReference) (name : TableReference)
    (s : CachingSchema (TableData κ ρ)) :
    Except (CreateTableError ε) (TableProvider (TableData κ ρ)) := do
  let schemaName ← match name.schema with
    | some schemaName => pure schemaName
    | none => throw (.invalidSchemaIdentifier name.table)
  if !env.hasSchema tableRef.catalog schemaName then
    throw (.schemaNotFoundInDatabase .create schemaName tableRef.catalog)
  let table ←
    (if schemaName = tableRef.schema then (s.table env.lookupFaults name.table).1
      else env.otherTable schemaName name.table).mapError .dataFusion
  match table with
  | some table => pure table
  | none => throw (.tableProviderNotFound name.table)

def insertRows (tableRef : ResolvedTableReference) (plan : CreatePlan T)
    (s : CachingSchema (TableData κ ρ)) :
    Except (CreateTableError ε) CreateTableResponse × CachingSchema (TableData κ ρ) :=
  match plan.createMemoryTable with
  | none => (.ok .created, s)
  | some (name, input) =>
    if isLogicalPlanEffectivelyEmpty input then (.ok .created, s)
    else
      match env.targetTable tableRef name s with
      | .error e => (.error e, s)
      | .ok target =>
        match env.cast input, env.insert with
        | .error e, _ => (.error (.execution e), s)
        | .ok _, .error e => (.error (.execution e), s)
        | .ok _, .ok rows =>
          if target.isUnbuilt then (.error .insertNotImplemented, s)
          else
            (.ok .inserted,
              s.modifyTable name.table fun table => { table with rows := table.rows ++ rows })

def createNew (stmt : CreateTableStatement Q) (plan : CreatePlan T)
    (tableRef : ResolvedTableReference) (s : CachingSchema (TableData κ ρ)) :
    Except (CreateTableError ε) CreateTableResponse × CachingSchema (TableData κ ρ) :=
  match env.buildIcebergCreateTableBuilder tableRef plan stmt.partitionBy with
  | .error e => (.error e, s)
  | .ok builder =>
    match env.registerNew tableRef.table builder s with
    | (.error e, s) => (.error e, s)
    | (.ok _, s) => env.insertRows tableRef plan s

def createTableQuery (stmt : CreateTableStatement Q) (s : CachingSchema (TableData κ ρ)) :
    Except (CreateTableError ε) CreateTableResponse × CachingSchema (TableData κ ρ) :=
  match env.prepare stmt with
  | .error e => (.error e, s)
  | .ok (plan, tableRef) =>
    if s.tableExist tableRef.table then
      if stmt.ifNotExists then (.ok .created, s)
      else if stmt.orReplace then
        match env.dropExisting tableRef.table s with
        | (.error e, s) => (.error e, s)
        | (.ok _, s) => env.createNew stmt plan tableRef s
      else (.error (.objectAlreadyExists tableRef.table), s)
    else env.createNew stmt plan tableRef s

variable {env} {s t : CachingSchema (TableData κ ρ)} {name nm : String}

variable (env) in
def dropRefused (s : CachingSchema (TableData κ ρ)) : Bool :=
  if s.icebergCatalog.isSome then env.dropFaults.iceberg.isSome
  else env.dropFaults.provider.isSome

lemma snd_dropExisting :
    (env.dropExisting nm s).2 =
      if s.icebergCatalog.isSome then (s.dropTableAsync env.dropFaults nm).2
      else (s.deregisterTable env.dropFaults nm).2 := by
  rw [dropExisting]
  split
  · rcases s.dropTableAsync env.dropFaults nm with ⟨_ | _, _⟩ <;> rfl
  · rcases s.deregisterTable env.dropFaults nm with ⟨_ | _, _⟩ <;> rfl

variable {p : TableProvider (TableData κ ρ)}

variable (env) in
lemma stored_dropExisting (hs : s.Transparent name) (hst : s.stored name = some p) :
    (env.dropExisting name s).2.tablesCache.lookup name = none ∧
      (env.dropExisting name s).2.icebergCatalog.isSome = s.icebergCatalog.isSome ∧
      (env.dropExisting name s).2.stored name =
        if name ∈ s.tablesCache ∧ env.dropRefused s = false then none else s.stored name := by
  rw [snd_dropExisting]
  cases hc : s.icebergCatalog with
  | some catalog =>
    have hm : name ∈ catalog := by
      simp only [CachingSchema.stored, hc, map_eq_some_iff] at hst
      obtain ⟨tabular, hl, -⟩ := hst
      exact mem_of_lookup hl
    have hr := icebergCatalog_dropTableAsync env.dropFaults hc hm
    simp only [hs.isTable_iff] at hr
    simp only [isSome_some, if_true, tablesCache_dropTableAsync,
      AList.lookup_erase, CachingSchema.stored, hr, dropRefused, hc,
      isSome_eq_false_iff, isNone_iff_eq_none, true_and]
    split <;> simp
  | none =>
    obtain ⟨hcac, hr⟩ := caches_deregisterTable s env.dropFaults name
    simp only [isSome_none, Bool.false_eq_true, if_false, hcac,
      AList.lookup_erase, CachingSchema.stored, hr, hc, schema_deregisterTable,
      dropRefused, hs.isTable_iff, isSome_eq_false_iff, isNone_iff_eq_none, true_and]
    split <;> simp

variable {e : CreateTableError ε}

lemma dropRefused_eq_false_of_ok {r : Unit} (hs : s.Transparent nm)
    (hm : nm ∈ s.tablesCache) (h : env.dropExisting nm s = (.ok r, t)) :
    env.dropRefused s = false := by
  have ht := hs.isTable_iff.mpr hm
  rw [dropExisting] at h
  rw [dropRefused, ← Bool.not_eq_true]
  intro hr
  split at h
  case isTrue hsom =>
    rw [if_pos hsom] at hr
    obtain ⟨e, he⟩ := isSome_iff_exists.mp hr
    have hfau : env.dropFaults = ⟨some e, env.dropFaults.provider⟩ := by rw [← he]
    have hf := attemptsRemoteDrop_iff.mpr ⟨hsom, ht⟩ e env.dropFaults.provider
    rw [← hfau] at hf
    split at h
    · cases h
    case _ hd => rw [hd] at hf; cases hf
  case isFalse hp =>
    rw [if_neg hp] at hr
    rcases s.deregisterTable_cases env.dropFaults nm with
      ⟨hv, -⟩ | ⟨-, e, -, heq⟩ | ⟨-, hfl, -⟩
    · rw [ht] at hv
      cases hv
    · rw [heq] at h
      cases h
    · rw [hfl] at hr
      cases hr

lemma mem_tablesCache_of_error (hp : s.icebergCatalog = none)
    (h : env.dropExisting nm s = (.error e, t)) : nm ∈ s.tablesCache := by
  by_contra hm
  rw [dropExisting, if_neg (not_isSome_iff_eq_none.mpr hp)] at h
  rcases s.deregisterTable_cases env.dropFaults nm with
    ⟨-, r, heq⟩ | ⟨ht, -⟩ | ⟨ht, -⟩
  · rw [heq] at h
    cases h
  all_goals
    rw [AList.lookup_eq_none.mpr hm] at ht
    cases ht

variable {tableRef tr : ResolvedTableReference} {plan pl : CreatePlan T}
  {b : CreateTableBuilder (TableData κ ρ)}

lemma buildIcebergCreateTableBuilder_ok {pb : Option SqlExpr}
    (h : env.buildIcebergCreateTableBuilder tr pl pb = .ok b) :
    b.name = tr.table ∧ b.table.uuid = env.uuid := by
  obtain ⟨schema, -, h⟩ := bind_eq_ok.mp h
  obtain ⟨partitionSpec, -, h⟩ := bind_eq_ok.mp h
  obtain rfl := pure_eq_ok.mp h
  exact ⟨rfl, rfl⟩

variable (env) in
structure HasNewTable (name : String) (s t : CachingSchema (TableData κ ρ)) : Prop where
  transparent : t.Transparent name
  stored : ∃ p, t.stored name = some p ∧ p.content.uuid = env.uuid
  before : if s.icebergCatalog.isSome then s.stored name = none
    else env.createFaults.provider = none

lemma registerNew_iceberg (hu : s.tablesCache.lookup b.name = none)
    (huui : b.table.uuid = env.uuid) (hs : s.icebergCatalog.isSome) :
    (∃ e, env.registerNew b.name b s = (.error e, s)) ∨
      env.HasNewTable b.name s (env.registerNew b.name b s).2 := by
  rw [registerNew, if_pos hs]
  rcases s.createIcebergTableAsync_cases env.createFaults b.name b with
    ⟨e, h⟩ | ⟨catalog, hc, hf, hcr⟩
  · rw [h]
    exact .inl ⟨_, rfl⟩
  · have hb : if s.icebergCatalog.isSome then s.stored b.name = none
        else env.createFaults.provider = none := by
      rw [if_pos hs, CachingSchema.stored, hc]
      exact congrArg (Option.map _) (AList.lookup_eq_none.mpr hf)
    have ha : ((catalog.insert b.name ⟨.base, b.table⟩).lookup
        b.name).map IcebergTabular.toProvider = some (.table .base b.table) := by
      rw [AList.lookup_insert]
      rfl
    rcases hcr with ⟨e, h⟩ | h <;> rw [h] <;> right
    · exact ⟨transparent_of_uncached hu, ⟨_, ha, huui⟩, hb⟩
    · refine ⟨transparent_insert ?_ ?_, ⟨_, ha, huui⟩, hb⟩
      · simp [TableProvider.tableType]
      · intro hp
        cases hp

lemma registerNew_plain (hu : b.table.uuid = env.uuid) (hp : ¬s.icebergCatalog.isSome) :
    (∃ e, env.registerNew b.name b s = (.error e, s) ∧ env.createFaults.provider.isSome) ∨
      env.HasNewTable b.name s (env.registerNew b.name b s).2 := by
  rw [registerNew, if_neg hp]
  rcases s.registerTable_cases env.createFaults b.name (.icebergTableBuilder b) with
    ⟨e, hf, h⟩ | ⟨schema, ⟨rfl, hf⟩ | ⟨-, hv⟩, h⟩
  · rw [h]
    exact .inl ⟨_, rfl, hf.resolve_left hp⟩
  · rw [h]
    have ha : (s.schema.insert b.name (.icebergTableBuilder b)).lookup
        b.name = some (.icebergTableBuilder b) := AList.lookup_insert _
    refine .inr ⟨transparent_insert ?_ fun _ => ha,
      ⟨.icebergTableBuilder b, ?_, hu⟩, by rwa [if_neg hp]⟩
    · simp [TableProvider.tableType]
    · rw [CachingSchema.stored, not_isSome_iff_eq_none.mp hp]
      exact ha
  · cases hv

lemma registerNew_spec (hu : s.tablesCache.lookup nm = none) (hn : b.name = nm)
    (huui : b.table.uuid = env.uuid) : (∃ e, env.registerNew nm b s = (.error e, s) ∧
        (s.icebergCatalog.isSome ∨ env.createFaults.provider.isSome)) ∨
      env.HasNewTable nm s (env.registerNew nm b s).2 := by
  subst hn
  by_cases hs : s.icebergCatalog.isSome
  · rcases registerNew_iceberg hu huui hs with ⟨e, h⟩ | h
    exacts [.inl ⟨e, h, .inl hs⟩, .inr h]
  · rcases registerNew_plain huui hs with ⟨e, h, hf⟩ | h
    exacts [.inl ⟨e, h, .inr hf⟩, .inr h]

lemma insertRows_error (h : env.insertRows tr pl s = (.error e, t)) : t = s := by
  rw [insertRows] at h
  split at h
  · cases h
  · split at h
    · cases h
    · split at h
      · cases h; rfl
      · split at h
        · cases h; rfl
        · cases h; rfl
        · split at h
          · cases h; rfl
          · cases h

variable (env) in
def CreateRefused (stmt : CreateTableStatement Q) (plan : CreatePlan T)
    (tableRef : ResolvedTableReference) : Prop :=
  env.createFaults.provider.isSome ∨
    ∃ e, env.buildIcebergCreateTableBuilder tableRef plan stmt.partitionBy = .error e

variable {stmt st : CreateTableStatement Q}

lemma createNew_error (hu : s.tablesCache.lookup tr.table = none)
    (h : env.createNew st pl tr s = (.error e, t)) :
    t = s ∧ (s.icebergCatalog.isSome ∨ env.CreateRefused st pl tr) ∨
      env.HasNewTable tr.table s t ∧ (s.icebergCatalog.isSome ∨ ¬env.CreateRefused st pl tr) := by
  rw [createNew] at h
  split at h
  case _ hb =>
    cases h
    exact .inl ⟨rfl, .inr (.inr ⟨_, hb⟩)⟩
  case _ b hb =>
    obtain ⟨hnam, huui⟩ := buildIcebergCreateTableBuilder_ok hb
    rcases registerNew_spec hu hnam huui with ⟨e', hsam, hw⟩ | hn
    · rw [hsam] at h
      cases h
      exact .inl ⟨rfl, hw.imp_right .inl⟩
    · have hst : t = (env.registerNew tr.table b s).2 := by
        split at h
        case _ hr => cases h; rw [hr]
        case _ hr => rw [hr, insertRows_error h]
      rw [hst]
      refine .inr ⟨hn, ?_⟩
      by_cases hs : s.icebergCatalog.isSome
      · exact .inl hs
      · right
        have hf := hn.before
        rw [if_neg hs] at hf
        rintro (href | ⟨e', hfai⟩)
        · rw [hf] at href
          cases href
        · rw [hb] at hfai
          cases hfai

variable (env) in
/-- The statement fails early, or nothing is dropped and the new table does not take its place. -/
def KeepsOldTable (stmt : CreateTableStatement Q) (s : CachingSchema (TableData κ ρ)) : Prop :=
  match env.prepare stmt with
  | .error _ => True
  | .ok (plan, tableRef) =>
    if tableRef.table ∈ s.tablesCache then env.dropRefused s = true
    else s.icebergCatalog.isSome ∨ env.CreateRefused stmt plan tableRef

lemma createNew_keeps_iff (hf : p.content.uuid ≠ env.uuid)
    (hu : s.tablesCache.lookup tr.table = none) (h : env.createNew st pl tr s = (.error e, t)) :
    t.Transparent tr.table ∧ (t.stored tr.table = some p ↔ s.stored tr.table = some p ∧
        (s.icebergCatalog.isSome ∨ env.CreateRefused st pl tr)) := by
  rcases createNew_error hu h with ⟨rfl, hw⟩ | ⟨hn, hw⟩
  · exact ⟨transparent_of_uncached hu, by simp [hw]⟩
  · obtain ⟨q, hq, huui⟩ := hn.stored
    refine ⟨hn.transparent, ?_⟩
    have hne : q ≠ p := by
      rintro rfl
      exact hf huui
    rw [hq, some.injEq]
    refine ⟨fun h => absurd h hne, ?_⟩
    rintro ⟨hst, hc⟩
    have hb := hn.before
    by_cases hs : s.icebergCatalog.isSome
    · rw [if_pos hs, hst] at hb
      cases hb
    · exact absurd (hc.resolve_left hs) (hw.resolve_left hs)

lemma dropExisting_keeps_iff (hs : s.Transparent nm)
    (hst : s.stored nm = some p) (h : env.dropExisting nm s = (.error e, t)) :
    t.Transparent nm ∧ (t.stored nm = some p ↔ if nm ∈ s.tablesCache then env.dropRefused s = true
        else s.icebergCatalog.isSome ∨ env.CreateRefused st pl tr) := by
  have hd := stored_dropExisting env hs hst
  rw [h] at hd
  obtain ⟨hu, -, hd⟩ := hd
  refine ⟨transparent_of_uncached hu, ?_⟩
  rw [hd, hst]
  by_cases hm : nm ∈ s.tablesCache
  · rw [if_pos hm]
    cases hr : env.dropRefused s <;> simp [hm]
  · rw [if_neg hm, if_neg fun h => hm h.1]
    refine iff_of_true rfl (.inl ?_)
    by_contra hp
    exact hm (mem_tablesCache_of_error (not_isSome_iff_eq_none.mp hp) h)

lemma dropExisting_createNew_keeps_iff {r : Unit} {u : CachingSchema (TableData κ ρ)}
    (hs : s.Transparent tr.table) (hst : s.stored tr.table = some p)
    (hf : p.content.uuid ≠ env.uuid) (hdr : env.dropExisting tr.table s = (.ok r, u))
    (h : env.createNew st pl tr u = (.error e, t)) :
    t.Transparent tr.table ∧ (t.stored tr.table = some p ↔
        if tr.table ∈ s.tablesCache then env.dropRefused s = true
        else s.icebergCatalog.isSome ∨ env.CreateRefused st pl tr) := by
  have hd := stored_dropExisting env hs hst
  rw [hdr] at hd
  obtain ⟨hu, hsom, hd⟩ := hd
  obtain ⟨ht, hk⟩ := createNew_keeps_iff hf hu h
  refine ⟨ht, ?_⟩
  rw [hk, hd, hsom]
  by_cases hm : tr.table ∈ s.tablesCache
  · simp [hm, dropRefused_eq_false_of_ok hs hm hdr]
  · simp [hm, hst]

/-! ### Main result -/

/-- **A failed CREATE OR REPLACE TABLE keeps the old table** exactly under `KeepsOldTable`. -/
theorem createTableQuery_keeps_iff {schema : SchemaProvider (TableData κ ρ)}
    {icebergCatalog : Option (IcebergCatalog (TableData κ ρ))}
    {calls : List (SchemaCall (TableData κ ρ) ε)}
    (hrun : (system schema icebergCatalog).Run TransitionSystem.anyStep calls s)
    {stmt : CreateTableStatement Q} {p : TableProvider (TableData κ ρ)}
    {e : CreateTableError ε} (hreplace : stmt.orReplace = true)
    (hon : ∀ plan tableRef, env.prepare stmt = .ok (plan, tableRef) → tableRef.table = name)
    (hexists : (s.table (.none : Faults ε) name).1 = .ok (some p))
    (hbase : p.tableType ≠ .view) (hfresh : p.content.uuid ≠ env.uuid)
    (herr : env.createTableQuery stmt s = (.error e, t)) :
    (t.table (.none : Faults ε) name).1 = .ok (some p) ↔ env.KeepsOldTable stmt s := by
  obtain ⟨ht, q, hs⟩ := CachingSchema.IsBaseTable.transparent ⟨p, hexists, hbase⟩
    (keyed_of_run hrun) (coherent_of_run hrun)
  have hq : q.content.uuid ≠ env.uuid := by
    rw [table_eq_stored ht, hs] at hexists
    cases hexists
    exact hfresh
  rw [← hexists]
  rcases hp : env.prepare stmt with e' | ⟨plan, tableRef⟩
  · simp only [createTableQuery, hp] at herr
    cases herr
    simp [KeepsOldTable, hp]
  · obtain rfl := hon plan tableRef hp
    simp only [createTableQuery, hp, hreplace, if_true] at herr
    have hk : t.Transparent tableRef.table ∧ (t.stored tableRef.table = some q ↔
        if tableRef.table ∈ s.tablesCache then env.dropRefused s = true
        else s.icebergCatalog.isSome ∨ env.CreateRefused stmt plan tableRef) := by
      split at herr
      case isTrue =>
        split at herr
        · cases herr
        · split at herr
          case _ hd => cases herr; exact dropExisting_keeps_iff ht hs hd
          case _ hd =>
            exact dropExisting_createNew_keeps_iff ht hs hq hd herr
      case isFalse he =>
        have hm : tableRef.table ∉ s.tablesCache := by
          rw [Bool.not_eq_true, tableExist_eq_false_iff, mem_tableNames, not_or] at he
          exact he.2
        simpa [hm, hs] using createNew_keeps_iff hq (AList.lookup_eq_none.mpr hm) herr
    rw [table_eq_table_iff ht hk.1, hs, hk.2]
    simp only [KeepsOldTable, hp]

def publicEnv (dropFaults : Faults Unit) : CreateEnv Unit Unit Unit (List String) ℕ where
  names := ⟨"embucket", "public", true, fun _ => ""⟩
  plan stmt _ := .ok ⟨stmt.columns.map fun column => ⟨column, .other (), true⟩,
    some (.full "embucket" "public" "t", .emptyRelation false)⟩
  analyze plan := .ok plan
  hasCatalog _ := true
  hasSchema _ _ := true
  icebergSchema fields := .ok (fields.map ArrowField.name)
  fields schema := schema.map fun name => ⟨0, name⟩
  render _ := "1"
  uuid := 1
  dropFaults := dropFaults
  createFaults := .none
  lookupFaults := .none
  otherTable _ _ := .ok none
  cast _ := .ok ()
  insert := .ok []

def replaceT : CreateTableStatement Unit :=
  ⟨[.identifier (.new "t")], ["id"], none, some (.number "1"), false, true⟩

def oldT : TableData (List String) ℕ := ⟨0, ["id"], none, [7]⟩

def schemaWithT : CachingSchema (TableData (List String) ℕ) :=
  (CachingSchema.mk ∅ (some ∅) ∅).after
    (.createIcebergTableAsync (.none : Faults Unit) "t" ⟨"t", oldT⟩)

lemma schemaWithT_run : (system ∅ (some ∅)).Run TransitionSystem.anyStep
    [.createIcebergTableAsync (.none : Faults Unit) "t" ⟨"t", oldT⟩] schemaWithT :=
  TransitionSystem.exec_eq_some_iff.mp rfl

theorem createTableQuery_drop_refused :
    ∃ e t, (publicEnv ⟨some .catalogNotFound, none⟩).createTableQuery replaceT schemaWithT =
        (.error e, t) ∧
      (t.table (.none : Faults Unit) "t").1 =
        .ok (some (.cachingTable "t" (.table .base oldT))) := by
  obtain ⟨e, t, he⟩ : ∃ e t,
      (publicEnv ⟨some .catalogNotFound, none⟩).createTableQuery replaceT schemaWithT =
        (.error e, t) := ⟨_, _, rfl⟩
  have ho : ∀ plan tableRef, (publicEnv ⟨some .catalogNotFound, none⟩).prepare replaceT =
      .ok (plan, tableRef) → tableRef.table = "t" := by
    intro plan tableRef h
    cases h
    rfl
  refine ⟨e, t, he, (createTableQuery_keeps_iff schemaWithT_run rfl ho rfl (by decide)
    (by decide) he).mpr ?_⟩
  show (publicEnv ⟨some .catalogNotFound, none⟩).dropRefused schemaWithT = true
  rfl

theorem createTableQuery_loses_table :
    ∃ t, (schemaWithT.table (.none : Faults Unit) "t").1 =
        .ok (some (.cachingTable "t" (.table .base oldT))) ∧
      (publicEnv .none).createTableQuery replaceT schemaWithT =
        (.error (.partitionBy (.invalidPartitionByExpression "1")), t) ∧
      (t.table (.none : Faults Unit) "t").1 = .ok none :=
  ⟨_, rfl, rfl, rfl⟩

end CreateEnv

end Rustice
