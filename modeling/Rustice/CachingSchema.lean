import Mathlib.Data.List.Sort
import Rustice.StringMap
import Rustice.Transition

/-!
# The Caching Schema

A `CachingSchema` keeps the tables of a schema in up to three stores.
-/

namespace Rustice

open List AList

inductive TableType where
  | base
  | view
  | temporary
  deriving DecidableEq

structure CreateTableBuilder (τ : Type) where
  name : String
  table : τ
  deriving DecidableEq

inductive TableProvider (τ : Type) where
  | table (tableType : TableType) (table : τ)
  | icebergTableBuilder (builder : CreateTableBuilder τ)
  | cachingTable (name : String) (table : TableProvider τ)
  deriving DecidableEq

def TableProvider.tableType {τ : Type} : TableProvider τ → TableType
  | .table tableType _ => tableType
  | .icebergTableBuilder _ => .base
  | .cachingTable _ inner => inner.tableType

def TableProvider.isIcebergTableBuilder {τ : Type} : TableProvider τ → Bool
  | .icebergTableBuilder _ => true
  | _ => false

structure CachingTable (τ : Type) where
  name : String
  table : TableProvider τ

def CachingTable.tableType {τ : Type} (t : CachingTable τ) : TableType := t.table.tableType

def CachingTable.toProvider {τ : Type} (t : CachingTable τ) : TableProvider τ :=
  .cachingTable t.name t.table

/-- `iceberg_rust::error::Error`, with the errors that the schema tells apart; `conflict` is
the answer of a catalog that has a table of the name already. -/
inductive IcebergError (ε : Type) where
  | catalogNotFound
  | notFound (message : String)
  | conflict (name : String)
  | other (error : ε)
  deriving DecidableEq

/-- `DataFusionError`, with the errors that the schema builds; `provider` is an error of the
wrapped provider. -/
inductive DataFusionError (ε : Type) where
  | internal (message : String)
  | external (error : IcebergError ε)
  | provider (error : ε)
  deriving DecidableEq

inductive CatalogError (ε : Type) where
  | iceberg (source : IcebergError ε)
  | dataFusion (source : DataFusionError ε)
  deriving DecidableEq

/-- The errors of the stores in one call. -/
structure Faults (ε : Type) where
  iceberg : Option (IcebergError ε)
  provider : Option ε
  deriving DecidableEq

def Faults.none {ε : Type} : Faults ε := ⟨.none, .none⟩

abbrev SchemaProvider (τ : Type) := AList fun _ : String => TableProvider τ

namespace SchemaProvider

variable {τ ε : Type} (fault : Option ε) (name : String) (schema : SchemaProvider τ)

def table : Except (DataFusionError ε) (Option (TableProvider τ)) :=
  match fault with
  | some e => .error (.provider e)
  | none => .ok (schema.lookup name)

def registerTable (table : TableProvider τ) :
    Except (DataFusionError ε) (SchemaProvider τ) :=
  match fault with
  | some e => .error (.provider e)
  | none => .ok (schema.insert name table)

def deregisterTable :
    Except (DataFusionError ε) (Option (TableProvider τ) × SchemaProvider τ) :=
  match fault with
  | some e => .error (.provider e)
  | none => .ok (schema.lookup name, schema.erase name)

variable {fault name schema}

lemma table_eq_ok {t : Option (TableProvider τ)} :
    table fault name schema = .ok t ↔ fault = none ∧ t = schema.lookup name := by
  cases fault <;> simp [table, eq_comm]

lemma registerTable_eq_ok {table : TableProvider τ} {schema' : SchemaProvider τ} :
    registerTable fault name schema table = .ok schema' ↔
      fault = none ∧ schema' = schema.insert name table := by
  cases fault <;> simp [registerTable, eq_comm]

end SchemaProvider

structure IcebergTabular (τ : Type) where
  tableType : TableType
  table : τ

def IcebergTabular.toProvider {τ : Type} (t : IcebergTabular τ) : TableProvider τ :=
  .table t.tableType t.table

abbrev IcebergCatalog (τ : Type) := AList fun _ : String => IcebergTabular τ

namespace IcebergCatalog

variable {τ ε : Type} (fault : Option (IcebergError ε)) (catalog : IcebergCatalog τ)

def loadTabular (name : String) : Except (IcebergError ε) (IcebergTabular τ) :=
  match fault with
  | some e => .error e
  | none =>
    match catalog.lookup name with
    | some t => .ok t
    | none => .error (.notFound name)

def createTable (builder : CreateTableBuilder τ) :
    Except (IcebergError ε) (IcebergTabular τ × IcebergCatalog τ) :=
  match fault with
  | some e => .error e
  | none =>
    if builder.name ∈ catalog then .error (.conflict builder.name)
    else .ok (⟨.base, builder.table⟩, catalog.insert builder.name ⟨.base, builder.table⟩)

def dropTable (name : String) : Except (IcebergError ε) (IcebergCatalog τ) :=
  match fault with
  | some e => .error e
  | none => if name ∈ catalog then .ok (catalog.erase name) else .error (.notFound name)

variable {fault catalog} {catalog' : IcebergCatalog τ}

lemma dropTable_eq_ok {name : String} : dropTable fault catalog name = .ok catalog' ↔
    fault = none ∧ name ∈ catalog ∧ catalog' = catalog.erase name := by
  cases fault with
  | some e => simp [dropTable]
  | none =>
    by_cases hm : name ∈ catalog
    · simp [dropTable, hm, eq_comm]
    · simp [dropTable, hm]

lemma createTable_eq_ok {b : CreateTableBuilder τ} {tb : IcebergTabular τ} :
    createTable fault catalog b = .ok (tb, catalog') ↔
    fault = none ∧ b.name ∉ catalog ∧ tb = ⟨.base, b.table⟩ ∧
      catalog' = catalog.insert b.name ⟨.base, b.table⟩ := by
  cases fault with
  | some e => simp [createTable]
  | none =>
    by_cases hm : b.name ∈ catalog
    · simp [createTable, hm]
    · simp [createTable, hm, eq_comm]

end IcebergCatalog

open IcebergCatalog

structure CachingSchema (τ : Type) where
  schema : SchemaProvider τ
  icebergCatalog : Option (IcebergCatalog τ)
  tablesCache : AList fun _ : String => CachingTable τ

namespace CachingSchema

variable {τ ε : Type} (s : CachingSchema τ)

def tableNames : List String :=
  let names := s.tablesCache.keys.foldl
    (fun names key => if key ∈ names then names else names ++ [key]) s.schema.keys
  names.insertionSort (· ≤ ·)

def tableExist (name : String) : Bool :=
  if name ∈ s.tablesCache then true else decide (name ∈ s.schema)

def loadFreshIcebergTable (faults : Faults ε) (requestedName : String) :
    Except (DataFusionError ε) (Option (TableProvider τ)) :=
  match s.icebergCatalog with
  | none => .error (.internal "Iceberg catalog missing from Iceberg schema")
  | some catalog =>
    let tableName := ((s.tablesCache.lookup requestedName).map CachingTable.name).getD
      requestedName
    match catalog.loadTabular faults.iceberg tableName with
    | .ok tabular => .ok (some (CachingTable.mk tableName tabular.toProvider).toProvider)
    | .error .catalogNotFound => .ok none
    | .error (.notFound _) => .ok none
    | .error e => .error (.external e)

def table (faults : Faults ε) (name : String) :
    Except (DataFusionError ε) (Option (TableProvider τ)) × CachingSchema τ :=
  if s.icebergCatalog.isSome then
    match s.tablesCache.lookup name with
    | some t =>
      if t.tableType = .view then (.ok (some t.toProvider), s)
      else (s.loadFreshIcebergTable faults name, s)
    | none => (s.loadFreshIcebergTable faults name, s)
  else
    match s.tablesCache.lookup name with
    | some t => (.ok (some t.toProvider), s)
    | none =>
      match s.schema.table faults.provider name with
      | .error e => (.error e, s)
      | .ok none => (.ok none, s)
      | .ok (some table) =>
        let cachingTable : CachingTable τ := ⟨name, table⟩
        (.ok (some cachingTable.toProvider),
          { s with tablesCache := s.tablesCache.insert name cachingTable })

def registeredBuilderMessage : String :=
  "register_table called with IcebergTableBuilder; " ++
    "callers must use CachingSchema::create_iceberg_table_async instead"

def registerTable (faults : Faults ε) (name : String) (table : TableProvider τ) :
    Except (DataFusionError ε) (Option (TableProvider τ)) × CachingSchema τ :=
  if s.icebergCatalog.isSome ∧ table.isIcebergTableBuilder then
    (.error (.internal registeredBuilderMessage), s)
  else
    -- views of a plain schema live in the cache only
    let registered :=
      if s.icebergCatalog.isSome ∨ table.tableType ≠ .view then
        s.schema.registerTable faults.provider name table
      else .ok s.schema
    match registered with
    | .error e => (.error e, s)
    | .ok schema =>
      (.ok (some table), { s with schema, tablesCache := s.tablesCache.insert name ⟨name, table⟩ })

def deregisterTable (faults : Faults ε) (name : String) :
    Except (DataFusionError ε) (Option (TableProvider τ)) × CachingSchema τ :=
  let removed := s.tablesCache.lookup name
  let s := { s with tablesCache := s.tablesCache.erase name }
  match removed with
  | none => (.ok none, s)
  | some t =>
    if t.tableType = .view then (.ok (some t.toProvider), s)
    else
      match s.schema.deregisterTable faults.provider name with
      | .error e => (.error e, s)
      | .ok (old, schema) =>
        (.ok (if s.icebergCatalog.isSome then some t.toProvider else old), { s with schema })

def createIcebergTableAsync (faults : Faults ε) (name : String)
    (builder : CreateTableBuilder τ) :
    Except (CatalogError ε) (TableProvider τ) × CachingSchema τ :=
  match s.icebergCatalog with
  | none => (.error (.iceberg (.notFound "iceberg catalog")), s)
  | some catalog =>
    match catalog.createTable faults.iceberg builder with
    | .error e => (.error (.iceberg e), s)
    | .ok (tabular, catalog) =>
      let s := { s with icebergCatalog := some catalog }
      match s.schema.registerTable faults.provider name tabular.toProvider with
      | .error e => (.error (.dataFusion e), s)
      | .ok schema =>
        (.ok tabular.toProvider, { s with
            schema
            tablesCache := s.tablesCache.insert name ⟨name, tabular.toProvider⟩ })

def isTable (removed : Option (CachingTable τ)) : Bool :=
  removed.any fun t => t.tableType ≠ .view

def dropRemote (faults : Faults ε) (name : String) (removed : Option (CachingTable τ)) :
    Except (IcebergError ε) (Option (IcebergCatalog τ)) :=
  match s.icebergCatalog with
  | none => .ok none
  | some catalog =>
    if isTable removed then (catalog.dropTable faults.iceberg name).map some
    else .ok (some catalog)

def dropTableAsync (faults : Faults ε) (name : String) :
    Except (CatalogError ε) (Option (CachingTable τ)) × CachingSchema τ :=
  let removed := s.tablesCache.lookup name
  let s := { s with tablesCache := s.tablesCache.erase name }
  match s.dropRemote faults name removed with
  | .error e => (.error (.iceberg e), s)
  | .ok icebergCatalog =>
    let s := { s with icebergCatalog }
    match s.schema.deregisterTable faults.provider name with
    | .error e => (.error (.dataFusion e), s)
    | .ok (_, schema) => (.ok removed, { s with schema })

end CachingSchema

inductive SchemaCall (τ ε : Type) where
  | table (faults : Faults ε) (name : String)
  | registerTable (faults : Faults ε) (name : String) (table : TableProvider τ)
  | deregisterTable (faults : Faults ε) (name : String)
  | createIcebergTableAsync (faults : Faults ε) (name : String)
      (builder : CreateTableBuilder τ)
  | dropTableAsync (faults : Faults ε) (name : String)
  deriving DecidableEq

open TransitionSystem

namespace CachingSchema

variable {τ ε : Type} {e : IcebergCatalog τ}

def after (s : CachingSchema τ) : SchemaCall τ ε → CachingSchema τ
  | .table faults name => (s.table faults name).2
  | .registerTable faults name table => (s.registerTable faults name table).2
  | .deregisterTable faults name => (s.deregisterTable faults name).2
  | .createIcebergTableAsync faults name builder =>
    (s.createIcebergTableAsync faults name builder).2
  | .dropTableAsync faults name => (s.dropTableAsync faults name).2

def system (schema : SchemaProvider τ) (icebergCatalog : Option (IcebergCatalog τ)) :
    TransitionSystem (CachingSchema τ) (SchemaCall τ ε) where
  init := ⟨schema, icebergCatalog, ∅⟩
  step s call := some (s.after call)

def mirror (existing : IcebergCatalog τ) : SchemaProvider τ :=
  ⟨existing.entries.map fun e => ⟨e.1, e.2.toProvider⟩, by
    have h := existing.nodupKeys
    rw [List.NodupKeys, List.keys] at h ⊢
    rwa [map_map]⟩

def startup (existing : IcebergCatalog τ) :
    TransitionSystem (CachingSchema τ) (SchemaCall τ ε) :=
  system (mirror existing) (some existing)

inductive Step (s : CachingSchema τ) : SchemaCall τ ε → CachingSchema τ → Prop where
  | same (call : SchemaCall τ ε) : Step s call s
  | look {faults : Faults ε} {name : String} {table : TableProvider τ}
      (hplain : s.icebergCatalog = none) (htable : s.schema.lookup name = some table) :
      Step s (.table faults name)
        { s with tablesCache := s.tablesCache.insert name ⟨name, table⟩ }
  | register {faults : Faults ε} {name : String} {table : TableProvider τ}
      {schema : SchemaProvider τ}
      (hschema : schema = s.schema.insert name table ∨
        schema = s.schema ∧ table.tableType = .view) :
      Step s (.registerTable faults name table)
        { s with schema, tablesCache := s.tablesCache.insert name ⟨name, table⟩ }
  | deregister {faults : Faults ε} {name : String} {schema : SchemaProvider τ}
      (hschema : schema = s.schema ∨ schema = s.schema.erase name) :
      Step s (.deregisterTable faults name)
        { s with schema, tablesCache := s.tablesCache.erase name }
  | createRemote {faults : Faults ε} {name : String} {builder : CreateTableBuilder τ}
      {catalog : IcebergCatalog τ} (hcatalog : s.icebergCatalog = some catalog)
      (hfresh : builder.name ∉ catalog) :
      Step s (.createIcebergTableAsync faults name builder)
        { s with icebergCatalog := some (catalog.insert builder.name ⟨.base, builder.table⟩) }
  | create {faults : Faults ε} {name : String} {builder : CreateTableBuilder τ}
      {catalog : IcebergCatalog τ} {schema : SchemaProvider τ}
      (hcatalog : s.icebergCatalog = some catalog) (hfresh : builder.name ∉ catalog) :
      Step s (.createIcebergTableAsync faults name builder)
        { schema
          icebergCatalog := some (catalog.insert builder.name ⟨.base, builder.table⟩)
          tablesCache := s.tablesCache.insert name ⟨name, .table .base builder.table⟩ }
  | drop {faults : Faults ε} {name : String} {schema : SchemaProvider τ}
      {icebergCatalog : Option (IcebergCatalog τ)}
      (hschema : schema = s.schema ∨ schema = s.schema.erase name)
      (hremote : icebergCatalog = s.icebergCatalog ∨
        s.dropRemote faults name (s.tablesCache.lookup name) = .ok icebergCatalog) :
      Step s (.dropTableAsync faults name)
        { schema, icebergCatalog, tablesCache := s.tablesCache.erase name }

lemma registerTable_cases (s : CachingSchema τ) (fs : Faults ε) (name : String)
    (tb : TableProvider τ) : (∃ e, (s.icebergCatalog.isSome ∨ fs.provider.isSome) ∧
      s.registerTable fs name tb = (.error e, s)) ∨
    ∃ schema, (schema = s.schema.insert name tb ∧ fs.provider = none ∨
        schema = s.schema ∧ tb.tableType = .view) ∧ s.registerTable fs name tb = (.ok (some tb),
          { s with schema, tablesCache := s.tablesCache.insert name ⟨name, tb⟩ }) := by
  simp only [registerTable]
  split
  case isTrue hb => exact .inl ⟨_, .inl hb.1, rfl⟩
  case isFalse =>
    by_cases hp : s.icebergCatalog.isSome ∨ tb.tableType ≠ .view
    · rw [if_pos hp]
      cases hf : fs.provider with
      | some e => exact .inl ⟨.provider e, .inr rfl, rfl⟩
      | none => exact .inr ⟨_, .inl ⟨rfl, rfl⟩, rfl⟩
    · rw [if_neg hp]
      rw [not_or, not_not] at hp
      exact .inr ⟨s.schema, .inr ⟨rfl, hp.2⟩, rfl⟩

lemma createIcebergTableAsync_cases (s : CachingSchema τ) (fs : Faults ε) (name : String)
    (b : CreateTableBuilder τ) :
    (∃ e, s.createIcebergTableAsync fs name b = (.error e, s)) ∨
    ∃ catalog, s.icebergCatalog = some catalog ∧ b.name ∉ catalog ∧
      ((∃ e, s.createIcebergTableAsync fs name b =
          (.error e,
            { s with
              icebergCatalog := some (catalog.insert b.name ⟨.base, b.table⟩) })) ∨
        s.createIcebergTableAsync fs name b =
          (.ok (.table .base b.table),
            { schema := s.schema.insert name (.table .base b.table)
              icebergCatalog := some (catalog.insert b.name ⟨.base, b.table⟩)
              tablesCache := s.tablesCache.insert name ⟨name, .table .base b.table⟩ })) := by
  simp only [createIcebergTableAsync]
  split
  · exact .inl ⟨_, rfl⟩
  case _ catalog hc =>
    split
    · exact .inl ⟨_, rfl⟩
    case _ hcr =>
      obtain ⟨-, hf, rfl, rfl⟩ := createTable_eq_ok.mp hcr
      refine .inr ⟨catalog, hc, hf, ?_⟩
      split
      · exact .inl ⟨_, rfl⟩
      case _ hr =>
        obtain ⟨-, rfl⟩ := SchemaProvider.registerTable_eq_ok.mp hr
        exact .inr rfl

lemma deregisterTable_cases (s : CachingSchema τ) (fs : Faults ε) (name : String) :
    (isTable (s.tablesCache.lookup name) = false ∧
      ∃ r, s.deregisterTable fs name =
        (.ok r, { s with tablesCache := s.tablesCache.erase name })) ∨
    (isTable (s.tablesCache.lookup name) = true ∧ ∃ e, fs.provider = some e ∧
      s.deregisterTable fs name =
        (.error (.provider e), { s with tablesCache := s.tablesCache.erase name })) ∨
    (isTable (s.tablesCache.lookup name) = true ∧ fs.provider = none ∧
      ∃ r, s.deregisterTable fs name =
        (.ok r, { s with
          schema := s.schema.erase name
          tablesCache := s.tablesCache.erase name })) := by
  cases hc : s.tablesCache.lookup name with
  | none => exact .inl ⟨rfl, none, by simp only [deregisterTable, hc]⟩
  | some t =>
    by_cases hv : t.tableType = .view
    · refine .inl ⟨by simp [isTable, hv], some t.toProvider, ?_⟩
      simp only [deregisterTable, hc, if_pos hv]
    · have ht : isTable (some t) = true := by simp [isTable, hv]
      cases hf : fs.provider with
      | some e =>
        refine .inr (.inl ⟨ht, e, rfl, ?_⟩)
        simp only [deregisterTable, hc, if_neg hv, SchemaProvider.deregisterTable, hf]
      | none =>
        refine .inr (.inr ⟨ht, rfl,
          if s.icebergCatalog.isSome then some t.toProvider else s.schema.lookup name, ?_⟩)
        simp only [deregisterTable, hc, if_neg hv, SchemaProvider.deregisterTable, hf]

lemma dropTableAsync_cases (s : CachingSchema τ) (faults : Faults ε) (name : String) :
    (∃ e, s.dropRemote faults name (s.tablesCache.lookup name) = .error e ∧
      s.dropTableAsync faults name =
        (.error (.iceberg e), { s with tablesCache := s.tablesCache.erase name })) ∨
    (∃ icebergCatalog,
      s.dropRemote faults name (s.tablesCache.lookup name) = .ok icebergCatalog ∧
      ((∃ e, s.dropTableAsync faults name =
          (.error (.dataFusion (.provider e)),
            { s with icebergCatalog, tablesCache := s.tablesCache.erase name })) ∨
        s.dropTableAsync faults name =
          (.ok (s.tablesCache.lookup name),
            { schema := s.schema.erase name
              icebergCatalog
              tablesCache := s.tablesCache.erase name }))) := by
  -- the remote part does not read the cache
  have hr : dropRemote { s with tablesCache := s.tablesCache.erase name } faults name
      (s.tablesCache.lookup name) = s.dropRemote faults name (s.tablesCache.lookup name) := rfl
  simp only [dropTableAsync, hr]
  cases s.dropRemote faults name (s.tablesCache.lookup name) with
  | error e => exact .inl ⟨e, rfl, rfl⟩
  | ok icebergCatalog =>
    refine .inr ⟨icebergCatalog, rfl, ?_⟩
    cases hf : faults.provider with
    | some e => exact .inl ⟨e, by simp only [SchemaProvider.deregisterTable]⟩
    | none => exact .inr (by simp only [SchemaProvider.deregisterTable])

lemma step_after (s : CachingSchema τ) (cl : SchemaCall τ ε) : Step s cl (s.after cl) := by
  cases cl with
  | table faults name =>
    simp only [after, table]
    split
    · split
      · split
        · exact .same _
        · exact .same _
      · exact .same _
    case isFalse hp =>
      split
      · exact .same _
      · split
        · exact .same _
        · exact .same _
        case _ p ht =>
          obtain ⟨-, ht⟩ := SchemaProvider.table_eq_ok.mp ht
          exact .look (Option.not_isSome_iff_eq_none.mp hp) ht.symm
  | registerTable faults name table =>
    rw [after]
    rcases registerTable_cases s faults name table with
      ⟨e, -, h⟩ | ⟨schema, hs, h⟩ <;> rw [h]
    exacts [.same _, .register (hs.imp_left And.left)]
  | deregisterTable faults name =>
    rw [after]
    rcases deregisterTable_cases s faults name with
      ⟨-, r, h⟩ | ⟨-, e, -, h⟩ | ⟨-, -, r, h⟩ <;> rw [h]
    exacts [.deregister (.inl rfl), .deregister (.inl rfl), .deregister (.inr rfl)]
  | createIcebergTableAsync faults name b =>
    rw [after]
    rcases createIcebergTableAsync_cases s faults name b with
      ⟨e, h⟩ | ⟨catalog, hc, hf, ⟨e, h⟩ | h⟩ <;> rw [h]
    exacts [.same _, .createRemote hc hf, .create hc hf]
  | dropTableAsync faults name =>
    rw [after]
    rcases dropTableAsync_cases s faults name with
      ⟨e, -, h⟩ | ⟨_, hr, ⟨e, h⟩ | h⟩ <;> rw [h]
    exacts [.drop (.inl rfl) (.inl rfl), .drop (.inl rfl) (.inr hr), .drop (.inr rfl) (.inr hr)]

variable {s t : CachingSchema τ} {schema : SchemaProvider τ}
  {ic : Option (IcebergCatalog τ)} {name : String} {c : SchemaCall τ ε}
  {faults fs : Faults ε} {calls : List (SchemaCall τ ε)} {r : Option (TableProvider τ)}
  {tb : TableProvider τ}

def Keyed (s : CachingSchema τ) : Prop :=
  ∀ name t, s.tablesCache.lookup name = some t → t.name = name

lemma keyed_insert (h : s.Keyed) : Keyed ⟨schema, ic, s.tablesCache.insert name ⟨name, tb⟩⟩ := by
  intro name' t ht
  obtain ⟨rfl, rfl⟩ | ⟨-, ht⟩ := lookup_insert_eq_some_iff.mp ht
  · rfl
  · exact h name' t ht

lemma keyed_erase (h : s.Keyed) : Keyed ⟨schema, ic, s.tablesCache.erase name⟩ := by
  intro name' t ht
  exact h name' t (lookup_erase_eq_some_iff.mp ht).2

lemma Keyed.step (h : s.Keyed) (hs : Step s c t) : t.Keyed := by
  cases hs with
  | same => exact h
  | look => exact keyed_insert h
  | register => exact keyed_insert h
  | deregister => exact keyed_erase h
  | createRemote => exact h
  | create => exact keyed_insert h
  | drop => exact keyed_erase h

lemma dropRemote_eq_ok {r : Option (CachingTable τ)} (h : s.dropRemote fs name r = .ok ic) :
    ic = s.icebergCatalog.map fun catalog => if isTable r then catalog.erase name else catalog := by
  cases hc : s.icebergCatalog with
  | none =>
    simp only [dropRemote, hc] at h
    cases h
    rfl
  | some catalog =>
    simp only [dropRemote, hc] at h
    split at h
    case isFalse hv => cases h; simp [hv]
    case isTrue ht =>
      cases hd : catalog.dropTable fs.iceberg name with
      | error e => rw [hd] at h; cases h
      | ok catalog' =>
        rw [hd] at h
        cases h
        obtain ⟨-, -, rfl⟩ := dropTable_eq_ok.mp hd
        simp [ht]

lemma Step.isSome_icebergCatalog (hs : Step s c t) :
    t.icebergCatalog.isSome = s.icebergCatalog.isSome := by
  cases hs with
  | same | look | register | deregister => rfl
  | createRemote hc | create hc => rw [hc]; rfl
  | drop _ hr =>
    rcases hr with rfl | hr
    · rfl
    · rw [dropRemote_eq_ok hr, Option.isSome_map]

lemma keyed_of_run (hrun : (system schema ic).Run anyStep calls s) : s.Keyed := by
  refine hrun.invariant (fun _ s => s.Keyed) ?_ ?_
  · intro name t ht
    cases ht
  · intro _ s t c h _ hs
    cases hs
    exact h.step (step_after s c)

def Coherent (s : CachingSchema τ) : Prop :=
  s.icebergCatalog = none → ∀ name t, s.tablesCache.lookup name = some t →
    t.tableType ≠ .view → s.schema.lookup name = some t.table

lemma Coherent.erase {s : CachingSchema τ} (h : s.Coherent) {schema : SchemaProvider τ}
    {name : String} (hp : ic = none → s.icebergCatalog = none)
    (hs : schema = s.schema ∨ schema = s.schema.erase name) :
    Coherent ⟨schema, ic, s.tablesCache.erase name⟩ := by
  intro hnon name' t ht hv
  obtain ⟨hn, ht⟩ := lookup_erase_eq_some_iff.mp ht
  have hl := h (hp hnon) name' t ht hv
  rcases hs with rfl | rfl
  · exact hl
  · exact lookup_erase_eq_some_iff.mpr ⟨hn, hl⟩

lemma Coherent.step (h : s.Coherent) (hst : Step s c t) : t.Coherent := by
  cases hst with
  | same => exact h
  | @look fs name tb hp htab =>
    intro _ name' t ht hv
    obtain ⟨rfl, rfl⟩ | ⟨-, ht⟩ := lookup_insert_eq_some_iff.mp ht
    · exact htab
    · exact h hp name' t ht hv
  | @register fs name tb schema hs =>
    intro hp name' t ht hv
    obtain ⟨rfl, rfl⟩ | ⟨hnam, ht⟩ := lookup_insert_eq_some_iff.mp ht
    · rcases hs with rfl | ⟨-, hv'⟩
      · exact lookup_insert _
      · exact absurd hv' hv
    · have hl := h hp name' t ht hv
      rcases hs with rfl | ⟨rfl, -⟩
      · exact lookup_insert_eq_some_iff.mpr (.inr ⟨hnam, hl⟩)
      · exact hl
  | deregister hs => exact h.erase id hs
  | createRemote => exact fun hp => nomatch hp
  | create => exact fun hp => nomatch hp
  | drop hs hr =>
    refine h.erase (fun hn => ?_) hs
    rcases hr with rfl | hr
    · exact hn
    · have hmap := dropRemote_eq_ok hr
      rw [hn] at hmap
      exact Option.map_eq_none_iff.mp hmap.symm

lemma coherent_of_run (hrun : (system schema ic).Run anyStep calls s) : s.Coherent := by
  refine hrun.invariant (fun _ s => s.Coherent) ?_ ?_
  · intro _ name t ht
    cases ht
  · intro _ s t c h _ hs
    cases hs
    exact h.step (step_after s c)

lemma isSome_of_run (hrun : (startup e).Run anyStep calls s) : s.icebergCatalog.isSome := by
  refine hrun.invariant (fun _ s => s.icebergCatalog.isSome) rfl ?_
  intro _ s t c h _ hs
  cases hs
  rwa [(step_after s c).isSome_icebergCatalog]

lemma dropTableAsync_ok {r : Option (CachingTable τ)} (h : s.dropTableAsync fs name = (.ok r, t)) :
    r = s.tablesCache.lookup name ∧ t.schema = s.schema.erase name ∧
      t.tablesCache = s.tablesCache.erase name ∧
      t.icebergCatalog = s.icebergCatalog.map fun catalog =>
        if isTable (s.tablesCache.lookup name) then catalog.erase name else catalog := by
  rcases dropTableAsync_cases s fs name with
    ⟨e, -, heq⟩ | ⟨_, hr, ⟨e, heq⟩ | heq⟩ <;> cases heq.symm.trans h
  exact ⟨rfl, rfl, rfl, dropRemote_eq_ok hr⟩

lemma dropTableAsync_error {e : CatalogError ε} (h : s.dropTableAsync fs name = (.error e, t)) :
    t.schema = s.schema ∧ t.tablesCache = s.tablesCache.erase name := by
  rcases dropTableAsync_cases s fs name with
    ⟨e, -, heq⟩ | ⟨_, -, ⟨e, heq⟩ | heq⟩ <;> cases heq.symm.trans h
  exacts [⟨rfl, rfl⟩, ⟨rfl, rfl⟩]

lemma tablesCache_dropTableAsync (s : CachingSchema τ) (fs : Faults ε) (name : String) :
    (s.dropTableAsync fs name).2.tablesCache = s.tablesCache.erase name := by
  rcases dropTableAsync_cases s fs name with
    ⟨e, -, heq⟩ | ⟨_, -, ⟨e, heq⟩ | heq⟩ <;> rw [heq]

lemma icebergCatalog_dropTableAsync {catalog : IcebergCatalog τ}
    (fs : Faults ε) (hc : s.icebergCatalog = some catalog) (hm : name ∈ catalog) :
    (s.dropTableAsync fs name).2.icebergCatalog =
      some (if isTable (s.tablesCache.lookup name) = true ∧ fs.iceberg = none
        then catalog.erase name else catalog) := by
  obtain ⟨i, p⟩ := fs
  by_cases ht : isTable (s.tablesCache.lookup name) = true
  · cases i with
    | some e => simp [dropTableAsync, dropRemote, hc, ht, dropTable, Except.map]
    | none =>
      cases p <;>
        simp [dropTableAsync, dropRemote, hc, ht, hm, dropTable,
          Except.map, SchemaProvider.deregisterTable]
  · cases p <;>
      simp [dropTableAsync, dropRemote, hc, ht, SchemaProvider.deregisterTable]

lemma caches_deregisterTable (s : CachingSchema τ) (fs : Faults ε) (name : String) :
    (s.deregisterTable fs name).2.tablesCache = s.tablesCache.erase name ∧
      (s.deregisterTable fs name).2.icebergCatalog = s.icebergCatalog := by
  rcases deregisterTable_cases s fs name with
    ⟨-, r, h⟩ | ⟨-, e, -, h⟩ | ⟨-, -, r, h⟩ <;> rw [h] <;> exact ⟨rfl, rfl⟩

lemma schema_deregisterTable (s : CachingSchema τ) (fs : Faults ε) (name : String) :
    (s.deregisterTable fs name).2.schema =
      if isTable (s.tablesCache.lookup name) = true ∧ fs.provider = none
        then s.schema.erase name else s.schema := by
  rcases deregisterTable_cases s fs name with
    ⟨hv, r, h⟩ | ⟨-, e, hf, h⟩ | ⟨ht, hf, r, h⟩ <;> rw [h]
  · rw [if_neg (by simp [hv])]
  · rw [if_neg (by simp [hf])]
  · rw [if_pos ⟨ht, hf⟩]

variable (ε) in
def IsBaseTable (s : CachingSchema τ) (name : String) : Prop :=
  ∃ p, (s.table (.none : Faults ε) name).1 = .ok (some p) ∧ p.tableType ≠ .view

lemma loadFreshIcebergTable_none (hc : s.icebergCatalog = some e)
    (hn : ∀ t, s.tablesCache.lookup name = some t → t.name = name) :
    s.loadFreshIcebergTable (.none : Faults ε) name = .ok ((e.lookup name).map fun tb =>
        (CachingTable.mk name tb.toProvider).toProvider) := by
  have hi : ((s.tablesCache.lookup name).map CachingTable.name).getD name = name := by
    cases hcac : s.tablesCache.lookup name with
    | none => rfl
    | some t => exact hn t hcac
  simp only [loadFreshIcebergTable, hc, hi]
  simp only [loadTabular, Faults.none]
  cases e.lookup name <;> rfl

/-- The table that the store behind the cache has. -/
def stored (s : CachingSchema τ) (name : String) : Option (TableProvider τ) :=
  match s.icebergCatalog with
  | some catalog => (catalog.lookup name).map IcebergTabular.toProvider
  | none => s.schema.lookup name

/-- The cache has nothing else under a name than the store behind it. -/
def Transparent (s : CachingSchema τ) (name : String) : Prop :=
  ∀ t, s.tablesCache.lookup name = some t → t.name = name ∧ t.tableType ≠ .view ∧
      (s.icebergCatalog = none → s.schema.lookup name = some t.table)

lemma transparent_of_uncached (h : s.tablesCache.lookup name = none) : s.Transparent name := by
  intro t ht
  rw [h] at ht
  cases ht

lemma transparent_insert {tc : AList fun _ : String => CachingTable τ} (hv : tb.tableType ≠ .view)
    (hp : ic = none → schema.lookup name = some tb) :
    Transparent ⟨schema, ic, tc.insert name ⟨name, tb⟩⟩ name := by
  intro t ht
  rw [lookup_insert] at ht
  cases ht
  exact ⟨rfl, hv, hp⟩

lemma table_eq_stored (h : s.Transparent name) : (s.table (.none : Faults ε) name).1 =
    .ok ((s.stored name).map fun p => (CachingTable.mk name p).toProvider) := by
  cases hc : s.icebergCatalog with
  | some catalog =>
    have hl := loadFreshIcebergTable_none (ε := ε) hc fun t ht => (h t ht).1
    simp only [table, stored, hc, Option.isSome_some, if_true, Option.map_map]
    cases hcac : s.tablesCache.lookup name with
    | none => exact hl
    | some t =>
      simp only [if_neg (h t hcac).2.1]
      exact hl
  | none =>
    simp only [table, stored, hc, Option.isSome_none, Bool.false_eq_true, if_false]
    cases hcac : s.tablesCache.lookup name with
    | none =>
      simp only [SchemaProvider.table, Faults.none]
      cases s.schema.lookup name <;> rfl
    | some t =>
      obtain ⟨hn, -, hs⟩ := h t hcac
      rw [hs hc]
      show Except.ok (some (TableProvider.cachingTable t.name t.table)) = _
      rw [hn]
      rfl

lemma table_eq_table_iff (hs : s.Transparent name) (ht : t.Transparent name) :
    (t.table (.none : Faults ε) name).1 = (s.table (.none : Faults ε) name).1 ↔
      t.stored name = s.stored name := by
  rw [table_eq_stored hs, table_eq_stored ht, Except.ok.injEq]
  refine (Option.map_injective ?_).eq_iff
  intro p q h
  exact (TableProvider.cachingTable.inj h).2

lemma IsBaseTable.transparent (hb : IsBaseTable ε s name) (hk : s.Keyed) (hc : s.Coherent) :
    s.Transparent name ∧ ∃ p, s.stored name = some p := by
  obtain ⟨p, hp, hv⟩ := hb
  have htr : s.Transparent name := by
    intro t ht
    have hty : t.tableType ≠ .view := by
      intro hty
      -- the lookup would have found the view
      have hf : (s.table (.none : Faults ε) name).1 = .ok (some t.toProvider) := by
        rw [table]
        split <;> simp [ht, hty]
      obtain rfl := Option.some.inj (Except.ok.inj (hp.symm.trans hf))
      exact hv hty
    exact ⟨hk name t ht, hty, fun hpl => hc hpl name t ht hty⟩
  rw [table_eq_stored htr] at hp
  obtain ⟨q, hq, -⟩ := Option.map_eq_some_iff.mp (Except.ok.inj hp)
  exact ⟨htr, q, hq⟩

lemma Transparent.isTable_iff (h : s.Transparent name) :
    isTable (s.tablesCache.lookup name) = true ↔ name ∈ s.tablesCache := by
  cases hc : s.tablesCache.lookup name with
  | none => simp [isTable, lookup_eq_none.mp hc]
  | some t => simp [isTable, (h t hc).2.1, mem_of_lookup hc]

/-! ### Main results -/

/-- **A base table is dropped** from the store exactly if the cache has an entry for it. -/
theorem dropTableAsync_drops_iff {existing : IcebergCatalog τ} {calls : List (SchemaCall τ ε)}
    {s t : CachingSchema τ} (hrun : (startup existing).Run anyStep calls s)
    {faults : Faults ε} {name : String} {removed : Option (CachingTable τ)}
    (hbase : IsBaseTable ε s name) (hok : s.dropTableAsync faults name = (.ok removed, t)) :
    ((∃ catalog, t.icebergCatalog = some catalog ∧ name ∉ catalog) ∧
        (t.table (.none : Faults ε) name).1 = .ok none) ↔
      name ∈ s.tablesCache := by
  obtain ⟨catalog, hc⟩ := Option.isSome_iff_exists.mp (isSome_of_run hrun)
  obtain ⟨ht, p, hs⟩ := hbase.transparent (keyed_of_run hrun) (coherent_of_run hrun)
  obtain ⟨-, -, hcac, hc'⟩ := dropTableAsync_ok hok
  have hu : t.tablesCache.lookup name = none := by rw [hcac, lookup_erase]
  rw [hc, Option.map_some] at hc'
  rw [table_eq_stored (transparent_of_uncached hu), ← ht.isTable_iff]
  simp only [stored, hc, hc'] at hs ⊢
  constructor
  · rintro ⟨⟨catalog', hc', hn⟩, -⟩
    by_contra hv
    rw [if_neg hv, Option.some.injEq] at hc'
    subst hc'
    rw [lookup_eq_none.mpr hn] at hs
    cases hs
  · intro hd
    simp only [if_pos hd, lookup_erase, Option.map_none]
    exact ⟨⟨_, rfl, fun hm => (mem_erase.mp hm).1 rfl⟩, trivial⟩

def oneTable : IcebergCatalog ℕ := AList.singleton "t" ⟨.base, 0⟩

def createU : SchemaCall ℕ Unit := .createIcebergTableAsync .none "u" ⟨"u", 1⟩

def createdSchema : CachingSchema ℕ :=
  (CachingSchema.mk (mirror oneTable) (some oneTable) ∅).after createU

lemma createdSchema_run : (startup oneTable).Run anyStep [createU] createdSchema :=
  exec_eq_some_iff.mp rfl

theorem dropTableAsync_created :
    ∃ removed t, createdSchema.dropTableAsync (.none : Faults Unit) "u" = (.ok removed, t) ∧
      (t.table (.none : Faults Unit) "u").1 = .ok none := by
  have hb : IsBaseTable Unit createdSchema "u" := ⟨_, rfl, by decide⟩
  obtain ⟨removed, t, ho⟩ : ∃ removed t,
      createdSchema.dropTableAsync (.none : Faults Unit) "u" = (.ok removed, t) :=
    ⟨_, _, rfl⟩
  have hd := (dropTableAsync_drops_iff createdSchema_run hb ho).mpr (by decide)
  exact ⟨removed, t, ho, hd.2⟩

theorem dropTableAsync_startup :
    ∃ s t : CachingSchema ℕ, (startup oneTable).Run (anyStep (α := SchemaCall ℕ Unit)) [] s ∧
      IsBaseTable Unit s "t" ∧
      s.dropTableAsync (.none : Faults Unit) "t" = (.ok none, t) ∧
      ¬((∃ catalog, t.icebergCatalog = some catalog ∧ "t" ∉ catalog) ∧
        (t.table (.none : Faults Unit) "t").1 = .ok none) := by
  refine ⟨_, _, .nil, ⟨_, rfl, by decide⟩, rfl, ?_⟩
  rintro ⟨-, h⟩
  exact absurd h (by decide)

variable (ε) in
def AttemptsRemoteDrop (s : CachingSchema τ) (name : String) : Prop :=
  ∀ (e : IcebergError ε) (p : Option ε), (s.dropTableAsync ⟨some e, p⟩ name).1 = .error (.iceberg e)

lemma attemptsRemoteDrop_iff : AttemptsRemoteDrop ε s name ↔
    s.icebergCatalog.isSome ∧ isTable (s.tablesCache.lookup name) = true := by
  constructor
  · intro h
    -- a drop that does not ask the remote catalog succeeds although the catalog is not found
    have hf := h .catalogNotFound none
    cases hc : s.icebergCatalog with
    | none => simp [dropTableAsync, dropRemote, hc, SchemaProvider.deregisterTable] at hf
    | some catalog =>
      refine ⟨rfl, ?_⟩
      by_contra ht
      simp [dropTableAsync, dropRemote, hc, ht, SchemaProvider.deregisterTable] at hf
  · rintro ⟨hs, ht⟩ e provider
    obtain ⟨catalog, hc⟩ := Option.isSome_iff_exists.mp hs
    simp [dropTableAsync, dropRemote, hc, ht, dropTable, Except.map]

/-- **A failed drop can be retried** exactly if the cache had no entry for the name. -/
theorem dropTableAsync_retryable_iff {s t : CachingSchema τ} {faults : Faults ε} {name : String}
    {e : CatalogError ε} (herr : s.dropTableAsync faults name = (.error e, t)) :
    (t.tablesCache = s.tablesCache ∧ t.schema = s.schema ∧
        (AttemptsRemoteDrop ε s name → AttemptsRemoteDrop ε t name)) ↔
      name ∉ s.tablesCache := by
  obtain ⟨hs, hc⟩ := dropTableAsync_error herr
  constructor
  · rintro ⟨hsam, -⟩
    exact erase_eq_self_iff.mp (hc.symm.trans hsam)
  · intro hm
    refine ⟨hc.trans (erase_eq_self_iff.mpr hm), hs, fun h => ?_⟩
    have ht := (attemptsRemoteDrop_iff.mp h).2
    rw [lookup_eq_none.mpr hm] at ht
    cases ht

theorem dropTableAsync_mirror_fails :
    ∃ t : CachingSchema ℕ,
      (CachingSchema.mk (mirror oneTable) (some oneTable) ∅).dropTableAsync ⟨none, some ()⟩ "t" =
        (.error (.dataFusion (.provider ())), t) ∧ t.tablesCache = ∅ := by
  obtain ⟨t, he⟩ : ∃ t : CachingSchema ℕ,
      (CachingSchema.mk (mirror oneTable) (some oneTable) ∅).dropTableAsync ⟨none, some ()⟩ "t" =
        (.error (.dataFusion (.provider ())), t) :=
    ⟨_, rfl⟩
  exact ⟨t, he, ((dropTableAsync_retryable_iff he).mpr (by decide)).1⟩

theorem dropTableAsync_remote_fails :
    ∃ t u : CachingSchema ℕ, createdSchema.dropTableAsync ⟨some (.other ()), none⟩ "u" =
        (.error (.iceberg (.other ())), t) ∧
      t.tablesCache ≠ createdSchema.tablesCache ∧
      AttemptsRemoteDrop Unit createdSchema "u" ∧ ¬AttemptsRemoteDrop Unit t "u" ∧
      t.dropTableAsync (.none : Faults Unit) "u" = (.ok none, u) ∧
      (u.table (.none : Faults Unit) "u").1 = .ok (some (.cachingTable "u" (.table .base 1))) := by
  refine ⟨_, _, rfl, ?_, ?_, ?_, rfl, rfl⟩
  · exact fun h => absurd (erase_eq_self_iff.mp h) (by decide)
  · exact attemptsRemoteDrop_iff.mpr (by decide)
  · exact fun h => absurd (attemptsRemoteDrop_iff.mp h) (by decide)

lemma mem_foldl_push {keys n : List String} :
    name ∈ keys.foldl (fun n k => if k ∈ n then n else n ++ [k]) n ↔ name ∈ n ∨ name ∈ keys := by
  induction keys generalizing n with
  | nil => simp
  | cons k keys ih =>
    rw [foldl_cons, ih, mem_cons]
    split
    case isTrue hm =>
      constructor
      · rintro (h | h)
        · exact .inl h
        · exact .inr (.inr h)
      · rintro (h | rfl | h)
        · exact .inl h
        · exact .inl hm
        · exact .inr h
    case isFalse => rw [mem_append, mem_singleton, or_assoc]

lemma mem_tableNames : name ∈ s.tableNames ↔ name ∈ s.schema ∨ name ∈ s.tablesCache := by
  rw [tableNames, mem_insertionSort, mem_foldl_push]
  rfl

lemma tableExist_eq_false_iff : s.tableExist name = false ↔ name ∉ s.tableNames := by
  rw [mem_tableNames, tableExist, not_or]
  split
  case isTrue hc => simp [hc]
  case isFalse hc => simp [hc]

lemma deregisterTable_ok (h : s.deregisterTable fs name = (.ok r, t)) :
    t.tablesCache = s.tablesCache.erase name ∧
      t.schema = if isTable (s.tablesCache.lookup name) then s.schema.erase name else s.schema := by
  rcases deregisterTable_cases s fs name with
    ⟨hv, r, heq⟩ | ⟨-, e, -, heq⟩ | ⟨ht, -, r, heq⟩ <;> cases heq.symm.trans h
  · exact ⟨rfl, by rw [hv]; rfl⟩
  · exact ⟨rfl, by rw [if_pos ht]⟩

lemma not_tableExist_of_deregisterTable_iff
    (h : s.deregisterTable fs name = (.ok r, t)) :
    (t.tableExist name = false ∧ name ∉ t.tableNames) ↔
      isTable (s.tablesCache.lookup name) = true ∨ name ∉ s.schema := by
  obtain ⟨hc, hs⟩ := deregisterTable_ok h
  rw [tableExist_eq_false_iff, and_self, mem_tableNames, hc, hs]
  by_cases ht : isTable (s.tablesCache.lookup name) = true
  · simp [ht, mem_erase]
  · simp [ht, mem_erase]

/-- **The cache is transparent.** In every reachable state a name without a cached view resolves as
it does with the cache cleared. -/
theorem table_eq_cleared_of_run {ic : Option (IcebergCatalog τ)} {calls : List (SchemaCall τ ε)}
    (hrun : (system schema ic).Run anyStep calls s) {name : String}
    (hv : ∀ t ∈ s.tablesCache.lookup name, t.tableType ≠ .view) :
    (s.table (.none : Faults ε) name).1 =
      ((CachingSchema.mk s.schema s.icebergCatalog ∅).table (.none : Faults ε) name).1 := by
  have ht : s.Transparent name := by
    intro t h
    exact ⟨keyed_of_run hrun name t h, hv t h, fun hp => coherent_of_run hrun hp name t h (hv t h)⟩
  rw [table_eq_stored ht, table_eq_stored (transparent_of_uncached rfl)]
  rfl

theorem createdSchema_table :
    (createdSchema.table (.none : Faults Unit) "u").1 = ((CachingSchema.mk createdSchema.schema
      createdSchema.icebergCatalog ∅).table (.none : Faults Unit) "u").1 :=
  table_eq_cleared_of_run createdSchema_run (by decide)

end CachingSchema

end Rustice
