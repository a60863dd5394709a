import Rustice.AsciiCase
import Rustice.Fallible
import Rustice.Transition

/-!
# The In-Memory Metastore

Databases are stored under the name that a call gives, schemas and tables under names in lower
case. A call that fails leaves the state as it is.
-/

namespace Rustice

namespace Metastore

structure SchemaIdent where
  database : String
  schema : String

structure TableIdent extends SchemaIdent where
  table : String

structure Database where
  ident : String
  volume : String

inductive MetastoreError where
  | volumeAlreadyExists (volume : String)
  | volumeNotFound (volume : String)
  | volumeInUse (database : String)
  | databaseAlreadyExists (db : String)
  | databaseNotFound (db : String)
  | databaseInUse (database schema : String)
  | schemaAlreadyExists (schema db : String)
  | schemaNotFound (schema db : String)
  | tableAlreadyExists (table schema db : String)
  | tableNotFound (table schema db : String)
  | external (message : String)

/-- The keys of the maps, and of a database also what it refers to. -/
structure MetastoreState where
  volumes : List String := []
  databases : List (String × Database) := []
  schemas : List (String × String) := []
  tables : List (String × String × String) := []

abbrev Outcome := Except MetastoreError MetastoreState

def schemaKey (ident : SchemaIdent) : String × String :=
  (toAsciiLowercase ident.database, toAsciiLowercase ident.schema)

def tableKey (ident : TableIdent) : String × String × String :=
  (toAsciiLowercase ident.database, toAsciiLowercase ident.schema, toAsciiLowercase ident.table)

open MetastoreError

namespace MetastoreState

variable (state : MetastoreState)

def databaseNames : List String := state.databases.map Prod.fst

def ensureDatabase (name : String) : Except MetastoreError Database :=
  match state.databases.find? fun db => db.1 = name with
  | some db => .ok db.2
  | none => .error (databaseNotFound name)

def ensureVolume (name : String) : Except MetastoreError Unit :=
  if name ∈ state.volumes then .ok () else .error (volumeNotFound name)

def createVolume (name : String) (objectStore : Except MetastoreError Unit) : Outcome := do
  objectStore
  if name ∈ state.volumes then .error (volumeAlreadyExists name)
  else .ok { state with volumes := name :: state.volumes }

def updateVolume (name : String) (objectStore : Except MetastoreError Unit) : Outcome := do
  objectStore
  if name ∈ state.volumes then .ok state else .error (volumeNotFound name)

/-- The idents of the databases on a volume, which need not be the names they are stored under. -/
def inUse (name : String) : List String :=
  (state.databases.filter fun db => db.2.volume = name).map fun db => db.2.ident

def deleteVolume (name : String) (cascade : Bool) : Outcome :=
  let inUse := state.inUse name
  if cascade then
    .ok { volumes := state.volumes.filter (· ≠ name)
          databases := state.databases.filter (·.1 ∉ inUse)
          schemas := state.schemas.filter (·.1 ∉ inUse)
          tables := state.tables.filter (·.1 ∉ inUse) }
  else if inUse = [] then .ok { state with volumes := state.volumes.filter (· ≠ name) }
  else .error (volumeInUse (", ".intercalate inUse))

def createDatabase (name : String) (database : Database) : Outcome := do
  state.ensureVolume database.volume
  if name ∈ state.databaseNames then .error (databaseAlreadyExists name)
  else .ok { state with databases := (name, database) :: state.databases }

def updateDatabase (name : String) (database : Database) : Outcome :=
  if name ∈ state.databaseNames then
    .ok { state with databases := state.databases.map fun db =>
      if db.1 = name then (name, database) else db }
  else .error (databaseNotFound name)

def deleteDatabase (name : String) (cascade : Bool) : Outcome :=
  let schemaKeys := state.schemas.filter (·.1 = name)
  if schemaKeys ≠ [] ∧ cascade = false then
    .error (databaseInUse name (", ".intercalate (schemaKeys.map Prod.snd)))
  else
    .ok { state with
      databases := state.databases.filter (·.1 ≠ name)
      schemas := state.schemas.filter (·.1 ≠ name)
      tables := state.tables.filter (·.1 ≠ name) }

def createSchema (ident : SchemaIdent) : Outcome :=
  if schemaKey ident ∈ state.schemas then
    .error (schemaAlreadyExists ident.schema ident.database)
  else if ident.database ∈ state.databaseNames then
    .ok { state with schemas := schemaKey ident :: state.schemas }
  else .error (databaseNotFound ident.database)

def updateSchema (ident : SchemaIdent) : Outcome :=
  if schemaKey ident ∈ state.schemas then .ok state
  else .error (schemaNotFound ident.schema ident.database)

/-- The tables are looked for under the names as given, the schema in lower case. -/
def deleteSchema (ident : SchemaIdent) (cascade : Bool) : Outcome :=
  let inSchema := fun key : String × String × String =>
    key.1 = ident.database ∧ key.2.1 = ident.schema
  if (∃ key ∈ state.tables, inSchema key) ∧ cascade = false then
    .error (schemaNotFound ident.schema ident.database)
  else
    .ok { state with
      tables := state.tables.filter fun key => ¬inSchema key
      schemas := state.schemas.filter (· ≠ schemaKey ident) }

def createTable (ident : TableIdent) (volumeIdent : Option String)
    (metadata putMetadata : Except MetastoreError Unit) : Outcome := do
  if schemaKey ident.toSchemaIdent ∉ state.schemas then
    .error (schemaNotFound ident.schema ident.database)
  else if tableKey ident ∈ state.tables then
    .error (tableAlreadyExists ident.table ident.schema ident.database)
  else do
    let volume ← match volumeIdent with
      | some volume => .ok volume
      | none => (state.ensureDatabase ident.database).map Database.volume
    metadata
    state.ensureVolume volume
    putMetadata
    return { state with tables := tableKey ident :: state.tables }

def registerTable (ident : TableIdent) : MetastoreState :=
  { state with tables := tableKey ident :: state.tables }

def updateTable (ident : TableIdent) (objectStore update : Except MetastoreError Unit) :
    Outcome := do
  objectStore
  if tableKey ident ∉ state.tables then
    .error (tableNotFound ident.table ident.schema ident.database)
  else do
    update
    return state

def deleteTable (ident : TableIdent) : MetastoreState :=
  { state with tables := state.tables.filter (· ≠ tableKey ident) }

/-- Every database refers to a volume, every schema to a database, every table to both. -/
@[mk_iff] structure Integrity : Prop where
  volume : ∀ db ∈ state.databases, db.2.volume ∈ state.volumes
  database : ∀ key ∈ state.schemas, key.1 ∈ state.databaseNames
  schema : ∀ key ∈ state.tables, (key.1, key.2.1) ∈ state.schemas ∧ key.1 ∈ state.databaseNames

end MetastoreState

/-- A call, with what the code outside the metastore answers. -/
inductive MetastoreCall where
  | createVolume (name : String) (objectStore : Except MetastoreError Unit)
  | updateVolume (name : String) (objectStore : Except MetastoreError Unit)
  | deleteVolume (name : String) (cascade : Bool)
  | createDatabase (name : String) (database : Database)
  | updateDatabase (name : String) (database : Database)
  | deleteDatabase (name : String) (cascade : Bool)
  | createSchema (ident : SchemaIdent)
  | updateSchema (ident : SchemaIdent)
  | deleteSchema (ident : SchemaIdent) (cascade : Bool)
  | createTable (ident : TableIdent) (volumeIdent : Option String)
      (metadata putMetadata : Except MetastoreError Unit)
  | registerTable (ident : TableIdent)
  | updateTable (ident : TableIdent) (objectStore update : Except MetastoreError Unit)
  | deleteTable (ident : TableIdent) (cascade : Bool)

namespace MetastoreCall

open MetastoreState

def result (state : MetastoreState) : MetastoreCall → Outcome
  | createVolume name store => state.createVolume name store
  | updateVolume name store => state.updateVolume name store
  | deleteVolume name cascade => state.deleteVolume name cascade
  | createDatabase name database => state.createDatabase name database
  | updateDatabase name database => state.updateDatabase name database
  | deleteDatabase name cascade => state.deleteDatabase name cascade
  | createSchema ident => state.createSchema ident
  | updateSchema ident => state.updateSchema ident
  | deleteSchema ident cascade => state.deleteSchema ident cascade
  | createTable ident volume metadata put => state.createTable ident volume metadata put
  | registerTable ident => .ok (state.registerTable ident)
  | updateTable ident store update => state.updateTable ident store update
  | deleteTable ident _ => .ok (state.deleteTable ident)

/-- What a call that succeeds has to meet for its result to keep the references. -/
def Sound (state : MetastoreState) : MetastoreCall → Prop
  | deleteVolume name true =>
    ∀ db ∈ state.databases, db.2.volume = name → db.1 ∈ state.inUse name
  | updateDatabase _ database => database.volume ∈ state.volumes
  | createSchema ident => (schemaKey ident).1 ∈ state.databaseNames
  | deleteSchema ident _ => (ident.database, ident.schema) = schemaKey ident ∨
    ∀ key ∈ state.tables, (key.1, key.2.1) ≠ schemaKey ident
  | registerTable ident => schemaKey ident.toSchemaIdent ∈ state.schemas
  | _ => True

/-- The call fails or is sound. -/
def Checked (state : MetastoreState) (call : MetastoreCall) : Prop :=
  ∀ next, call.result state = .ok next → call.Sound state

variable {state s next : MetastoreState}

lemma inUse_eq_nil_iff {name : String} :
    s.inUse name = [] ↔ ∀ db ∈ s.databases, db.2.volume ≠ name := by
  simp [inUse]

lemma databaseNames_update (nm : String) (d : Database) :
    ({ s with databases := s.databases.map fun db =>
      if db.1 = nm then (nm, d) else db } : MetastoreState).databaseNames =
      s.databaseNames := by
  rw [databaseNames, databaseNames, List.map_map]
  exact List.map_congr_left fun db _ => by grind

lemma integrity_result_iff (h : state.Integrity) (cl : MetastoreCall)
    (hr : cl.result state = .ok next) : next.Integrity ↔ cl.Sound state := by
  rw [integrity_iff] at h ⊢
  cases cl with
  | createVolume nm s =>
    obtain ⟨-, -, hr⟩ := bind_eq_ok.mp hr
    grind [Sound, databaseNames]
  | updateVolume nm s =>
    obtain ⟨-, -, hr⟩ := bind_eq_ok.mp hr
    grind [Sound]
  | deleteVolume nm c =>
    rw [result, MetastoreState.deleteVolume] at hr
    cases c with
    | true =>
      cases hr
      simp only [Sound, databaseNames, List.mem_filter, List.mem_map] at h ⊢
      grind
    | false => grind [Sound, inUse_eq_nil_iff, databaseNames]
  | createDatabase nm d =>
    obtain ⟨_, hv, hr⟩ := bind_eq_ok.mp hr
    grind [Sound, databaseNames, ensureVolume]
  | updateDatabase nm d =>
    rw [result, MetastoreState.updateDatabase] at hr
    split at hr
    case isTrue hm =>
      cases hr
      obtain ⟨db, hdb, rfl⟩ := List.mem_map.mp hm
      simp only [databaseNames_update, Sound, List.forall_mem_map]
      exact ⟨fun h' => by simpa using h'.1 db hdb, fun hs => ⟨fun db hm => by grind, h.2⟩⟩
    case isFalse => cases hr
  | deleteDatabase nm c =>
    rw [result, MetastoreState.deleteDatabase] at hr
    split at hr
    case isTrue => cases hr
    case isFalse =>
      cases hr
      simp only [Sound, databaseNames, List.mem_filter, List.mem_map] at h ⊢
      grind
  | createSchema i => grind [result, MetastoreState.createSchema, Sound, databaseNames]
  | updateSchema i => grind [result, MetastoreState.updateSchema, Sound]
  | deleteSchema i c =>
    rw [result, MetastoreState.deleteSchema] at hr
    split at hr
    case isTrue => cases hr
    case isFalse =>
      cases hr
      simp only [Sound, databaseNames, List.mem_filter, decide_eq_true_eq] at h ⊢
      grind
  | createTable i volume metadata put =>
    simp only [result, MetastoreState.createTable] at hr
    grind [Sound, databaseNames, bind_eq_ok, tableKey, schemaKey, pure_eq_ok]
  | registerTable i =>
    grind [result, MetastoreState.registerTable, Sound, databaseNames, tableKey, schemaKey]
  | updateTable i s update =>
    obtain ⟨-, -, hr⟩ := bind_eq_ok.mp hr
    grind [Sound, bind_eq_ok, pure_eq_ok]
  | deleteTable i c => grind [result, MetastoreState.deleteTable, Sound, databaseNames]

end MetastoreCall

def metastore : TransitionSystem MetastoreState MetastoreCall where
  init := {}
  step state call := some ((call.result state).toOption.getD state)

open TransitionSystem

/-! ### Main result -/

/-- **The references are kept in all states of a run exactly if every call that succeeds is
sound.** -/
theorem integrity_iff_checked {calls : List MetastoreCall} {state : MetastoreState}
    (h : metastore.Run anyStep calls state) :
    (∀ before state', before <+: calls → metastore.Run anyStep before state' →
      state'.Integrity) ↔ metastore.Run (fun state call => call.Checked state) calls state := by
  refine run_iff_always (P := fun _ state' => state'.Integrity) ?_ ?_ h
  · exact ⟨List.forall_mem_nil _, List.forall_mem_nil _, List.forall_mem_nil _⟩
  · intro calls state next call _ hi hs
    cases hs
    cases hr : call.result state with
    | ok next =>
      refine (MetastoreCall.integrity_result_iff hi call hr).trans ⟨fun hc _ _ => hc, fun hc => ?_⟩
      exact hc next hr
    | error e => exact iff_of_true hi fun next hn => by cases hr.symm.trans hn

def databaseCalls : List MetastoreCall :=
  [.createVolume "v" (.ok ()), .createDatabase "db" ⟨"db", "v"⟩]

def Breaks (calls : List MetastoreCall) : Prop :=
  ∃ state, metastore.Run anyStep calls state ∧ ¬state.Integrity

/-- A database is moved to a volume that does not exist, a table is registered without a schema,
and a schema is deleted under a name in capitals, which keeps its table. -/
theorem not_integrity : Breaks (databaseCalls ++ [.updateDatabase "db" ⟨"db", "w"⟩]) ∧
    Breaks [.registerTable ⟨⟨"db", "s"⟩, "t"⟩] ∧
    Breaks (databaseCalls ++ [.createSchema ⟨"db", "s"⟩, .registerTable ⟨⟨"db", "s"⟩, "t"⟩,
      .deleteSchema ⟨"DB", "S"⟩ false]) := by
  refine ⟨⟨_, exec_eq_some_iff.mp rfl, fun h => ?_⟩, ⟨_, exec_eq_some_iff.mp rfl, fun h => ?_⟩,
    ⟨_, exec_eq_some_iff.mp rfl, fun h => ?_⟩⟩
  · exact absurd (h.volume _ (.head _)) (by decide)
  · exact absurd (h.schema _ (.head _)).1 (by decide)
  · exact absurd (h.schema _ (.head _)).1 (by decide)

theorem integrity_databaseCalls : (∃ state, metastore.Run anyStep databaseCalls state) ∧
    ∀ before state', before <+: databaseCalls →
      metastore.Run anyStep before state' → state'.Integrity :=
  ⟨⟨_, exec_eq_some_iff.mp rfl⟩, (integrity_iff_checked (exec_eq_some_iff.mp rfl)).mpr
    (.snoc (.snoc .nil (fun _ _ => trivial) rfl) (fun _ _ => trivial) rfl)⟩

end Metastore

end Rustice
