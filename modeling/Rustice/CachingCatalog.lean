import Rustice.CachingSchema

/-!
# The Caching Catalog

A `CachingCatalog` wraps a catalog provider and caches a `CachingSchema` for every schema that was
looked up or registered.
-/

namespace Rustice

open Option AList

structure SchemaObject (τ : Type) where
  schema : ℕ
  icebergNamespace : String
  tablesCache : AList fun _ : String => CachingTable τ

inductive SchemaRef where
  | wrapped (address : ℕ)
  | caching (address : ℕ)

structure CachingCatalog (τ : Type) where
  name : String
  catalog : AList fun _ : String => ℕ
  icebergCatalog : Option (String → IcebergCatalog τ)
  schemasCache : AList fun _ : String => ℕ
  schemas : ℕ → SchemaProvider τ
  objects : List (SchemaObject τ)

inductive CatalogCall (τ ε : Type) where
  | schema (name : String)
  | schemaNames
  | registerSchema (fault : Option ε) (name : String) (stored : Option ℕ)
  | deregisterSchema (fault : Option ε) (name : String)
  | table (address : ℕ) (call : SchemaCall τ ε)

open TransitionSystem

namespace CachingCatalog

variable {τ ε : Type} (c : CachingCatalog τ)

def wrap (name : String) (schema : ℕ) : CachingCatalog τ :=
  { c with
    objects := c.objects ++ [⟨schema, name, ∅⟩]
    schemasCache := c.schemasCache.insert name c.objects.length }

def schemaNames : List String × CachingCatalog τ :=
  let names := c.catalog.keys.insertionSort (· ≤ ·)
  (names, { c with schemasCache := retain (fun name _ => name ∈ names) c.schemasCache })

def schema (name : String) : Option SchemaRef × CachingCatalog τ :=
  match c.schemasCache.lookup name with
  | some address => (some (.caching address), c)
  | none =>
    match c.catalog.lookup name with
    | some schema => (some (.caching c.objects.length), c.wrap name schema)
    | none => (none, c)

def registeredSchemaMessage (name : String) : String :=
  "Failed to look up newly registered schema " ++ name ++ " in catalog " ++ c.name

def registerSchema (fault : Option ε) (name : String) (stored : Option ℕ) :
    Except (DataFusionError ε) (Option SchemaRef) × CachingCatalog τ :=
  match fault with
  | some e => (.error (.provider e), c)
  | none =>
    let old := (c.catalog.lookup name).map SchemaRef.wrapped
    let c := { c with catalog := (stored.map (c.catalog.insert name)).getD c.catalog }
    if c.icebergCatalog.isNone then (.ok old, c)
    else
      match c.catalog.lookup name with
      | none => (.error (.internal (c.registeredSchemaMessage name)), c)
      | some schema => (.ok (some (.caching c.objects.length)), c.wrap name schema)

def deregisterSchema (fault : Option ε) (name : String) :
    Except (DataFusionError ε) (Option SchemaRef) × CachingCatalog τ :=
  match fault with
  | some e => (.error (.provider e), c)
  | none =>
    let old := (c.catalog.lookup name).map SchemaRef.wrapped
    let c := { c with catalog := c.catalog.erase name }
    if c.icebergCatalog.isNone then (.ok old, c)
    else
      (.ok ((c.schemasCache.lookup name).map .caching),
        { c with schemasCache := c.schemasCache.erase name })

def cachingSchema (address : ℕ) : Option (CachingSchema τ) :=
  c.objects[address]?.map fun object =>
    ⟨c.schemas object.schema, c.icebergCatalog.map (· object.icebergNamespace), object.tablesCache⟩

def setCachingSchema (address : ℕ) (s : CachingSchema τ) : CachingCatalog τ :=
  match c.objects[address]? with
  | none => c
  | some object =>
    { c with
      schemas := Function.update c.schemas object.schema s.schema
      icebergCatalog := c.icebergCatalog.map fun remote =>
        (s.icebergCatalog.map (Function.update remote object.icebergNamespace)).getD remote
      objects := c.objects.set address { object with tablesCache := s.tablesCache } }

def step : CatalogCall τ ε → Option (CachingCatalog τ)
  | .schema name => some (c.schema name).2
  | .schemaNames => some c.schemaNames.2
  | .registerSchema fault name stored => some (c.registerSchema fault name stored).2
  | .deregisterSchema fault name => some (c.deregisterSchema fault name).2
  | .table address call =>
    (c.cachingSchema address).map fun s => c.setCachingSchema address (s.after call)

def system (name : String) (catalog : AList fun _ : String => ℕ)
    (icebergCatalog : Option (String → IcebergCatalog τ)) (schemas : ℕ → SchemaProvider τ) :
    TransitionSystem (CachingCatalog τ) (CatalogCall τ ε) where
  init := ⟨name, catalog, icebergCatalog, ∅, schemas, []⟩
  step c call := c.step call

variable {c} {d : CachingCatalog τ} {a : ℕ}

lemma cachingSchema_setCachingSchema {s t : CachingSchema τ}
    (hs : c.cachingSchema a = some s) (hso : t.icebergCatalog.isSome = s.icebergCatalog.isSome) :
    (c.setCachingSchema a t).cachingSchema a = some t := by
  obtain ⟨object, ho, rfl⟩ := map_eq_some_iff.mp hs
  have hlt : a < c.objects.length := (List.getElem?_eq_some_iff.mp ho).1
  simp only [setCachingSchema, ho, cachingSchema, List.getElem?_set_self hlt,
    map_some, Function.update_self, map_map]
  obtain ⟨schema, icebergCatalog, tablesCache⟩ := t
  congr 2
  cases hr : c.icebergCatalog with
  | none =>
    rw [hr, map_none, isSome_none, isSome_eq_false_iff] at hso
    exact (isNone_iff_eq_none.mp hso).symm
  | some remote =>
    rw [hr] at hso
    obtain ⟨catalog, rfl⟩ := isSome_iff_exists.mp hso
    simp

lemma cachingSchema_step {cl : SchemaCall τ ε} {s : CachingSchema τ}
    (hs : c.cachingSchema a = some s) (hst : c.step (.table a cl) = some d) :
    d.cachingSchema a = some (s.after cl) := by
  rw [step, hs, map_some] at hst
  obtain rfl := some.inj hst
  exact cachingSchema_setCachingSchema hs (s.step_after cl).isSome_icebergCatalog

variable {name nm : String} {r : Option SchemaRef} {f : Option ε}

lemma mem_schemaNames : nm ∈ c.schemaNames.1 ↔ nm ∈ c.catalog := by
  rw [schemaNames, List.mem_insertionSort]
  rfl

lemma schema_eq_none_iff : (c.schema nm).1 = none ↔ nm ∉ c.schemasCache ∧ nm ∉ c.catalog := by
  rw [← lookup_eq_none, ← lookup_eq_none, schema]
  cases c.schemasCache.lookup nm with
  | some address => simp
  | none =>
    cases c.catalog.lookup nm with
    | some schema => simp
    | none => simp

lemma deregisterSchema_ok (h : c.deregisterSchema f nm = (.ok r, d)) :
    d.catalog = c.catalog.erase nm ∧ d.schemasCache =
        if c.icebergCatalog.isSome then c.schemasCache.erase nm else c.schemasCache := by
  cases f with
  | some e => cases h
  | none =>
    simp only [deregisterSchema] at h
    cases hr : c.icebergCatalog with
    | none =>
      rw [hr] at h
      cases h
      exact ⟨rfl, rfl⟩
    | some remote =>
      rw [hr] at h
      cases h
      exact ⟨rfl, rfl⟩

lemma schema_eq_none_of_deregisterSchema_iff (h : c.deregisterSchema f nm = (.ok r, d)) :
    ((d.schema nm).1 = none ∧ nm ∉ d.schemaNames.1) ↔
      c.icebergCatalog.isSome ∨ nm ∉ c.schemasCache := by
  obtain ⟨hc, hcac⟩ := deregisterSchema_ok h
  have hn : nm ∉ d.catalog := by simp [hc, mem_erase]
  rw [schema_eq_none_iff, mem_schemaNames, hcac]
  by_cases hs : c.icebergCatalog.isSome
  · simp [hs, hn, mem_erase]
  · simp [hs, hn]

/-! ### Main result -/

/-- **A deregistered schema is gone** exactly if it was not cached or the catalog is remote; a
table, if it was cached as one or not stored. -/
theorem deregister_coherent_iff (c : CachingCatalog τ) :
    (∀ (fault : Option ε) (name : String) (r : Option SchemaRef) (d : CachingCatalog τ),
      c.deregisterSchema fault name = (.ok r, d) →
        (((d.schema name).1 = none ∧ name ∉ d.schemaNames.1) ↔
          c.icebergCatalog.isSome ∨ name ∉ c.schemasCache)) ∧
    (∀ (address : ℕ) (s : CachingSchema τ) (faults : Faults ε) (name : String)
      (r : Option (TableProvider τ)) (d : CachingCatalog τ),
      c.cachingSchema address = some s → (s.deregisterTable faults name).1 = .ok r →
        c.step (.table address (.deregisterTable faults name)) = some d →
          ∃ t, d.cachingSchema address = some t ∧
            ((t.tableExist name = false ∧ name ∉ t.tableNames) ↔
              CachingSchema.isTable (s.tablesCache.lookup name) = true ∨ name ∉ s.schema)) := by
  refine ⟨fun _ _ _ _ => schema_eq_none_of_deregisterSchema_iff, ?_⟩
  intro address s faults name r d hs ho hst
  exact ⟨_, cachingSchema_step hs hst,
    CachingSchema.not_tableExist_of_deregisterTable_iff (Prod.ext ho rfl)⟩

def publicCatalog (icebergCatalog : Option (String → IcebergCatalog ℕ)) :
    TransitionSystem (CachingCatalog ℕ) (CatalogCall ℕ Unit) :=
  system "embucket" (AList.singleton "public" 0) icebergCatalog
    fun _ => AList.singleton "t" (.table .base 0)

theorem deregister_coherent_iceberg :
    ∃ c d r, (publicCatalog (some fun _ => ∅)).Run anyStep
        [.schema "public"] c ∧
      c.deregisterSchema (none : Option Unit) "public" = (.ok r, d) ∧
      (d.schema "public").1 = none ∧ "public" ∉ d.schemaNames.1 := by
  obtain ⟨c, hc⟩ : ∃ c, (publicCatalog (some fun _ => ∅)).exec anyStep
      [.schema "public"] = some c := ⟨_, rfl⟩
  obtain ⟨r, d, hd⟩ : ∃ r d, c.deregisterSchema (none : Option Unit) "public" = (.ok r, d) := by
    obtain rfl := some.inj hc
    exact ⟨_, _, rfl⟩
  refine ⟨c, d, r, exec_eq_some_iff.mp hc, hd, ?_⟩
  refine ((deregister_coherent_iff c).1 none "public" r d hd).mpr (.inl ?_)
  obtain rfl := some.inj hc
  rfl

theorem deregister_incoherent_plain :
    ∃ c, (publicCatalog none).Run anyStep [.schema "public"] c ∧
      (∃ r d, c.deregisterSchema (none : Option Unit) "public" = (.ok r, d) ∧
        (d.schema "public").1 = some (.caching 0)) ∧
      (∃ s t d, c.cachingSchema 0 = some s ∧
        (s.deregisterTable (.none : Faults Unit) "t").1 = .ok none ∧
        c.step (.table 0 (.deregisterTable (.none : Faults Unit) "t")) = some d ∧
        d.cachingSchema 0 = some t ∧ t.tableExist "t" = true) :=
  ⟨_, exec_eq_some_iff.mp rfl, ⟨_, _, rfl, rfl⟩, _, _, _, rfl, rfl, rfl, rfl, rfl⟩

end CachingCatalog

end Rustice
