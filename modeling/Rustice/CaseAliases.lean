import Rustice.AsciiCase
import Rustice.CachingCatalog
import Rustice.Fallible

/-!
# Case Aliases of Bootstrap Tables

`register_iceberg_catalog_lazy` registers a remote catalog that may not be listed.
-/

namespace Rustice

open List Option AList Function

structure Identifier where
  namespaceParts : List String
  name : String
  deriving DecidableEq

def Identifier.namespaceText (id : Identifier) : String := ".".intercalate id.namespaceParts

def parseBootstrapTableIdentifier (trim : String → String) (table : String) :
    Option Identifier :=
  let parts := ((table.toList.splitOn '.').map fun part => trim (.ofList part)).filter (· ≠ "")
  if parts.length < 2 then none else some ⟨parts.dropLast, parts.getLastD ""⟩

def caseAliases (name : String) : List String :=
  [name, toAsciiLowercase name, toAsciiUppercase name].foldl
    (fun aliases spelling => if spelling ∈ aliases then aliases else aliases ++ [spelling]) []

open CachingSchema

lemma mem_caseAliases {name s : String} :
    s ∈ caseAliases name ↔ s = name ∨ s = toAsciiLowercase name ∨ s = toAsciiUppercase name := by
  rw [caseAliases, mem_foldl_push]
  simp

lemma self_mem_caseAliases (name : String) : name ∈ caseAliases name :=
  mem_caseAliases.mpr (.inl rfl)

section Register

variable {τ ε : Type} {a : ℕ} {name : String} {nm : String} {i : CachingCatalog τ}

def registerMirrorSchema (catalog : AList fun _ : String => ℕ) (name : String) :
    AList fun _ : String => ℕ :=
  if name ∈ catalog then catalog else catalog.insert name catalog.entries.length

def mirrorSchemas (bootstrapSchemas : List String) (identifiers : List Identifier) :
    AList fun _ : String => ℕ :=
  (bootstrapSchemas ++ identifiers.flatMap fun id => caseAliases id.namespaceText).foldl
    registerMirrorSchema ∅

def bootstrapCachingSchema (c : CachingCatalog τ) (name icebergNamespace : String) :
    Except (CatalogError ε) (ℕ × CachingCatalog τ) :=
  match c.schemasCache.lookup name with
  | some address => .ok (address, c)
  | none =>
    match c.catalog.lookup name with
    | none => .error (.dataFusion (.internal
        ("Bootstrap Iceberg schema " ++ name ++ " was not found")))
    | some schema => .ok (c.objects.length, { c with
          objects := c.objects ++ [⟨schema, icebergNamespace, ∅⟩]
          schemasCache := c.schemasCache.insert name c.objects.length })

def cacheTable (c : CachingCatalog τ) (address : ℕ) (spelling : String) (table : CachingTable τ) :
    CachingCatalog τ :=
  match c.objects[address]? with
  | none => c
  | some object =>
    { c with
      objects := c.objects.set address
        { object with tablesCache := object.tablesCache.insert spelling table } }

def bootstrapAlias (namespaceText : String) (table : CachingTable τ) (c : CachingCatalog τ)
    (namespaceAlias : String) : Except (CatalogError ε) (CachingCatalog τ) := do
  let (address, c) ← bootstrapCachingSchema c namespaceAlias namespaceText
  pure ((caseAliases table.name).foldl (fun c spelling => cacheTable c address spelling table) c)

def bootstrapTable (remote : List String → IcebergCatalog τ) (c : CachingCatalog τ)
    (id : Identifier) : Except (CatalogError ε) (CachingCatalog τ) := do
  let (_, c) ← bootstrapCachingSchema c id.namespaceText id.namespaceText
  match (remote id.namespaceParts).lookup id.name with
  | none => .error (.dataFusion (.internal ("Bootstrap Iceberg table " ++
      id.namespaceText ++ "." ++ id.name ++ " was not found")))
  | some tabular =>
    (caseAliases id.namespaceText).foldlM
      (bootstrapAlias id.namespaceText ⟨id.name, tabular.toProvider⟩) c

def lazyCatalog (name : String) (remote : List String → IcebergCatalog τ)
    (bootstrapSchemas : List String) (identifiers : List Identifier) : CachingCatalog τ :=
  ⟨name, mirrorSchemas bootstrapSchemas identifiers, some fun ns => remote [ns], ∅, fun _ => ∅, []⟩

def registerIcebergCatalogLazy (trim : String → String) (name : String)
    (remote : List String → IcebergCatalog τ) (bootstrapSchemas bootstrapTables : List String) :
    Except (CatalogError ε) (CachingCatalog τ) :=
  let identifiers := bootstrapTables.filterMap (parseBootstrapTableIdentifier trim)
  identifiers.foldlM (bootstrapTable remote) (lazyCatalog name remote bootstrapSchemas identifiers)

def CachingCatalog.objectOf (c : CachingCatalog τ) (name : String) : Option (SchemaObject τ) :=
  (c.schemasCache.lookup name).bind fun address => c.objects[address]?

structure CachingCatalog.OwnObjects (c : CachingCatalog τ) : Prop where
  lt_length : ∀ {name address}, c.schemasCache.lookup name = some address →
    address < c.objects.length
  injective : ∀ {name name' address}, c.schemasCache.lookup name = some address →
    c.schemasCache.lookup name' = some address → name = name'

namespace CachingCatalog

variable {c : CachingCatalog τ}

lemma OwnObjects.exists_object (h : c.OwnObjects) (ha : c.schemasCache.lookup nm = some a) :
    ∃ object, c.objects[a]? = some object ∧ c.objectOf nm = some object := by
  have hlt := h.lt_length ha
  refine ⟨_, getElem?_eq_getElem hlt, ?_⟩
  rw [objectOf, ha, bind_some, getElem?_eq_getElem hlt]

lemma OwnObjects.objectOf_eq_none_iff (h : c.OwnObjects) :
    c.objectOf nm = none ↔ c.schemasCache.lookup nm = none := by
  cases hl : c.schemasCache.lookup nm with
  | none => simp [objectOf, hl]
  | some address =>
    obtain ⟨object, -, ho⟩ := h.exists_object hl
    simp [ho]

def addObject (c : CachingCatalog τ) (name : String) (object : SchemaObject τ) :
    CachingCatalog τ :=
  { c with
    objects := c.objects ++ [object]
    schemasCache := c.schemasCache.insert name c.objects.length }

lemma OwnObjects.addObject (h : c.OwnObjects) (nm : String) (o : SchemaObject τ) :
    (c.addObject nm o).OwnObjects := by
  have hc : ∀ {nm' address}, (c.addObject nm o).schemasCache.lookup nm' = some address →
      nm' = nm ∧ c.objects.length = address ∨ nm' ≠ nm ∧ c.schemasCache.lookup nm' = some address :=
    fun hl => lookup_insert_eq_some_iff.mp hl
  constructor
  · intro nm' address hl
    have hlen : (c.addObject nm o).objects.length = c.objects.length + 1 := by
      simp [CachingCatalog.addObject]
    rcases hc hl with ⟨-, rfl⟩ | ⟨-, ho⟩
    · omega
    · have := h.lt_length ho
      omega
  · intro nm₁ nm₂ address h₁ h₂
    rcases hc h₁ with ⟨rfl, rfl⟩ | ⟨-, ho₁⟩ <;> rcases hc h₂ with ⟨rfl, hlen⟩ | ⟨-, ho₂⟩
    · rfl
    · have := h.lt_length ho₂
      omega
    · have := h.lt_length ho₁
      omega
    · exact h.injective ho₁ ho₂

lemma OwnObjects.objectOf_addObject (h : c.OwnObjects) (name name' : String) (o : SchemaObject τ) :
    (c.addObject name o).objectOf name' = if name' = name then some o else c.objectOf name' := by
  simp only [objectOf, CachingCatalog.addObject]
  by_cases hn : name' = name
  · subst hn
    rw [lookup_insert, bind_some, if_pos rfl, getElem?_concat_length]
  · rw [lookup_insert_ne hn, if_neg hn]
    cases hl : c.schemasCache.lookup name' with
    | none => rfl
    | some address => rw [bind_some, bind_some, getElem?_append_left (h.lt_length hl)]

lemma OwnObjects.objectOf_of_set (h : c.OwnObjects) {nm nm' : String}
    (ha : c.schemasCache.lookup nm = some a) (o : SchemaObject τ)
    (hc : i.schemasCache = c.schemasCache)
    (ho : i.objects = c.objects.set a o) :
    i.objectOf nm' = if nm' = nm then some o else c.objectOf nm' := by
  rw [objectOf, objectOf, hc, ho]
  by_cases hn : nm' = nm
  · subst hn
    rw [ha, bind_some, if_pos rfl, getElem?_set_self (h.lt_length ha)]
  · rw [if_neg hn]
    cases hl : c.schemasCache.lookup nm' with
    | none => rfl
    | some address' =>
      have hne : a ≠ address' := by
        rintro rfl
        exact hn (h.injective hl ha)
      rw [bind_some, bind_some, getElem?_set_ne hne]

lemma OwnObjects.of_set (h : c.OwnObjects) {o : SchemaObject τ}
    (hc : i.schemasCache = c.schemasCache)
    (ho : i.objects = c.objects.set a o) : i.OwnObjects := by
  constructor
  · intro nm a' hl
    rw [hc] at hl
    rw [ho, length_set]
    exact h.lt_length hl
  · intro nm nm' a' h₁ h₂
    rw [hc] at h₁ h₂
    exact h.injective h₁ h₂

end CachingCatalog

/-- Every entry belongs to one of the identifiers, under one of its spellings. -/
structure Bootstrapped (remote : List String → IcebergCatalog τ) (identifiers : List Identifier)
    (c : CachingCatalog τ) : Prop where
  own : c.OwnObjects
  iceberg : c.icebergCatalog = some fun ns => remote [ns]
  icebergNamespace : ∀ {name object}, c.objectOf name = some object →
    ∃ id ∈ identifiers, name ∈ caseAliases id.namespaceText ∧
      object.icebergNamespace = id.namespaceText
  cached : ∀ {name object spelling table}, c.objectOf name = some object →
    object.tablesCache.lookup spelling = some table →
    ∃ id ∈ identifiers, ∃ tabular, name ∈ caseAliases id.namespaceText ∧
      spelling ∈ caseAliases id.name ∧
      (remote id.namespaceParts).lookup id.name = some tabular ∧
      table = ⟨id.name, tabular.toProvider⟩

def Cached (c : CachingCatalog τ) (name spelling : String) : Prop :=
  ∃ o, c.objectOf name = some o ∧ spelling ∈ o.tablesCache

section Invariant

variable {r : List String → IcebergCatalog τ} {ids : List Identifier}
  {c d : CachingCatalog τ} {id : Identifier} {t : IcebergTabular τ}

lemma bootstrapCachingSchema_inv {nm ns : String}
    (ho : bootstrapCachingSchema (ε := ε) c nm ns = .ok (a, d)) :
    c.schemasCache.lookup nm = some a ∧ d = c ∨
      c.schemasCache.lookup nm = none ∧ a = c.objects.length ∧
        ∃ sch, d = c.addObject nm ⟨sch, ns, ∅⟩ := by
  rw [bootstrapCachingSchema] at ho
  cases hl : c.schemasCache.lookup nm with
  | some found =>
    rw [hl] at ho
    obtain ⟨rfl, rfl⟩ := Prod.mk.inj (Except.ok.inj ho)
    exact .inl ⟨rfl, rfl⟩
  | none =>
    rw [hl] at ho
    cases hc : c.catalog.lookup nm with
    | none =>
      rw [hc] at ho
      cases ho
    | some sch =>
      rw [hc] at ho
      obtain ⟨rfl, rfl⟩ := Prod.mk.inj (Except.ok.inj ho)
      exact .inr ⟨rfl, rfl, sch, rfl⟩

lemma Bootstrapped.bootstrapCachingSchema (h : Bootstrapped r ids c)
    (hid : id ∈ ids) (hn : name ∈ caseAliases id.namespaceText)
    (hok : bootstrapCachingSchema (ε := ε) c name id.namespaceText = .ok (a, d)) :
    Bootstrapped r ids d ∧ d.schemasCache.lookup name = some a ∧
      ∀ {name' spelling}, Cached c name' spelling → Cached d name' spelling := by
  rcases bootstrapCachingSchema_inv hok with ⟨hl, rfl⟩ | ⟨hl, rfl, schema, rfl⟩
  · exact ⟨h, hl, fun hc => hc⟩
  · have hob := fun name' =>
      h.own.objectOf_addObject name name' ⟨schema, id.namespaceText, ∅⟩
    refine ⟨⟨h.own.addObject _ _, h.iceberg, ?_, ?_⟩, lookup_insert _, ?_⟩
    · intro name' o ho
      rw [hob] at ho
      split at ho
      · rename_i heq
        obtain rfl := some.inj ho
        exact ⟨id, hid, heq ▸ hn, rfl⟩
      · exact h.icebergNamespace ho
    · intro name' o spelling table ho hc
      rw [hob] at ho
      split at ho
      · obtain rfl := some.inj ho
        cases hc
      · exact h.cached ho hc
    · rintro name' spelling ⟨o, ho, hm⟩
      have hne : name' ≠ name := by
        rintro rfl
        rw [h.own.objectOf_eq_none_iff.mpr hl] at ho
        cases ho
      exact ⟨o, by rw [hob, if_neg hne, ho], hm⟩

lemma cacheTable_effect (h : c.OwnObjects) (ha : c.schemasCache.lookup name = some a) (s : String)
    (t : CachingTable τ) :
    (cacheTable c a s t).OwnObjects ∧ (cacheTable c a s t).schemasCache = c.schemasCache ∧
      (cacheTable c a s t).icebergCatalog = c.icebergCatalog ∧
      ∃ o, c.objectOf name = some o ∧ ∀ name', (cacheTable c a s t).objectOf name' =
          if name' = name then
            some { o with tablesCache := o.tablesCache.insert s t }
          else c.objectOf name' := by
  obtain ⟨o, hget, ho⟩ := h.exists_object ha
  rw [cacheTable, hget]
  exact ⟨h.of_set rfl rfl, rfl, rfl, o, ho, fun _ => h.objectOf_of_set ha _ rfl rfl⟩

lemma Bootstrapped.cacheTable (h : Bootstrapped r ids c)
    (hid : id ∈ ids) (hn : nm ∈ caseAliases id.namespaceText)
    (ha : c.schemasCache.lookup nm = some a) {spelling : String}
    (hs : spelling ∈ caseAliases id.name) (ht : (r id.namespaceParts).lookup id.name = some t)
    (hd : d = cacheTable c a spelling ⟨id.name, t.toProvider⟩) :
    Bootstrapped r ids d ∧ d.schemasCache.lookup nm = some a ∧ Cached d nm spelling ∧
      ∀ {nm' spelling'}, Cached c nm' spelling' → Cached d nm' spelling' := by
  obtain ⟨how, hcac, hi, o, hob, ho⟩ :=
    cacheTable_effect h.own ha spelling ⟨id.name, t.toProvider⟩
  rw [← hd] at how hcac hi ho
  refine ⟨⟨how, hi.trans h.iceberg, ?_, ?_⟩, hcac ▸ ha, ?_, ?_⟩
  · intro nm' o' ho'
    rw [ho] at ho'
    split at ho'
    · rename_i heq
      obtain rfl := some.inj ho'
      subst heq
      obtain ⟨id', hi', hn', hns⟩ := h.icebergNamespace hob
      exact ⟨id', hi', hn', hns⟩
    · exact h.icebergNamespace ho'
  · intro nm' o' spelling' table ho' hc
    rw [ho] at ho'
    split at ho'
    · rename_i heq
      obtain rfl := some.inj ho'
      subst heq
      rcases lookup_insert_eq_some_iff.mp hc with ⟨rfl, rfl⟩ | ⟨-, hol⟩
      · exact ⟨id, hid, t, hn, hs, ht, rfl⟩
      · exact h.cached hob hol
    · exact h.cached ho' hc
  · exact ⟨_, by rw [ho, if_pos rfl], by simp [mem_insert]⟩
  · rintro nm' spelling' ⟨o', ho', hm⟩
    by_cases heq : nm' = nm
    · subst heq
      obtain rfl := some.inj (hob.symm.trans ho')
      exact ⟨_, by rw [ho, if_pos rfl], by simp [mem_insert, hm]⟩
    · exact ⟨o', by rw [ho, if_neg heq, ho'], hm⟩

lemma Bootstrapped.bootstrapAlias (h : Bootstrapped r ids c)
    (hid : id ∈ ids) (hn : name ∈ caseAliases id.namespaceText)
    (ht : (r id.namespaceParts).lookup id.name = some t)
    (ho : bootstrapAlias (ε := ε) id.namespaceText ⟨id.name, t.toProvider⟩ c name = .ok d) :
    Bootstrapped r ids d ∧ (∀ spelling ∈ caseAliases id.name, Cached d name spelling) ∧
      ∀ {name' spelling}, Cached c name' spelling → Cached d name' spelling := by
  obtain ⟨⟨a, c₁⟩, hsc, ho⟩ := bind_eq_ok.mp ho
  obtain ⟨h₁, ha, hm₁⟩ := h.bootstrapCachingSchema hid hn hsc
  have hd := pure_eq_ok.mp ho
  -- the loop over the spellings keeps the invariant and what is cached, and caches each of them
  have hl : ∀ (ss : List String) (c₂ : CachingCatalog τ),
      (∀ spelling ∈ ss, spelling ∈ caseAliases id.name) →
      Bootstrapped r ids c₂ → c₂.schemasCache.lookup name = some a →
      let d := ss.foldl (fun c spelling =>
        Rustice.cacheTable c a spelling ⟨id.name, t.toProvider⟩) c₂
      Bootstrapped r ids d ∧ (∀ spelling ∈ ss, Cached d name spelling) ∧
        ∀ {name' spelling}, Cached c₂ name' spelling → Cached d name' spelling := by
    intro ss
    induction ss with
    | nil => exact fun c₂ _ h₂ _ => ⟨h₂, by simp, fun hc => hc⟩
    | cons spelling ss ih =>
      intro c₂ hm h₂ ha₂
      rw [forall_mem_cons] at hm
      obtain ⟨h₃, ha₃, hnw, hmon⟩ := h₂.cacheTable hid hn ha₂ hm.1 ht rfl
      obtain ⟨h₄, hal, hm'⟩ := ih _ hm.2 h₃ ha₃
      refine ⟨h₄, ?_, fun hc => hm' (hmon hc)⟩
      rw [forall_mem_cons]
      exact ⟨hm' hnw, hal⟩
  obtain ⟨h₂, hal, hm₂⟩ := hl (caseAliases id.name) c₁ (fun _ hs => hs) h₁ ha
  simp only at hd h₂ hal hm₂
  rw [hd] at h₂ hal hm₂
  exact ⟨h₂, hal, fun hc => hm₂ (hm₁ hc)⟩

lemma Bootstrapped.bootstrapTable (h : Bootstrapped r ids c)
    (hid : id ∈ ids) (ho : bootstrapTable (ε := ε) r c id = .ok d) :
    Bootstrapped r ids d ∧ id.name ∈ r id.namespaceParts ∧
      (∀ name ∈ caseAliases id.namespaceText, ∀ spelling ∈ caseAliases id.name,
        Cached d name spelling) ∧
      ∀ {name' spelling}, Cached c name' spelling → Cached d name' spelling := by
  obtain ⟨⟨address, c₁⟩, hsc, ho⟩ := bind_eq_ok.mp ho
  obtain ⟨h₁, -, hm₁⟩ := h.bootstrapCachingSchema hid (self_mem_caseAliases _) hsc
  cases ht : (r id.namespaceParts).lookup id.name with
  | none =>
    rw [ht] at ho
    cases ho
  | some tabular =>
    rw [ht] at ho
    have hi := foldlM_invariant
      (fun dn e => Bootstrapped r ids e ∧
        (∀ name ∈ dn, ∀ spelling ∈ caseAliases id.name, Cached e name spelling) ∧
        ∀ name' spelling, Cached c₁ name' spelling → Cached e name' spelling)
      ⟨h₁, by simp, fun _ _ hc => hc⟩ ?_ ho
    · obtain ⟨h₂, ha, hm₂⟩ := hi
      exact ⟨h₂, mem_of_lookup ht, ha, fun hc => hm₂ _ _ (hm₁ hc)⟩
    · rintro dn name e e' ⟨h₂, ha, hm⟩ hn hal
      obtain ⟨h₃, hnw, hm'⟩ := h₂.bootstrapAlias hid hn ht hal
      refine ⟨h₃, ?_, fun _ _ hc => hm' (hm _ _ hc)⟩
      intro name' hn' spelling hs
      rcases mem_append.mp hn' with hd | hl
      · exact hm' (ha name' hd spelling hs)
      · obtain rfl := mem_singleton.mp hl
        exact hnw spelling hs

end Invariant

lemma Bootstrapped.of_register {trim : String → String}
    {r : List String → IcebergCatalog τ} {bs bt : List String}
    (hok : registerIcebergCatalogLazy (ε := ε) trim name r bs bt = .ok i) :
    let identifiers := bt.filterMap (parseBootstrapTableIdentifier trim)
    Bootstrapped r identifiers i ∧ ∀ id ∈ identifiers, id.name ∈ r id.namespaceParts ∧
        ∀ name ∈ caseAliases id.namespaceText, ∀ spelling ∈ caseAliases id.name,
          Cached i name spelling := by
  intro identifiers
  have hi : Bootstrapped r identifiers
      (lazyCatalog name r bs identifiers) := by
    refine ⟨⟨?_, ?_⟩, rfl, ?_, ?_⟩
    · intro _ _ hl
      cases hl
    · intro _ _ _ hl
      cases hl
    · intro _ _ ho
      cases ho
    · intro _ _ _ _ ho
      cases ho
  refine foldlM_invariant
    (fun dn e => Bootstrapped r identifiers e ∧ ∀ id ∈ dn, id.name ∈ r id.namespaceParts ∧
        ∀ name ∈ caseAliases id.namespaceText, ∀ spelling ∈ caseAliases id.name,
          Cached e name spelling)
    ⟨hi, by simp⟩ ?_ hok
  rintro dn id e e' ⟨h, ha⟩ hid ht
  obtain ⟨h', hmm, hnw, hm⟩ := h.bootstrapTable hid ht
  refine ⟨h', fun id' hi' => ?_⟩
  rcases mem_append.mp hi' with hd | hlas
  · obtain ⟨hm', hc⟩ := ha id' hd
    exact ⟨hm', fun name hn spelling hs => hm (hc name hn spelling hs)⟩
  · obtain rfl := mem_singleton.mp hlas
    exact ⟨hmm, hnw⟩

end Register

inductive AliasCall where
  | lookup (schema table : String)
  | drop (schema table : String)

namespace AliasCall

variable {τ : Type}

def schema : AliasCall → String
  | lookup schema _ => schema
  | drop schema _ => schema

def schemaCall : AliasCall → SchemaCall τ Unit
  | lookup _ table => .table .none table
  | drop _ table => .dropTableAsync .none table

def objectAfter (call : AliasCall) (object : SchemaObject τ) : SchemaObject τ :=
  match call with
  | lookup _ _ => object
  | drop _ table => { object with tablesCache := object.tablesCache.erase table }

def remoteAfter (call : AliasCall) (object : SchemaObject τ) (catalog : IcebergCatalog τ) :
    IcebergCatalog τ :=
  match call with
  | lookup _ _ => catalog
  | drop _ table =>
    if isTable (object.tablesCache.lookup table) then catalog.erase table
    else catalog

end AliasCall

namespace CachingCatalog

variable {τ : Type} (c : CachingCatalog τ) {spelling : String}

/-- The schema is looked up, or made, and gets the call. -/
def aliasStep (call : AliasCall) : CachingCatalog τ :=
  match c.schema call.schema with
  | (some (.caching address), c) => (c.step (.table address call.schemaCall)).getD c
  | (_, c) => c

def aliasSystem : TransitionSystem (CachingCatalog τ) AliasCall where
  init := c
  step c call := some (c.aliasStep call)

def resolve (schema table : String) : Option Identifier :=
  match c.schema schema with
  | (some (.caching address), c) =>
    match c.objects[address]?, c.cachingSchema address with
    | some object, some s =>
      match (s.table (Faults.none : Faults Unit) table).1 with
      | .ok (some _) => some ⟨[object.icebergNamespace],
          ((object.tablesCache.lookup table).map CachingTable.name).getD table⟩
      | _ => none
    | _, _ => none
  | _ => none

variable {c} {remote r : String → IcebergCatalog τ} {ct : IcebergCatalog τ}

lemma after_schemaCall {s : CachingSchema τ}
    (hs : s.icebergCatalog = some ct) (cl : AliasCall) (o : SchemaObject τ)
    (ho : o.tablesCache = s.tablesCache) :
    (s.after cl.schemaCall).tablesCache = (cl.objectAfter o).tablesCache ∧
      (s.after cl.schemaCall).icebergCatalog = some (cl.remoteAfter o ct) := by
  cases cl with
  | lookup sc tb =>
    have hsam : s.after (AliasCall.schemaCall (.lookup sc tb)) = s := by
      simp only [AliasCall.schemaCall, CachingSchema.after, CachingSchema.table, hs,
        isSome_some, if_true]
      cases s.tablesCache.lookup tb with
      | none => rfl
      | some t => simp only [apply_ite Prod.snd, ite_self]
    rw [hsam]
    exact ⟨ho.symm, hs⟩
  | drop sc tb =>
    refine ⟨?_, ?_⟩
    · show (s.dropTableAsync Faults.none tb).2.tablesCache = _
      rw [tablesCache_dropTableAsync, AliasCall.objectAfter, ho]
    · show (s.dropTableAsync (Faults.none : Faults Unit) tb).2.icebergCatalog = _
      rw [AliasCall.remoteAfter, ho]
      by_cases hm : tb ∈ ct
      · rw [icebergCatalog_dropTableAsync Faults.none hs hm]
        simp only [Faults.none, and_true]
      · rw [erase_eq_self_iff.mpr hm, ite_self]
        by_cases ht : isTable (s.tablesCache.lookup tb) = true
        · simp [dropTableAsync, dropRemote, hs, ht, hm,
            IcebergCatalog.dropTable, Except.map, Faults.none]
        · simp [dropTableAsync, dropRemote, hs, ht, SchemaProvider.deregisterTable, Faults.none]

lemma step_table_effect (h : c.OwnObjects) (hc : c.icebergCatalog = some r) {a : ℕ}
    (ha : c.schemasCache.lookup spelling = some a) (cl : AliasCall) :
    ((c.step (.table a cl.schemaCall)).getD c).OwnObjects ∧
      ∃ object, c.objectOf spelling = some object ∧
        (∀ nm', ((c.step (.table a cl.schemaCall)).getD c).objectOf nm' =
          if nm' = spelling then some (cl.objectAfter object) else c.objectOf nm') ∧
        ((c.step (.table a cl.schemaCall)).getD c).icebergCatalog =
          some (Function.update r object.icebergNamespace
            (cl.remoteAfter object (r object.icebergNamespace))) := by
  obtain ⟨object, hget, ho⟩ := h.exists_object ha
  have hs : c.cachingSchema a = some
      ⟨c.schemas object.schema, some (r object.icebergNamespace), object.tablesCache⟩ := by
    rw [cachingSchema, hget, hc]
    rfl
  obtain ⟨hcac, hr⟩ := after_schemaCall (s := ⟨c.schemas object.schema,
    some (r object.icebergNamespace), object.tablesCache⟩) rfl cl object rfl
  rw [step, hs, map_some, getD_some, setCachingSchema, hget]
  simp only [hcac, hr, hc, map_some, getD_some]
  have haf : { object with tablesCache := (cl.objectAfter object).tablesCache } =
      cl.objectAfter object := by
    cases cl <;> rfl
  rw [haf]
  exact ⟨h.of_set rfl rfl, object, ho, fun nm' => h.objectOf_of_set ha _ rfl rfl, rfl⟩

lemma aliasStep_effect (h : c.OwnObjects)
    (hc : c.icebergCatalog = some remote) (call : AliasCall) :
    (c.aliasStep call).OwnObjects ∧
      (∀ nm, nm ≠ call.schema → (c.aliasStep call).objectOf nm = c.objectOf nm) ∧
      match c.objectOf call.schema with
      | some o =>
        (c.aliasStep call).objectOf call.schema = some (call.objectAfter o) ∧
          (c.aliasStep call).icebergCatalog = some (Function.update remote o.icebergNamespace
              (call.remoteAfter o (remote o.icebergNamespace)))
      | none => (c.aliasStep call).icebergCatalog = some remote := by
  rw [aliasStep, schema]
  cases hl : c.schemasCache.lookup call.schema with
  | some address =>
    obtain ⟨how, o, hob, ho, hr⟩ := step_table_effect h hc hl call
    refine ⟨how, fun nm hne => ?_, ?_⟩
    · rw [ho, if_neg hne]
    · rw [hob]
      exact ⟨by rw [ho, if_pos rfl], hr⟩
  | none =>
    rw [h.objectOf_eq_none_iff.mpr hl]
    cases hcat : c.catalog.lookup call.schema with
    | none => exact ⟨h, fun _ _ => rfl, hc⟩
    | some schema =>
      have hnw := h.addObject call.schema ⟨schema, call.schema, ∅⟩
      obtain ⟨how, o, hob, ho, hr⟩ :=
        step_table_effect hnw hc (lookup_insert _) call
      refine ⟨how, fun nm hne => ?_, hr.trans ?_⟩
      · exact (ho nm).trans (by
          rw [if_neg hne, h.objectOf_addObject, if_neg hne])
      · rw [h.objectOf_addObject, if_pos rfl] at hob
        obtain rfl := some.inj hob
        have hn : call.remoteAfter (⟨schema, call.schema, ∅⟩ : SchemaObject τ)
            (remote call.schema) = remote call.schema := by
          cases call <;> rfl
        rw [hn, update_eq_self]

lemma loadFreshIcebergTable_eq {s : CachingSchema τ}
    (hs : s.icebergCatalog = some ct) (t : String) :
    s.loadFreshIcebergTable (Faults.none : Faults Unit) t =
      let name := ((s.tablesCache.lookup t).map CachingTable.name).getD t
      .ok ((ct.lookup name).map fun tb =>
        (CachingTable.mk name tb.toProvider).toProvider) := by
  simp only [loadFreshIcebergTable, hs, IcebergCatalog.loadTabular, Faults.none]
  cases ct.lookup (((s.tablesCache.lookup t).map CachingTable.name).getD t) <;> rfl

lemma resolve_eq (h : c.OwnObjects) (hc : c.icebergCatalog = some r) {o : SchemaObject τ}
    (ho : c.objectOf spelling = some o) (tb : String) :
    c.resolve spelling tb = match o.tablesCache.lookup tb with
      | some t =>
        if t.tableType = .view ∨ t.name ∈ r o.icebergNamespace then
          some ⟨[o.icebergNamespace], t.name⟩
        else none
      | none =>
        if tb ∈ r o.icebergNamespace then
          some ⟨[o.icebergNamespace], tb⟩
        else none := by
  cases hl : c.schemasCache.lookup spelling with
  | none =>
    rw [h.objectOf_eq_none_iff.mpr hl] at ho
    cases ho
  | some a =>
    obtain ⟨o', hget, ho'⟩ := h.exists_object hl
    obtain rfl := some.inj (ho.symm.trans ho')
    have hsc : c.schema spelling = (some (.caching a), c) := by rw [CachingCatalog.schema, hl]
    have hs : c.cachingSchema a = some
        ⟨c.schemas o.schema, some (r o.icebergNamespace), o.tablesCache⟩ := by
      rw [cachingSchema, hget, hc]
      rfl
    have hloa := loadFreshIcebergTable_eq (s := ⟨c.schemas o.schema,
      some (r o.icebergNamespace), o.tablesCache⟩) rfl tb
    have hm : ∀ nm, nm ∈ r o.icebergNamespace ↔
        ((r o.icebergNamespace).lookup nm).isSome := fun nm =>
      lookup_isSome.symm
    simp only [resolve, hsc, hget, hs, CachingSchema.table, isSome_some, if_true, hloa, hm]
    cases hcac : o.tablesCache.lookup tb with
    | none =>
      simp only [map_none, getD_none]
      cases (r o.icebergNamespace).lookup tb <;> rfl
    | some t =>
      by_cases hv : t.tableType = .view
      · simp [hv]
      · simp only [hv, if_false, false_or, map_some, getD_some]
        cases (r o.icebergNamespace).lookup t.name <;> rfl

end CachingCatalog

open CachingCatalog

section Denote

variable {τ : Type} {o : SchemaObject τ} {catalog : IcebergCatalog τ} {s : String}

def storedIn (remote : List String → IcebergCatalog τ) (c : CachingCatalog τ) :
    List String → IcebergCatalog τ
  | [ns] => (c.icebergCatalog.map (· ns)).getD ∅
  | parts => remote parts

/-- After any lookups and drops, every spelling finds and drops the table of the remote catalog. -/
def AliasesDenote (remote : List String → IcebergCatalog τ) (identifiers : List Identifier)
    (init : CachingCatalog τ) : Prop :=
  ∀ cs c, init.aliasSystem.Run TransitionSystem.anyStep cs c →
    ∀ id ∈ identifiers, ∀ schema ∈ caseAliases id.namespaceText, ∀ table ∈ caseAliases id.name,
      c.resolve schema table =
          (if id.name ∈ storedIn remote c id.namespaceParts then some id else none) ∧
        (id.name ∈ storedIn remote c id.namespaceParts →
          id.name ∉ storedIn remote (c.aliasStep (.drop schema table)) id.namespaceParts)

/-- The namespace is the only one of its spellings, and the name has no letter. -/
structure Unspelled (remote : List String → IcebergCatalog τ) (identifiers : List Identifier)
    (id : Identifier) : Prop where
  oneLevel : ∃ ns, id.namespaceParts = [ns]
  ownNamespace : ∀ id' ∈ identifiers, ∀ schema ∈ caseAliases id.namespaceText,
    schema ∈ caseAliases id'.namespaceText → id'.namespaceText = id.namespaceText
  noLetter : ∀ spelling ∈ caseAliases id.name, spelling = id.name
  noView : ∀ tabular, (remote id.namespaceParts).lookup id.name = some tabular →
    tabular.tableType ≠ .view

lemma namespaceText_singleton (ns nm : String) : Identifier.namespaceText ⟨[ns], nm⟩ = ns := by
  simp [Identifier.namespaceText]

lemma mem_of_mem_remoteAfter {cl : AliasCall} {nm : String} (h : nm ∈ cl.remoteAfter o catalog) :
    nm ∈ catalog := by
  cases cl with
  | lookup s t => exact h
  | drop s t =>
    rw [AliasCall.remoteAfter] at h
    split at h
    · exact (mem_erase.mp h).2
    · exact h

/-- No spelling differs: an entry names its table, and is there as long as the table is. -/
structure Serving (identifiers : List Identifier) (c : CachingCatalog τ)
    (remote : String → IcebergCatalog τ) : Prop where
  own : c.OwnObjects
  iceberg : c.icebergCatalog = some remote
  entry : ∀ id ∈ identifiers, ∀ schema ∈ caseAliases id.namespaceText,
    ∃ object, c.objectOf schema = some object ∧ object.icebergNamespace = id.namespaceText ∧
      (∀ t, object.tablesCache.lookup id.name = some t → t.name = id.name ∧ t.tableType ≠ .view) ∧
      (id.name ∈ remote id.namespaceText → id.name ∈ object.tablesCache)

section Run

variable {ids : List Identifier} {c : CachingCatalog τ}
  {remote r : String → IcebergCatalog τ} {ns : String}

lemma notMem_remoteAfter_drop {s nm : String} (hn : nm ∈ o.tablesCache)
    (he : ∀ t, o.tablesCache.lookup nm = some t → t.name = nm ∧ t.tableType ≠ .view) :
    nm ∉ AliasCall.remoteAfter (.drop s nm) o catalog := by
  obtain ⟨t, ht⟩ := isSome_iff_exists.mp (lookup_isSome.mpr hn)
  have htab : isTable (o.tablesCache.lookup nm) = true := by simp [isTable, ht, (he t ht).2]
  rw [AliasCall.remoteAfter, if_pos htab, mem_erase]
  exact fun h => h.1 rfl

lemma Serving.aliasStep (h : Serving ids c r) (cl : AliasCall) :
    ∃ remote', Serving ids (c.aliasStep cl) remote' := by
  obtain ⟨how, hot, he⟩ := aliasStep_effect h.own h.iceberg cl
  cases hob : c.objectOf cl.schema with
  | none =>
    rw [hob] at he
    refine ⟨r, how, he, fun id hid s hs => ?_⟩
    obtain ⟨o, ho, hres⟩ := h.entry id hid s hs
    have hne : s ≠ cl.schema := by
      rintro rfl
      rw [hob] at ho
      cases ho
    exact ⟨o, by rw [hot s hne, ho], hres⟩
  | some tg =>
    rw [hob] at he
    obtain ⟨htar, hr⟩ := he
    refine ⟨_, how, hr, fun id hid s hs => ?_⟩
    obtain ⟨o, ho, hns, hen, hc⟩ := h.entry id hid s hs
    -- the remote catalog has lost at most a table of the namespace of the call
    have hmon : id.name ∈ Function.update r tg.icebergNamespace
        (cl.remoteAfter tg (r tg.icebergNamespace)) id.namespaceText →
        id.name ∈ r id.namespaceText := by
      rw [update_apply]
      split
      · rename_i heq
        rw [heq]
        exact mem_of_mem_remoteAfter
      · exact fun hm => hm
    by_cases heq : s = cl.schema
    · subst heq
      obtain rfl := some.inj (hob.symm.trans ho)
      refine ⟨_, htar, ?_, ?_, ?_⟩
      · cases cl <;> exact hns
      · intro t ht
        cases cl with
        | lookup s tb => exact hen t ht
        | drop s tb => exact hen t (lookup_erase_eq_some_iff.mp ht).2
      · intro hm
        cases hcal : cl with
        | lookup s tb => exact hc (hmon hm)
        | drop s tb =>
          refine mem_erase.mpr ⟨?_, hc (hmon hm)⟩
          rintro rfl
          rw [hns, update_self, hcal] at hm
          exact notMem_remoteAfter_drop (hc (hmon (by
            rw [hns, update_self, hcal]; exact hm))) hen hm
    · exact ⟨o, by rw [hot s heq, ho], hns, hen, fun hm => hc (hmon hm)⟩

lemma Serving.of_run {i : CachingCatalog τ} (hi : ∃ remote, Serving ids i remote)
    {cs : List AliasCall} (hrun : i.aliasSystem.Run TransitionSystem.anyStep cs c) :
    ∃ remote, Serving ids c remote := by
  refine hrun.invariant (fun _ c => ∃ remote, Serving ids c remote) hi ?_
  rintro _ c d cl ⟨remote, h⟩ - hs
  obtain rfl := some.inj hs
  exact h.aliasStep cl

lemma Serving.resolve (h : Serving ids c r) {id : Identifier}
    (hid : id ∈ ids) (hns : id.namespaceParts = [ns]) (hs : s ∈ caseAliases id.namespaceText) :
    c.resolve s id.name = if id.name ∈ r ns then some id else none := by
  obtain ⟨o, hob, ho, he, -⟩ := h.entry id hid s hs
  obtain ⟨ps, nm⟩ := id
  obtain rfl : ps = [ns] := hns
  rw [namespaceText_singleton] at ho
  rw [resolve_eq h.own h.iceberg hob, ho]
  cases hl : o.tablesCache.lookup nm with
  | none => rfl
  | some t =>
    obtain ⟨hn, ht⟩ := he t hl
    simp only [hn, ht, false_or]

lemma Serving.drop (h : Serving ids c r) {id : Identifier}
    (hid : id ∈ ids) (hns : id.namespaceParts = [ns])
    (hs : s ∈ caseAliases id.namespaceText) (hm : id.name ∈ r ns) :
    ∃ remote', (c.aliasStep (.drop s id.name)).icebergCatalog = some remote' ∧
      id.name ∉ remote' ns := by
  obtain ⟨object, hob, ho, hen, hc⟩ := h.entry id hid s hs
  obtain ⟨ps, nm⟩ := id
  obtain rfl : ps = [ns] := hns
  rw [namespaceText_singleton] at ho hc
  obtain ⟨-, -, he⟩ :=
    aliasStep_effect h.own h.iceberg (.drop s nm)
  simp only [AliasCall.schema, hob, ho] at he
  refine ⟨_, he.2, ?_⟩
  rw [update_self]
  exact notMem_remoteAfter_drop (hc hm) hen

end Run

section Exact

variable {remote r : List String → IcebergCatalog τ} {identifiers ids : List Identifier}
  {c : CachingCatalog τ}

lemma Bootstrapped.storedIn (h : Bootstrapped r ids c) (parts : List String) :
    storedIn r c parts = r parts := by
  rw [Rustice.storedIn.eq_def]
  split
  · rw [h.iceberg]
    rfl
  · rfl

lemma Bootstrapped.serving (h : Bootstrapped r ids c)
    (hc : ∀ id ∈ ids, ∀ schema ∈ caseAliases id.namespaceText,
      ∀ s ∈ caseAliases id.name, Cached c schema s) (ha : ∀ id ∈ ids, Unspelled r ids id) :
    Serving ids c fun ns => r [ns] := by
  refine ⟨h.own, h.iceberg, fun id hid schema hs => ?_⟩
  obtain ⟨o, ho, hm⟩ :=
    hc id hid schema hs id.name (self_mem_caseAliases _)
  refine ⟨o, ho, ?_, ?_, fun _ => hm⟩
  · obtain ⟨id', hi', hs', hns⟩ := h.icebergNamespace ho
    rw [hns, (ha id hid).ownNamespace id' hi' schema hs hs']
  · intro t ht
    obtain ⟨id', hi', tb, -, hsp, htab, rfl⟩ := h.cached ho ht
    exact ⟨((ha id' hi').noLetter _ hsp).symm, (ha id' hi').noView tb htab⟩

lemma mem_storedIn_drop_of_ne (h : Bootstrapped r ids c) {ns sc nm : String} (hne : nm ≠ s)
    (hm : nm ∈ r [ns]) :
    nm ∈ storedIn r (c.aliasStep (.drop sc s)) [ns] := by
  obtain ⟨-, -, he⟩ :=
    aliasStep_effect h.own h.iceberg (.drop sc s)
  rw [storedIn]
  cases ho : c.objectOf (AliasCall.schema (.drop sc s)) with
  | none =>
    rw [ho] at he
    rw [he]
    exact hm
  | some object =>
    rw [ho] at he
    rw [he.2, map_some, getD_some, update_apply]
    split
    · rename_i heq
      subst heq
      rw [AliasCall.remoteAfter]
      split
      · exact mem_erase.mpr ⟨hne, hm⟩
      · exact hm
    · exact hm

lemma namespaceParts_of_resolve (h : Bootstrapped r ids c) {s t : String}
    (ho : c.objectOf s = some o) {id : Identifier}
    (hr : c.resolve s t = some id) : id.namespaceParts = [o.icebergNamespace] := by
  rw [resolve_eq h.own h.iceberg ho] at hr
  split at hr <;> split at hr
  · obtain rfl := some.inj hr
    rfl
  · cases hr
  · obtain rfl := some.inj hr
    rfl
  · cases hr

/-! ### Main result -/

/-- **One table for all spellings**, exactly if every bootstrap table is `Unspelled`. -/
theorem aliasesDenote_iff {ε : Type} {trim : String → String} {name : String}
    {bootstrapSchemas bootstrapTables : List String}
    (hok : registerIcebergCatalogLazy (ε := ε) trim name remote bootstrapSchemas bootstrapTables =
      .ok c)
    (hidentifiers : identifiers = bootstrapTables.filterMap (parseBootstrapTableIdentifier trim)) :
    AliasesDenote remote identifiers c ↔ ∀ id ∈ identifiers, Unspelled remote identifiers id := by
  obtain ⟨h, hids⟩ := Bootstrapped.of_register hok
  rw [← hidentifiers] at h hids
  constructor
  · intro hd
    have hst := hd [] c .nil
    -- through every schema of its namespace, a table is found under its own name
    have ho : ∀ id ∈ identifiers, ∀ schema ∈ caseAliases id.namespaceText,
        ∃ o, c.objectOf schema = some o ∧ id.name ∈ o.tablesCache ∧
          id.namespaceParts = [o.icebergNamespace] := by
      intro id hid schema hs
      obtain ⟨hm, hc⟩ := hids id hid
      obtain ⟨o, ho, he⟩ :=
        hc schema hs id.name (self_mem_caseAliases _)
      have hr := (hst id hid schema hs id.name (self_mem_caseAliases _)).1
      rw [h.storedIn, if_pos hm] at hr
      exact ⟨o, ho, he, namespaceParts_of_resolve h ho hr⟩
    have hp : ∀ id ∈ identifiers, ∀ id' ∈ identifiers, ∀ schema ∈ caseAliases id.namespaceText,
        schema ∈ caseAliases id'.namespaceText → id'.namespaceParts = id.namespaceParts := by
      intro id hid id' hi' schema hs hs'
      obtain ⟨o, hob, -, hns⟩ := ho id hid schema hs
      obtain ⟨o', ho', -, hn'⟩ := ho id' hi' schema hs'
      obtain rfl := some.inj (hob.symm.trans ho')
      rw [hns, hn']
    have hl : ∀ id ∈ identifiers, ∀ s ∈ caseAliases id.name, s = id.name := by
      intro id hid s hsp
      by_contra hne
      obtain ⟨o, -, -, hns⟩ := ho id hid _ (self_mem_caseAliases _)
      have hm := (hids id hid).1
      have hg := (hst id hid _ (self_mem_caseAliases _) s hsp).2
      rw [h.storedIn] at hg
      refine hg hm ?_
      rw [hns] at hm ⊢
      exact mem_storedIn_drop_of_ne h (Ne.symm hne) hm
    intro id hid
    refine ⟨?_, ?_, hl id hid, ?_⟩
    · obtain ⟨o, -, -, hns⟩ := ho id hid _ (self_mem_caseAliases _)
      exact ⟨_, hns⟩
    · intro id' hi' schema hs hs'
      rw [Identifier.namespaceText, hp id hid id' hi' schema hs hs']
      rfl
    · intro tb htab hv
      obtain ⟨o, hob, he, hns⟩ := ho id hid _ (self_mem_caseAliases _)
      obtain ⟨t, ht⟩ := isSome_iff_exists.mp (lookup_isSome.mpr he)
      -- the entry of the table is its own, so it is a view and the remote catalog keeps it
      obtain ⟨id', hi', tb', hs', hsp, ht', rfl⟩ := h.cached hob ht
      have hn := hl id' hi' _ hsp
      rw [hp id hid id' hi' _ (self_mem_caseAliases _) hs', ← hn, htab] at ht'
      obtain rfl := some.inj ht'
      have hnt : isTable (o.tablesCache.lookup id.name) = false := by
        rw [ht]
        simp [isTable, CachingTable.tableType, IcebergTabular.toProvider,
          TableProvider.tableType, hv]
      have hm := (hids id hid).1
      have hg := (hst id hid _ (self_mem_caseAliases _) _ (self_mem_caseAliases _)).2
      rw [h.storedIn] at hg
      refine hg hm ?_
      obtain ⟨-, -, hef⟩ := aliasStep_effect h.own h.iceberg
        (.drop id.namespaceText id.name)
      simp only [AliasCall.schema, hob, AliasCall.remoteAfter, hnt, Bool.false_eq_true,
        if_false, update_eq_self] at hef
      rw [hns] at hm ⊢
      rw [storedIn, hef.2]
      exact hm
  · intro ha calls d hrun id hid schema hs table htb
    obtain ⟨remote', hser⟩ := Serving.of_run ⟨_, h.serving (fun id hid => (hids id hid).2) ha⟩ hrun
    obtain ⟨ns, hns⟩ := (ha id hid).oneLevel
    obtain rfl := (ha id hid).noLetter table htb
    have hstr : storedIn remote d id.namespaceParts = remote' ns := by
      rw [hns, storedIn, hser.iceberg]
      rfl
    rw [hstr]
    refine ⟨hser.resolve hid hns hs, fun hm => ?_⟩
    obtain ⟨remote'', hr'', hg⟩ := hser.drop hid hns hs hm
    rw [hns, storedIn, hr'']
    exact hg

end Exact

end Denote

def publicRemote (name : String) (parts : List String) : IcebergCatalog ℕ :=
  if parts = ["public"] then AList.singleton name ⟨.base, 0⟩ else ∅

theorem aliases_denote_2024 :
    ∃ c, registerIcebergCatalogLazy (ε := Unit) (fun part => part) "lake" (publicRemote "2024") []
        ["public.2024"] = .ok c ∧
      AliasesDenote (publicRemote "2024") [⟨["public"], "2024"⟩] c := by
  obtain ⟨c, ho⟩ : ∃ c, registerIcebergCatalogLazy (ε := Unit) (fun part => part) "lake"
      (publicRemote "2024") [] ["public.2024"] = .ok c := ⟨_, rfl⟩
  refine ⟨c, ho, (aliasesDenote_iff ho (by decide)).mpr ?_⟩
  intro id hid
  obtain rfl := mem_singleton.mp hid
  refine ⟨⟨"public", rfl⟩, ?_, by decide, ?_⟩
  · intro id' hi' _ _ _
    obtain rfl := mem_singleton.mp hi'
    rfl
  · intro tabular ht
    obtain rfl : ⟨.base, 0⟩ = tabular := some.inj ht
    decide

theorem aliases_part_on_drop :
    ∃ c, registerIcebergCatalogLazy (ε := Unit) (fun part => part) "lake" (publicRemote "Orders")
        [] ["public.Orders"] = .ok c ∧
      c.resolve "public" "orders" = some ⟨["public"], "Orders"⟩ ∧
      "Orders" ∈ storedIn (publicRemote "Orders") (c.aliasStep (.drop "public" "orders"))
        ["public"] ∧
      (c.aliasStep (.drop "public" "orders")).resolve "public" "orders" = none ∧
      (c.aliasStep (.drop "public" "orders")).resolve "public" "Orders" =
        some ⟨["public"], "Orders"⟩ := by
  refine ⟨_, rfl, rfl, ?_, rfl, rfl⟩
  decide

end Rustice
