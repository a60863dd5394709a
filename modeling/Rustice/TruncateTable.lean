import Rustice.CreateTable
import Rustice.References

/-!
# TRUNCATE TABLE

`truncate_table` writes the name of its first table into a `CREATE OR REPLACE TABLE` and runs it.
-/

namespace Rustice

open List Option AList

def SchemaCall.names {τ ε : Type} : SchemaCall τ ε → List String
  | .table _ name => [name]
  | .registerTable _ name _ => [name]
  | .deregisterTable _ name => [name]
  | .createIcebergTableAsync _ name builder => [name, builder.name]
  | .dropTableAsync _ name => [name]

open IcebergCatalog

namespace CachingSchema

variable {τ ε : Type} {s t u : CachingSchema τ} {name nm : String}

/-- Two states have the same stores and the same cache at a name. -/
structure AgreeAt (name : String) (s t : CachingSchema τ) : Prop where
  isSome : t.icebergCatalog.isSome = s.icebergCatalog.isSome
  remote : (t.icebergCatalog.map fun catalog => catalog.lookup name) =
    s.icebergCatalog.map fun catalog => catalog.lookup name
  cache : t.tablesCache.lookup name = s.tablesCache.lookup name
  plain : s.icebergCatalog = none → t.schema.lookup name = s.schema.lookup name

lemma AgreeAt.refl (s : CachingSchema τ) : AgreeAt nm s s := ⟨rfl, rfl, rfl, fun _ => rfl⟩

lemma AgreeAt.trans (h : AgreeAt nm s t) (h' : AgreeAt nm t u) : AgreeAt nm s u where
  isSome := h'.isSome.trans h.isSome
  remote := h'.remote.trans h.remote
  cache := h'.cache.trans h.cache
  plain hp := by
    have hs := h.isSome
    rw [hp, isSome_none, isSome_eq_false_iff, isNone_iff_eq_none] at hs
    exact (h'.plain hs).trans (h.plain hp)

lemma Step.agreeAt {c : SchemaCall τ ε} (hst : Step s c t)
    (hn : ∀ touched ∈ c.names, nm ≠ touched) : AgreeAt nm s t := by
  cases hst with
  | same => exact .refl s
  | look =>
    have hne := hn _ (mem_singleton.mpr rfl)
    exact ⟨rfl, rfl, lookup_insert_ne hne, fun _ => rfl⟩
  | register hs =>
    have hne := hn _ (mem_singleton.mpr rfl)
    refine ⟨rfl, rfl, lookup_insert_ne hne, fun _ => ?_⟩
    rcases hs with rfl | ⟨rfl, -⟩
    exacts [lookup_insert_ne hne, rfl]
  | deregister hs =>
    have hne := hn _ (mem_singleton.mpr rfl)
    refine ⟨rfl, rfl, lookup_erase_ne hne, fun _ => ?_⟩
    rcases hs with rfl | rfl
    exacts [rfl, lookup_erase_ne hne]
  | createRemote hc =>
    have hne := hn _ (mem_cons_of_mem _ (mem_singleton.mpr rfl))
    refine ⟨by simp [hc], ?_, rfl, fun _ => rfl⟩
    simp [hc, lookup_insert_ne hne]
  | create hc =>
    have hne := hn _ (mem_cons_of_mem _ (mem_singleton.mpr rfl))
    refine ⟨by simp [hc], ?_, lookup_insert_ne (hn _ (mem_cons_self ..)), fun hp => ?_⟩
    · simp [hc, lookup_insert_ne hne]
    · rw [hp] at hc
      cases hc
  | @drop faults touched schema ic hs hr =>
    have hne : nm ≠ touched := hn _ (mem_singleton.mpr rfl)
    have hc : ic = s.icebergCatalog ∨ ic = s.icebergCatalog.map fun catalog =>
          if isTable (s.tablesCache.lookup touched) then catalog.erase touched else catalog :=
      hr.imp_right dropRemote_eq_ok
    refine ⟨?_, ?_, lookup_erase_ne hne, fun _ => ?_⟩
    · rcases hc with rfl | rfl
      exacts [rfl, isSome_map]
    · rcases hc with rfl | rfl
      · rfl
      · rw [Option.map_map]
        congr 1
        funext catalog
        show AList.lookup nm (if _ then _ else _) = _
        split
        exacts [lookup_erase_ne hne, rfl]
    · rcases hs with rfl | rfl
      exacts [rfl, lookup_erase_ne hne]

lemma table_eq_of_agreeAt {fs : Faults ε} (h : AgreeAt name s t)
    (he : ∀ en, s.tablesCache.lookup name = some en → AgreeAt en.name s t) :
    (t.table fs name).1 = (s.table fs name).1 := by
  have hloa : t.loadFreshIcebergTable fs name = s.loadFreshIcebergTable fs name := by
    have hr : AgreeAt (((s.tablesCache.lookup name).map CachingTable.name).getD name) s t := by
      cases hc : s.tablesCache.lookup name with
      | none => exact h
      | some en => exact he en hc
    have hl := hr.remote
    simp only [loadFreshIcebergTable, h.cache]
    cases hs : s.icebergCatalog with
    | none =>
      rw [hs, map_none, map_eq_none_iff] at hl
      simp only [hl]
    | some ct =>
      rw [hs, map_some, map_eq_some_iff] at hl
      obtain ⟨ct', ht, hl⟩ := hl
      simp only [ht, loadTabular, hl]
  simp only [table, h.isSome, h.cache, hloa]
  by_cases hsom : s.icebergCatalog.isSome
  · simp only [if_pos hsom]
    cases s.tablesCache.lookup name with
    | none => rfl
    | some en => simp only [apply_ite Prod.fst]
  · simp only [if_neg hsom]
    cases s.tablesCache.lookup name with
    | some en => rfl
    | none =>
      have hsc := h.plain (not_isSome_iff_eq_none.mp hsom)
      simp only [SchemaProvider.table, hsc]
      rcases fs.provider with _ | e
      · cases s.schema.lookup name <;> rfl
      · rfl

lemma table_cases (s : CachingSchema τ) (fs : Faults ε) (nm : String) : (s.table fs nm).2 = s ∨
    s.icebergCatalog = none ∧ ∃ p, s.table fs nm = (.ok (some (CachingTable.mk nm p).toProvider),
        { s with tablesCache := s.tablesCache.insert nm ⟨nm, p⟩ }) := by
  simp only [table]
  by_cases hs : s.icebergCatalog.isSome
  · simp only [if_pos hs]
    left
    split
    · split <;> rfl
    · rfl
  · simp only [if_neg hs]
    split
    · exact .inl rfl
    · split
      · exact .inl rfl
      · exact .inl rfl
      · exact .inr ⟨not_isSome_iff_eq_none.mp hs, _, rfl⟩

lemma table_table (s : CachingSchema τ) (fs : Faults ε) (nm name' : String) :
    ((s.table fs nm).2.table fs name').1 = (s.table fs name').1 := by
  rcases s.table_cases fs nm with hs | ⟨hp, p, hl⟩
  · rw [hs]
  · by_cases hn : name' = nm
    · subst hn
      rw [hl]
      simp only [table, hp, isSome_none, Bool.false_eq_true, if_false, lookup_insert]
    · rw [hl]
      simp only [table, hp, isSome_none, Bool.false_eq_true, if_false, lookup_insert_ne hn]
      cases s.tablesCache.lookup name' with
      | some entry => rfl
      | none =>
        simp only [SchemaProvider.table]
        rcases fs.provider with _ | e
        · cases s.schema.lookup name' <;> rfl
        · rfl

/-- The cache entries are under their tables' names, up to case. -/
def CaseKeyed (s : CachingSchema τ) : Prop :=
  ∀ key e, s.tablesCache.lookup key = some e → toAsciiLowercase e.name = toAsciiLowercase key

lemma Keyed.caseKeyed (h : s.Keyed) : s.CaseKeyed := by
  intro k e he
  rw [h k e he]

lemma CaseKeyed.table (h : s.CaseKeyed) (fs : Faults ε) (nm : String) :
    (s.table fs nm).2.CaseKeyed := by
  rcases s.table_cases fs nm with hs | ⟨-, p, hl⟩
  · rw [hs]
    exact h
  · rw [hl]
    intro key e he
    rcases lookup_insert_eq_some_iff.mp he with ⟨rfl, rfl⟩ | ⟨-, he⟩
    · rfl
    · exact h key e he

/-- The remote catalog has the table just when the cache does. -/
def Replaceable (s : CachingSchema τ) (name : String) : Prop :=
  ∀ ct, s.icebergCatalog = some ct → (isTable (s.tablesCache.lookup name) = true ↔ name ∈ ct)

lemma replaceable_table (s : CachingSchema τ) (fs : Faults ε) (nm name' : String) :
    (s.table fs nm).2.Replaceable name' ↔ s.Replaceable name' := by
  rcases s.table_cases fs nm with hs | ⟨hp, p, hl⟩
  · rw [hs]
  · rw [hl]
    simp only [Replaceable, hp, reduceCtorEq, false_imp_iff, implies_true]

structure Replaced (s : CachingSchema τ) (name : String) (table : τ) (t : CachingSchema τ) :
    Prop where
  cached : ∃ p, t.tablesCache.lookup name = some ⟨name, p⟩ ∧ p.tableType = .base ∧ p.content = table
  remote : ∀ catalog, t.icebergCatalog = some catalog → catalog.lookup name = some ⟨.base, table⟩
  frame : ∀ other, other ≠ name → AgreeAt other s t

lemma Replaced.table_self {table : τ} (h : Replaced s name table t) :
    ∃ p, (t.table (.none : Faults ε) name).1 = .ok (some p) ∧ p.tableType = .base ∧
      p.content = table := by
  obtain ⟨p, hca, ht, hcon⟩ := h.cached
  cases hc : t.icebergCatalog with
  | none =>
    refine ⟨(CachingTable.mk name p).toProvider, ?_, ht, hcon⟩
    simp only [CachingSchema.table, hc, hca, isSome_none, Bool.false_eq_true, if_false]
  | some ct =>
    have hk : ∀ e, t.tablesCache.lookup name = some e → e.name = name := by
      intro e he
      rw [hca] at he
      rw [← some.inj he]
    have hl := loadFreshIcebergTable_none (ε := ε) hc hk
    refine ⟨(CachingTable.mk name (.table .base table)).toProvider, ?_, rfl, rfl⟩
    have hv : (CachingTable.mk name p).tableType ≠ .view := by
      rw [CachingTable.tableType, ht]
      exact fun h => TableType.noConfusion h
    simp only [CachingSchema.table, hc, hca, isSome_some, if_true, if_neg hv, hl, h.remote ct hc]
    rfl

lemma Replaced.table_other {tb : τ} (h : Replaced s nm tb t) (hk : s.CaseKeyed)
    {o : String} (hn : toAsciiLowercase o ≠ toAsciiLowercase nm)
    (fs : Faults ε) : (t.table fs o).1 = (s.table fs o).1 := by
  refine table_eq_of_agreeAt (h.frame o fun heq => hn (by rw [heq])) ?_
  intro e he
  refine h.frame e.name fun heq => hn ?_
  rw [← hk o e he, heq]

end CachingSchema

open CachingSchema

namespace CreateEnv

open CachingSchema (isTable AgreeAt Replaced)

variable {ε Q T κ ρ : Type} {env : CreateEnv ε Q T κ ρ} {s : CachingSchema (TableData κ ρ)}
  {nm : String} {st : CreateTableStatement Q} {tr : ResolvedTableReference} {p : CreatePlan T}

lemma dropExisting_none (hfa : env.dropFaults = .none) :
    (∃ catalog, s.icebergCatalog = some catalog ∧ isTable (s.tablesCache.lookup nm) = true ∧
        nm ∉ catalog ∧ ∃ e u, env.dropExisting nm s = (.error e, u)) ∨
      ∃ u, env.dropExisting nm s = (.ok (), u) ∧ (∀ o, o ≠ nm → AgreeAt o s u) ∧
        (∀ catalog, s.icebergCatalog = some catalog →
          isTable (s.tablesCache.lookup nm) = true → nm ∈ catalog) ∧
        u.icebergCatalog = s.icebergCatalog.map fun catalog =>
          if isTable (s.tablesCache.lookup nm) then catalog.erase nm else catalog := by
  have hf : ∀ o, o ≠ nm → AgreeAt o s (env.dropExisting nm s).2 := by
    intro o ho
    rw [snd_dropExisting]
    split
    · exact (step_after s (.dropTableAsync env.dropFaults nm)).agreeAt
        fun tc hto => by rwa [mem_singleton.mp hto]
    · exact (step_after s (.deregisterTable env.dropFaults nm)).agreeAt
        fun tc hto => by rwa [mem_singleton.mp hto]
  cases hc : s.icebergCatalog with
  | none =>
    have hp : ¬s.icebergCatalog.isSome := by rw [hc]; exact Bool.false_ne_true
    obtain ⟨r, u, hder, hu⟩ : ∃ r u,
        s.deregisterTable env.dropFaults nm = (.ok r, u) ∧ u.icebergCatalog = s.icebergCatalog := by
      rcases s.deregisterTable_cases env.dropFaults nm with
        ⟨-, r, h⟩ | ⟨-, e, hfl, -⟩ | ⟨-, -, r, h⟩
      · exact ⟨r, _, h, rfl⟩
      · rw [hfa] at hfl
        cases hfl
      · exact ⟨r, _, h, rfl⟩
    have hd : env.dropExisting nm s = (.ok (), u) := by rw [dropExisting, if_neg hp, hder]
    rw [hd] at hf
    exact .inr ⟨u, hd, hf, fun _ h => (by cases h), hu.trans hc⟩
  | some catalog =>
    have hs : s.icebergCatalog.isSome := by rw [hc]; rfl
    by_cases ht : isTable (s.tablesCache.lookup nm) = true
    · by_cases hm : nm ∈ catalog
      · have hd : env.dropExisting nm s = (.ok (), ⟨s.schema.erase nm,
            some (catalog.erase nm), s.tablesCache.erase nm⟩) := by
          rw [dropExisting, if_pos hs]
          simp [dropTableAsync, dropRemote, hc, ht, hfa, Faults.none, dropTable, hm,
            SchemaProvider.deregisterTable, Except.map]
        rw [hd] at hf
        refine .inr ⟨_, hd, hf, ?_, by simp [ht]⟩
        intro catalog' hc' _
        rwa [← some.inj hc']
      · refine .inl ⟨catalog, rfl, ht, hm, ?_⟩
        rw [dropExisting, if_pos hs]
        simp [dropTableAsync, dropRemote, hc, ht, hfa, Faults.none, dropTable, hm, Except.map]
    · have hd : env.dropExisting nm s = (.ok (), ⟨s.schema.erase nm, some catalog,
          s.tablesCache.erase nm⟩) := by
        rw [dropExisting, if_pos hs]
        simp [dropTableAsync, dropRemote, hc, ht, hfa, Faults.none, SchemaProvider.deregisterTable]
      rw [hd] at hf
      exact .inr ⟨_, hd, hf, fun _ _ h => absurd h ht, by simp [ht]⟩

lemma registerNew_none (hf : env.createFaults = .none)
    {b : CreateTableBuilder (TableData κ ρ)} (hn : b.name = nm) :
    (∃ ct, s.icebergCatalog = some ct ∧ nm ∈ ct ∧ ∃ e u, env.registerNew nm b s = (.error e, u)) ∨
      (∀ ct, s.icebergCatalog = some ct → nm ∉ ct) ∧
        ∃ u, env.registerNew nm b s = (.ok (), u) ∧ Replaced s nm b.table u := by
  subst hn
  cases hc : s.icebergCatalog with
  | none =>
    have hp : ¬s.icebergCatalog.isSome := by rw [hc]; exact Bool.false_ne_true
    have hr : env.registerNew b.name b s = (.ok (), { s with
        schema := s.schema.insert b.name (.icebergTableBuilder b)
        tablesCache := s.tablesCache.insert b.name ⟨b.name, .icebergTableBuilder b⟩ }) := by
      rw [registerNew, if_neg hp]
      simp [registerTable, hc, hf, Faults.none,
        SchemaProvider.registerTable, TableProvider.tableType]
    refine .inr ⟨fun _ h => (by cases h), _, hr, ⟨_, lookup_insert _, rfl, rfl⟩,
      fun _ h => ?_, fun o ho => ⟨rfl, rfl, lookup_insert_ne ho, fun _ => lookup_insert_ne ho⟩⟩
    rw [hc] at h
    cases h
  | some ct =>
    have hs : s.icebergCatalog.isSome := by rw [hc]; rfl
    by_cases hm : b.name ∈ ct
    · refine .inl ⟨ct, rfl, hm, ?_⟩
      rw [registerNew, if_pos hs]
      simp [createIcebergTableAsync, hc, hf, Faults.none, createTable, hm]
    · have hr : env.registerNew b.name b s = (.ok (),
          ⟨s.schema.insert b.name (.table .base b.table), some (ct.insert b.name ⟨.base, b.table⟩),
            s.tablesCache.insert b.name ⟨b.name, .table .base b.table⟩⟩) := by
        rw [registerNew, if_pos hs]
        simp [createIcebergTableAsync, hc, hf, Faults.none, createTable, hm,
          SchemaProvider.registerTable, IcebergTabular.toProvider]
      refine .inr ⟨fun _ h => by rwa [← some.inj h], _, hr,
        ⟨_, lookup_insert _, rfl, rfl⟩, fun _ h => ?_, fun o ho =>
        ⟨by rw [hc]; rfl, ?_, lookup_insert_ne ho, fun hp => ?_⟩⟩
      · rw [← some.inj h, lookup_insert]
      · rw [hc]
        exact congrArg some (lookup_insert_ne ho)
      · rw [hc] at hp
        cases hp

lemma createNew_none (hf : env.createFaults = .none)
    (he : ∀ nm i, p.createMemoryTable = some (nm, i) → isLogicalPlanEffectivelyEmpty i = true) :
    (((∃ e, env.buildIcebergCreateTableBuilder tr p st.partitionBy = .error e) ∨
          ∃ ct, s.icebergCatalog = some ct ∧ tr.table ∈ ct) ∧
        ∃ e u, env.createNew st p tr s = (.error e, u)) ∨
      (∀ ct, s.icebergCatalog = some ct → tr.table ∉ ct) ∧
        ∃ b u, env.buildIcebergCreateTableBuilder tr p st.partitionBy = .ok b ∧
          env.createNew st p tr s = (.ok .created, u) ∧ Replaced s tr.table b.table u := by
  rw [createNew]
  rcases hb : env.buildIcebergCreateTableBuilder tr p st.partitionBy with e | b
  · exact .inl ⟨.inl ⟨e, rfl⟩, e, s, rfl⟩
  · rcases registerNew_none hf (buildIcebergCreateTableBuilder_ok hb).1 with
      ⟨ct, hc, hm, e, u, h⟩ | ⟨hfr, u, h, hr⟩
    · exact .inl ⟨.inr ⟨ct, hc, hm⟩, e, u, by simp only [h]⟩
    · refine .inr ⟨hfr, b, u, rfl, ?_, hr⟩
      simp only [h, insertRows]
      split
      · rfl
      case _ nm i hp => rw [if_pos (he nm i hp)]

lemma createTableQuery_replace (hdr : env.dropFaults = .none)
    (hcr : env.createFaults = .none) (hp : env.prepare st = .ok (p, tr))
    (hine : st.ifNotExists = false) (hrep : st.orReplace = true)
    (hem : ∀ nm i, p.createMemoryTable = some (nm, i) → isLogicalPlanEffectivelyEmpty i = true) :
    (¬(s.Replaceable tr.table ∧
      ∃ b, env.buildIcebergCreateTableBuilder tr p st.partitionBy = .ok b) ∧
        ∃ e u, env.createTableQuery st s = (.error e, u)) ∨ s.Replaceable tr.table ∧ ∃ b u,
        env.buildIcebergCreateTableBuilder tr p st.partitionBy = .ok b ∧
        env.createTableQuery st s = (.ok .created, u) ∧ Replaced s tr.table b.table u := by
  simp only [createTableQuery, hp, hine, hrep, Bool.false_eq_true, if_false, if_true]
  by_cases hex : s.tableExist tr.table = true
  · simp only [hex, if_true]
    rcases dropExisting_none (s := s) hdr with
      ⟨ct, hc, htab, hm, e, u, h⟩ | ⟨u, h, hfr, hd, hu⟩
    · refine .inl ⟨fun ha => hm ((ha.1 ct hc).mp htab), e, u, by simp only [h]⟩
    · simp only [h]
      rcases createNew_none (s := u) hcr hem with
        ⟨⟨e, hb⟩ | ⟨ct', hc', hm⟩, he⟩ | ⟨hf, b, t, hb, ht, hr⟩
      · refine .inl ⟨?_, he⟩
        rintro ⟨-, b, hok⟩
        exact absurd (hb.symm.trans hok) (by simp)
      · refine .inl ⟨?_, he⟩
        rintro ⟨ha, -⟩
        rw [hu] at hc'
        obtain ⟨ct, hc, rfl⟩ := map_eq_some_iff.mp hc'
        -- a table that the cache has was dropped, and one that it has not is not replaceable
        split at hm
        case isTrue => exact (mem_erase.mp hm).1 rfl
        case isFalse hn => exact hn ((ha ct hc).mpr hm)
      · refine .inr ⟨fun ct hc => ⟨hd ct hc, fun hm => ?_⟩,
          b, t, hb, ht, hr.cached, hr.remote, fun o ho =>
          (hfr o ho).trans (hr.frame o ho)⟩
        by_contra hn
        refine hf ct ?_ hm
        rw [hu, hc, map_some, if_neg hn]
  · have hcac : s.tablesCache.lookup tr.table = none := by
      rw [Bool.not_eq_true, tableExist_eq_false_iff, mem_tableNames, not_or] at hex
      exact lookup_eq_none.mpr hex.2
    have hun : ¬isTable (s.tablesCache.lookup tr.table) = true := by
      rw [hcac]
      exact Bool.false_ne_true
    simp only [hex]
    rcases createNew_none (s := s) hcr hem with
      ⟨⟨e, hb⟩ | ⟨ct, hc, hm⟩, he⟩ | ⟨hf, b, t, hb, ht, hr⟩
    · refine .inl ⟨?_, he⟩
      rintro ⟨-, b, hok⟩
      exact absurd (hb.symm.trans hok) (by simp)
    · exact .inl ⟨fun ha => hun ((ha.1 ct hc).mpr hm), he⟩
    · exact .inr ⟨fun ct hc => iff_of_false hun (hf ct hc), b, t, hb, ht, hr⟩

end CreateEnv

abbrev Databases (κ ρ : Type) := String → String → CachingSchema (TableData κ ρ)

def Databases.set {κ ρ : Type} (db : Databases κ ρ) (catalog schema : String)
    (s : CachingSchema (TableData κ ρ)) : Databases κ ρ :=
  fun catalog' schema' => if catalog' = catalog ∧ schema' = schema then s else db catalog' schema'

lemma Databases.set_self {κ ρ : Type} (db : Databases κ ρ) (ct sc : String)
    (s : CachingSchema (TableData κ ρ)) : db.set ct sc s ct sc = s :=
  if_pos ⟨rfl, rfl⟩

def ArrowField.nullAsText {T : Type} (field : ArrowField T) : ArrowField T :=
  match field.dataType with
  | .null => ⟨field.name, .utf8, true⟩
  | _ => field

open ArrowField

/-- What the parser reads in the text of `truncate_table`: the statement that it is meant to be,
`CREATE OR REPLACE TABLE target as (SELECT * FROM source WHERE FALSE)`, or another one. -/
inductive TruncateStatement (Q : Type) where
  | selectNone (target source : ObjectName)
  | other (stmt : Q)

inductive TruncateError (ε : Type) where
  | noTableNamesForTruncateTable
  | resolve (error : NameError)
  | parse (error : ε)
  | query (error : CreateTableError ε)

structure TruncateEnv (ε Q T κ ρ : Type) where
  names : NameContext
  freshNames : NameContext
  parse : String → Except ε (TruncateStatement Q)
  runOther : Q → Databases κ ρ → Except (CreateTableError ε) CreateTableResponse × Databases κ ρ
  hasCatalog : String → Bool
  hasSchema : String → String → Bool
  plannerReference : List Ident → ResolvedTableReference
  planError : ObjectName → ε
  arrowFields : κ → List (ArrowField T)
  analyze : List (ArrowField T) → Except ε (List (ArrowField T))
  icebergSchema : List (ArrowField T) → Except ε κ
  uuid : ℕ

namespace TruncateEnv

variable {ε Q T κ ρ : Type} (env : TruncateEnv ε Q T κ ρ)

def createEnv (names : NameContext) (planned : Except ε (CreatePlan T)) :
    CreateEnv ε ObjectName T κ ρ where
  names := names
  plan _ _ := planned
  analyze plan := (env.analyze plan.fields).map fun fields => { plan with fields }
  hasCatalog := env.hasCatalog
  hasSchema := env.hasSchema
  icebergSchema := env.icebergSchema
  fields _ := []
  render _ := ""
  uuid := env.uuid
  dropFaults := .none
  createFaults := .none
  lookupFaults := .none
  otherTable _ _ := .ok none
  cast _ := .ok ()
  insert := .ok []

def resolveIdent (names : NameContext) (idents : List Ident) :
    Except (CreateTableError ε) ResolvedTableReference :=
  (env.createEnv names (.ok ⟨[], none⟩)).resolveIdent idents

def reference (names : NameContext) (name : ObjectName) :
    Except (CreateTableError ε) ResolvedTableReference := do
  let idents ← (names.resolveTableObjectName name).mapError .resolve
  env.resolveIdent names idents

def lookUp (ref : ResolvedTableReference) (db : Databases κ ρ) :
    Option (TableProvider (TableData κ ρ)) × Databases κ ρ :=
  if env.hasCatalog ref.catalog && env.hasSchema ref.catalog ref.schema then
    let (found, s) := (db ref.catalog ref.schema).table (.none : Faults ε) ref.table
    (found.toOption.join, db.set ref.catalog ref.schema s)
  else (none, db)

def tableReferencesForStatement :
    List ResolvedTableReference → Databases κ ρ →
      List (ResolvedTableReference × TableProvider (TableData κ ρ)) × Databases κ ρ
  | [], db => ([], db)
  | ref :: refs, db =>
    let (found, db) := env.lookUp ref db
    let (tables, db) := tableReferencesForStatement refs db
    ((found.map fun table => (ref, table)).toList ++ tables, db)

def getCustomLogicalPlan (target source : List Ident) (error : ε) (db : Databases κ ρ) :
    Except ε (CreatePlan T) × Databases κ ρ :=
  let refs := [target, source].filterMap fun idents =>
    (env.resolveIdent env.freshNames idents).toOption
  let (tables, db) := env.tableReferencesForStatement refs db
  match tables.lookup (env.plannerReference source) with
  | none => (.error error, db)
  | some table =>
    let name := env.plannerReference target
    (.ok ⟨env.arrowFields table.content.schema, some (.full name.catalog name.schema name.table,
      .projection (.filter (some false) .other))⟩, db)

def execute : TruncateStatement Q → Databases κ ρ →
    Except (CreateTableError ε) CreateTableResponse × Databases κ ρ
  | .other stmt, db => env.runOther stmt db
  | .selectNone target source, db =>
    match env.freshNames.resolveTableObjectName target,
      env.freshNames.resolveTableObjectName source with
    | .error e, _ => (.error (.resolve e), db)
    | .ok _, .error _ => (.error (.planning (env.planError source)), db)
    | .ok targetIdents, .ok sourceIdents =>
      let (planned, db) :=
        env.getCustomLogicalPlan targetIdents sourceIdents (env.planError source) db
      let stmt : CreateTableStatement ObjectName := ⟨target, [], some source, none, false, true⟩
      match (env.createEnv env.freshNames planned).prepare stmt with
      | .error e => (.error e, db)
      | .ok (_, ref) =>
        let (response, s) := (env.createEnv env.freshNames planned).createTableQuery stmt
          (db ref.catalog ref.schema)
        (response, db.set ref.catalog ref.schema s)

def truncateText (objectName : String) : String :=
  "CREATE OR REPLACE TABLE " ++ objectName ++ " as (SELECT * FROM " ++ objectName ++ " WHERE FALSE)"

def truncateTable (tableNames : List ObjectName) (db : Databases κ ρ) :
    Except (TruncateError ε) CreateTableResponse × Databases κ ρ :=
  match tableNames with
  | [] => (.error .noTableNamesForTruncateTable, db)
  | firstTable :: _ =>
    match env.names.resolveTableObjectName firstTable with
    | .error e => (.error (.resolve e), db)
    | .ok objectName =>
      match env.parse (truncateText (normalizedIdentText objectName)) with
      | .error e => (.error (.parse e), db)
      | .ok stmt =>
        let (response, db) := env.execute stmt db
        (response.mapError .query, db)

def tableOf (db : Databases κ ρ) (ref : ResolvedTableReference) : Option (TableData κ ρ) :=
  ((env.lookUp ref db).1.filter fun p => p.tableType ≠ .view).map TableProvider.content

/-- Every table that was there is there, without rows and otherwise as it was. -/
def Truncated (tableNames : List ObjectName) (db : Databases κ ρ)
    (after : Except (TruncateError ε) CreateTableResponse × Databases κ ρ) : Prop :=
  (∃ r, after.1 = .ok r) ∧
    ∀ name ∈ tableNames, ∀ ref table, env.reference env.names name = .ok ref →
      env.tableOf db ref = some table →
        ∃ table', env.tableOf after.2 ref = some table' ∧ table'.rows = [] ∧
          table'.schema = table.schema ∧ table'.partitionSpec = table.partitionSpec

def Truncates (tableNames : List ObjectName) (db : Databases κ ρ) : Prop :=
  env.Truncated tableNames db (env.truncateTable tableNames db)

/-- The source is found, its schema survives the conversion, and the catalog and the cache agree. -/
structure Replaces (db : Databases κ ρ) (target source : ObjectName)
    (ref : ResolvedTableReference) (schema : κ) : Prop where
  target : env.reference env.freshNames target = .ok ref
  hasSchema : (env.hasCatalog ref.catalog && env.hasSchema ref.catalog ref.schema) = true
  planned : ∃ idents table fields, env.freshNames.resolveTableObjectName source = .ok idents ∧
    (env.plannerReference idents = ref ∨
      env.resolveIdent env.freshNames idents = .ok (env.plannerReference idents)) ∧
    (env.lookUp (env.plannerReference idents) db).1 = some table ∧
    env.analyze (env.arrowFields table.content.schema) = .ok fields ∧
    env.icebergSchema (fields.map nullAsText) = .ok schema
  replaceable : (db ref.catalog ref.schema).Replaceable ref.table

/-- Every table is the one that is replaced, with its schema and no partitions, or is empty. -/
def Covered (tableNames : List ObjectName) (db : Databases κ ρ) (ref : ResolvedTableReference)
    (schema : κ) : Prop :=
  ∀ name ∈ tableNames, ∀ ref' table, env.reference env.names name = .ok ref' →
    env.tableOf db ref' = some table →
      if ref' = ref then table.schema = schema ∧ table.partitionSpec = none else table.rows = []

def Truncatable (tableNames : List ObjectName) (db : Databases κ ρ) : Prop :=
  ∃ ft on st, tableNames.head? = some ft ∧ env.names.resolveTableObjectName ft = .ok on ∧
    env.parse (truncateText (normalizedIdentText on)) = .ok st ∧
    match st with
    | .selectNone target source =>
      ∃ ref schema, env.Replaces db target source ref schema ∧ env.Covered tableNames db ref schema
    | .other st =>
      env.Truncated tableNames db ((env.runOther st db).1.mapError .query, (env.runOther st db).2)

variable {env} {db db' db'' : Databases κ ρ}

lemma fst_lookUp (ref : ResolvedTableReference) (db : Databases κ ρ) :
    (env.lookUp ref db).1 =
      if env.hasCatalog ref.catalog && env.hasSchema ref.catalog ref.schema then
        (((db ref.catalog ref.schema).table (.none : Faults ε) ref.table).1.toOption.join)
      else none := by
  rw [lookUp]
  split <;> rfl

variable (env) in
structure SameTables (db db' : Databases κ ρ) : Prop where
  lookUp : ∀ ref, (env.lookUp ref db').1 = (env.lookUp ref db).1
  caseKeyed : (∀ catalog schema, (db catalog schema).CaseKeyed) →
    ∀ catalog schema, (db' catalog schema).CaseKeyed
  replaceable : ∀ catalog schema name,
    (db' catalog schema).Replaceable name ↔ (db catalog schema).Replaceable name

lemma SameTables.refl (db : Databases κ ρ) : env.SameTables db db :=
  ⟨fun _ => rfl, fun h => h, fun _ _ _ => Iff.rfl⟩

lemma SameTables.trans (h : env.SameTables db db') (h' : env.SameTables db' db'') :
    env.SameTables db db'' where
  lookUp ref := (h'.lookUp ref).trans (h.lookUp ref)
  caseKeyed hk := h'.caseKeyed (h.caseKeyed hk)
  replaceable catalog schema name :=
    (h'.replaceable catalog schema name).trans (h.replaceable catalog schema name)

lemma snd_lookUp_cases (ref : ResolvedTableReference) (db : Databases κ ρ) (ct sc : String) :
    (env.lookUp ref db).2 ct sc = db ct sc ∨
      (env.lookUp ref db).2 ct sc = ((db ct sc).table (.none : Faults ε) ref.table).2 := by
  rw [TruncateEnv.lookUp]
  split
  case isFalse => exact .inl rfl
  case isTrue =>
    show db.set _ _ _ ct sc = _ ∨ db.set _ _ _ ct sc = _
    rw [Databases.set]
    split
    case isTrue h => rw [h.1, h.2]; exact .inr rfl
    case isFalse => exact .inl rfl

lemma sameTables_lookUp (ref : ResolvedTableReference) (db : Databases κ ρ) :
    env.SameTables db (env.lookUp ref db).2 := by
  refine ⟨fun ref' => ?_, fun hk ct sc => ?_, fun ct sc nm => ?_⟩
  · rw [fst_lookUp, fst_lookUp]
    rcases snd_lookUp_cases ref db ref'.catalog ref'.schema with h | h <;> rw [h]
    rw [CachingSchema.table_table]
  · rcases snd_lookUp_cases ref db ct sc with h | h <;> rw [h]
    · exact hk ct sc
    · exact (hk ct sc).table .none ref.table
  · rcases snd_lookUp_cases ref db ct sc with h | h <;> rw [h]
    exact CachingSchema.replaceable_table ..

variable (env) in
lemma tableReferencesForStatement_spec (rs : List ResolvedTableReference) (db : Databases κ ρ) :
    env.SameTables db (env.tableReferencesForStatement rs db).2 ∧
      ∀ ref, (env.tableReferencesForStatement rs db).1.lookup ref =
        if ref ∈ rs then (env.lookUp ref db).1 else none := by
  induction rs generalizing db with
  | nil => exact ⟨.refl db, fun _ => rfl⟩
  | cons ref rs ih =>
    have hl : env.SameTables db (env.lookUp ref db).2 := sameTables_lookUp ref db
    obtain ⟨hs, hloo⟩ := ih (env.lookUp ref db).2
    refine ⟨hl.trans hs, fun ref' => ?_⟩
    simp only [tableReferencesForStatement, lookup_append, hloo, hl.lookUp, mem_cons]
    by_cases hr : ref' = ref
    · subst hr
      cases (env.lookUp ref' db).1 with
      | none => simp
      | some tb => simp
    · cases (env.lookUp ref db).1 with
      | none => simp [hr]
      | some tb => simp [hr, lookup_cons, beq_eq_false_iff_ne.mpr hr]

variable (env) in
lemma getCustomLogicalPlan_spec (tg src : List Ident) (e : ε) (db : Databases κ ρ) :
    env.SameTables db (env.getCustomLogicalPlan tg src e db).2 ∧
      ∀ p, (env.getCustomLogicalPlan tg src e db).1 = .ok p ↔
        (env.resolveIdent env.freshNames tg = .ok (env.plannerReference src) ∨
          env.resolveIdent env.freshNames src = .ok (env.plannerReference src)) ∧
        ∃ tb, (env.lookUp (env.plannerReference src) db).1 = some tb ∧
          p = ⟨env.arrowFields tb.content.schema,
            some (.full (env.plannerReference tg).catalog (env.plannerReference tg).schema
              (env.plannerReference tg).table, .projection (.filter (some false) .other))⟩ := by
  obtain ⟨hsam, hl⟩ := env.tableReferencesForStatement_spec
    ([tg, src].filterMap fun ids =>
      (env.resolveIdent env.freshNames ids).toOption) db
  have hm : env.plannerReference src ∈ ([tg, src].filterMap fun ids =>
        (env.resolveIdent env.freshNames ids).toOption) ↔
      env.resolveIdent env.freshNames tg = .ok (env.plannerReference src) ∨
        env.resolveIdent env.freshNames src = .ok (env.plannerReference src) := by
    simp only [mem_filterMap, mem_cons, not_mem_nil, or_false, exists_eq_or_imp,
      exists_eq_left, toOption_eq_some_iff]
  simp only [getCustomLogicalPlan, hl]
  split
  case h_1 hn =>
    refine ⟨hsam, fun p => iff_of_false (fun h => by cases h) ?_⟩
    rintro ⟨hr, tb, ht, -⟩
    rw [if_pos (hm.mpr hr), ht] at hn
    cases hn
  case h_2 tb hs =>
    refine ⟨hsam, fun p => ?_⟩
    rw [Except.ok.injEq]
    split at hs
    case isFalse => cases hs
    case isTrue hr =>
      constructor
      · rintro rfl
        exact ⟨hm.mp hr, tb, hs, rfl⟩
      · rintro ⟨-, tb', ht', rfl⟩
        rw [some.inj (hs.symm.trans ht')]

variable {ref : ResolvedTableReference}

lemma prepare_eq_ok_iff {tg src : ObjectName} {idents : List Ident}
    (hi : env.freshNames.resolveTableObjectName tg = .ok idents)
    {planned : Except ε (CreatePlan T)} {pl : CreatePlan T} :
    (env.createEnv env.freshNames planned).prepare ⟨tg, [], some src, none, false, true⟩ =
        .ok (pl, ref) ↔
      (∃ p fields, planned = .ok p ∧ env.analyze p.fields = .ok fields ∧ pl = { p with fields }) ∧
      env.resolveIdent env.freshNames idents = .ok ref ∧
        (env.hasCatalog ref.catalog && env.hasSchema ref.catalog ref.schema) = true := by
  have hn : (env.createEnv env.freshNames planned).names.resolveTableObjectName tg =
      .ok idents := hi
  have hp : ∀ st idents, (env.createEnv env.freshNames planned).plan st idents = planned :=
    fun _ _ => rfl
  have ha : ∀ p, (env.createEnv env.freshNames planned).analyze p =
      (env.analyze p.fields).map fun fields => { p with fields } := fun _ => rfl
  have hr : (env.createEnv env.freshNames planned).resolveIdent idents =
      env.resolveIdent env.freshNames idents := rfl
  have hcat : (env.createEnv env.freshNames planned).hasCatalog = env.hasCatalog := rfl
  have hsc : (env.createEnv env.freshNames planned).hasSchema = env.hasSchema := rfl
  rcases planned with e | p
  · simp [CreateEnv.prepare, hn, hp, Except.mapError, bind, Except.bind]
  · rcases hf : env.analyze p.fields with e | fields
    · simp [CreateEnv.prepare, hn, hp, ha, hf, Except.mapError, Except.map, bind, Except.bind]
    · rcases hrf : env.resolveIdent env.freshNames idents with e | ref'
      · simp [CreateEnv.prepare, hn, hp, ha, hr, hf, hrf, Except.mapError,
          Except.map, bind, Except.bind]
      · simp only [CreateEnv.prepare, hn, hp, ha, hr, hcat, hsc, hf,
          hrf, Except.mapError, Except.map, bind, Except.bind, Except.ok.injEq]
        cases hc : env.hasCatalog ref'.catalog with
        | false =>
          refine iff_of_false (by simp [throw, throwThe, MonadExceptOf.throw]) ?_
          rintro ⟨-, rfl, ht⟩
          simp [hc] at ht
        | true =>
          cases hs : env.hasSchema ref'.catalog ref'.schema with
          | false =>
            refine iff_of_false (by simp [throw, throwThe, MonadExceptOf.throw]) ?_
            rintro ⟨-, rfl, ht⟩
            simp [hs] at ht
          | true =>
            constructor
            · intro h
              obtain ⟨rfl, rfl⟩ := Prod.mk.inj (pure_eq_ok.mp h)
              exact ⟨⟨p, fields, rfl, hf, rfl⟩, rfl, by rw [hc, hs]; rfl⟩
            · rintro ⟨⟨_, fields', rfl, hf', rfl⟩, rfl, -⟩
              obtain rfl := Except.ok.inj (hf.symm.trans hf')
              rfl

variable {names nms : NameContext} {tn : List ObjectName}

lemma reference_eq_ok_iff {nm : ObjectName} : env.reference nms nm = .ok ref ↔
    ∃ i, nms.resolveTableObjectName nm = .ok i ∧ env.resolveIdent nms i = .ok ref := by
  rw [reference]
  rcases nms.resolveTableObjectName nm with e | i
  · simp [Except.mapError, bind, Except.bind]
  · simp [Except.mapError, bind, Except.bind]

lemma toAsciiLowercase_table {nm : ObjectName} (h : env.reference nms nm = .ok ref) :
    toAsciiLowercase ref.table = ref.table := by
  obtain ⟨idents, -, h⟩ := reference_eq_ok_iff.mp h
  simp only [resolveIdent, CreateEnv.resolveIdent] at h
  split at h
  case h_4 => cases h
  all_goals
    obtain rfl := Except.ok.inj h
    exact toAsciiLowercase_toAsciiLowercase _

lemma buildIcebergCreateTableBuilder_eq_ok_iff {pl : Except ε (CreatePlan T)} {p : CreatePlan T}
    {b : CreateTableBuilder (TableData κ ρ)} :
    (env.createEnv nms pl).buildIcebergCreateTableBuilder ref p none = .ok b ↔
      ∃ sc, env.icebergSchema (p.fields.map nullAsText) = .ok sc ∧
        b = ⟨ref.table, ⟨env.uuid, sc, none, []⟩⟩ := by
  have hb : (env.createEnv nms pl).buildIcebergCreateTableBuilder ref p none = (do
      let sc ← (env.icebergSchema (p.fields.map nullAsText)).mapError .icebergSchema
      pure ⟨ref.table, ⟨env.uuid, sc, none, []⟩⟩) := rfl
  rw [hb]
  rcases env.icebergSchema (p.fields.map nullAsText) with e | sc
  · simp [Except.mapError, bind, Except.bind]
  · simp only [Except.mapError, bind, Except.bind, Except.ok.injEq, exists_eq_left', pure,
      Except.pure]
    exact eq_comm

lemma Replaces.unique {tg sr : ObjectName} {ref' : ResolvedTableReference}
    {sch sch' : κ} (h : env.Replaces db tg sr ref sch)
    (h' : env.Replaces db tg sr ref' sch') : ref = ref' ∧ sch = sch' := by
  refine ⟨Except.ok.inj (h.target.symm.trans h'.target), ?_⟩
  obtain ⟨i, tb, fs, hi, -, ht, hf, hs⟩ := h.planned
  obtain ⟨i', tb', fs', hi', -, ht', hf', hs'⟩ := h'.planned
  obtain rfl := Except.ok.inj (hi.symm.trans hi')
  obtain rfl := some.inj (ht.symm.trans ht')
  obtain rfl := Except.ok.inj (hf.symm.trans hf')
  exact Except.ok.inj (hs.symm.trans hs')

lemma tableOf_set {tb : TableData κ ρ}
    {s : CachingSchema (TableData κ ρ)} (hk : ∀ ct sch, (db ct sch).CaseKeyed)
    (hl : toAsciiLowercase ref.table = ref.table)
    (hth : (env.hasCatalog ref.catalog && env.hasSchema ref.catalog ref.schema) = true)
    (hs : (db ref.catalog ref.schema).Replaced ref.table tb s) :
    env.tableOf (db.set ref.catalog ref.schema s) ref = some tb ∧
      ∀ ref', toAsciiLowercase ref'.table = ref'.table → ref' ≠ ref →
        env.tableOf (db.set ref.catalog ref.schema s) ref' = env.tableOf db ref' := by
  constructor
  · obtain ⟨p, hp, hty, hc⟩ := hs.table_self (ε := ε)
    rw [tableOf, fst_lookUp, if_pos hth, Databases.set_self, hp]
    simp [Except.toOption, Option.filter, hty, hc]
  · intro ref' hl' hne
    rw [tableOf, tableOf, fst_lookUp, fst_lookUp]
    by_cases hsc : ref'.catalog = ref.catalog ∧ ref'.schema = ref.schema
    · have ht : toAsciiLowercase ref'.table ≠ toAsciiLowercase ref.table := by
        rw [hl, hl']
        intro ht
        obtain ⟨ct, sch, nm⟩ := ref
        obtain ⟨ct', sch', name'⟩ := ref'
        obtain ⟨rfl, rfl⟩ := hsc
        exact hne (by rw [show name' = nm from ht])
      rw [hsc.1, hsc.2, Databases.set_self, hs.table_other (hk _ _) ht]
    · rw [show db.set ref.catalog ref.schema s ref'.catalog ref'.schema =
        db ref'.catalog ref'.schema from if_neg hsc]

lemma execute_selectNone (hk : ∀ ct schema, (db ct schema).CaseKeyed) (tg src : ObjectName) :
    ((¬∃ ref schema, env.Replaces db tg src ref schema) ∧
        ∃ e db', env.execute (.selectNone tg src) db = (.error e, db')) ∨
      ∃ ref schema db', env.Replaces db tg src ref schema ∧
        env.execute (.selectNone tg src) db = (.ok .created, db') ∧
        env.tableOf db' ref = some ⟨env.uuid, schema, none, []⟩ ∧
        ∀ ref', toAsciiLowercase ref'.table = ref'.table → ref' ≠ ref →
          env.tableOf db' ref' = env.tableOf db ref' := by
  rcases ht : env.freshNames.resolveTableObjectName tg with e | targetIdents
  · refine .inl ⟨?_, .resolve e, db, by simp only [execute, ht]⟩
    rintro ⟨ref, schema, h⟩
    obtain ⟨ids, hi, -⟩ := reference_eq_ok_iff.mp h.target
    cases ht.symm.trans hi
  rcases hsou : env.freshNames.resolveTableObjectName src with e | sourceIdents
  · refine .inl ⟨?_, .planning (env.planError src), db, by
      simp only [execute, ht, hsou]⟩
    rintro ⟨ref, schema, h⟩
    obtain ⟨ids, -, -, hi, -⟩ := h.planned
    cases hsou.symm.trans hi
  obtain ⟨hsa, hpl⟩ :=
    env.getCustomLogicalPlan_spec targetIdents sourceIdents (env.planError src) db
  simp only [execute, ht, hsou]
  generalize env.getCustomLogicalPlan targetIdents sourceIdents (env.planError src) db = p
    at hsa hpl ⊢
  obtain ⟨p, db₁⟩ := p
  -- a statement that replaces a table gets as far as looking for it
  have hpr : ∀ ref schema, env.Replaces db tg src ref schema → ∃ pl,
      (env.createEnv env.freshNames p).prepare ⟨tg, [], some src, none, false, true⟩ =
          .ok (pl, ref) ∧
        env.icebergSchema (pl.fields.map nullAsText) = .ok schema := by
    intro ref schema h
    obtain ⟨ids, hi, hr⟩ := reference_eq_ok_iff.mp h.target
    obtain rfl := Except.ok.inj (ht.symm.trans hi)
    obtain ⟨ids', table, fs, hi', hfou, htab, hf, hs⟩ := h.planned
    obtain rfl := Except.ok.inj (hsou.symm.trans hi')
    refine ⟨_, (prepare_eq_ok_iff ht).mpr ⟨⟨_, fs, (hpl _).mpr ⟨?_, table, htab, rfl⟩,
      hf, rfl⟩, hr, h.hasSchema⟩, hs⟩
    exact hfou.imp_left fun hsa => by rw [hsa]; exact hr
  rcases hp : (env.createEnv env.freshNames p).prepare
      ⟨tg, [], some src, none, false, true⟩ with e | ⟨pl, ref⟩
  · refine .inl ⟨?_, e, db₁, rfl⟩
    rintro ⟨ref, schema, h⟩
    obtain ⟨pl, ho, -⟩ := hpr ref schema h
    cases hp.symm.trans ho
  obtain ⟨⟨pl₀, fs, hpln, hf, rfl⟩, hr, hth⟩ :=
    (prepare_eq_ok_iff ht).mp hp
  obtain ⟨hfou, table, htab, rfl⟩ := (hpl pl₀).mp hpln
  have he : ∀ nm i, some (TableReference.full (env.plannerReference targetIdents).catalog
      (env.plannerReference targetIdents).schema (env.plannerReference targetIdents).table,
        InputPlan.projection (.filter (some false) .other)) = some (nm, i) →
      isLogicalPlanEffectivelyEmpty i = true := by
    intro nm i h
    cases h
    rfl
  rcases CreateEnv.createTableQuery_replace (s := db₁ ref.catalog ref.schema) rfl rfl hp rfl
      rfl he with ⟨hnt, e, u, hq⟩ | ⟨ha, builder, u, hb, hq, hrep⟩
  · refine .inl ⟨?_, e, db₁.set ref.catalog ref.schema u, by simp only [hq]⟩
    rintro ⟨ref', schema, h⟩
    obtain ⟨pl, ho, hs⟩ := hpr ref' schema h
    obtain ⟨rfl, rfl⟩ := Prod.mk.inj (Except.ok.inj (hp.symm.trans ho))
    exact hnt ⟨(hsa.replaceable _ _ _).mpr h.replaceable, _,
      buildIcebergCreateTableBuilder_eq_ok_iff.mpr ⟨schema, hs, rfl⟩⟩
  · obtain ⟨schema, hs, rfl⟩ := buildIcebergCreateTableBuilder_eq_ok_iff.mp hb
    have ht' : env.reference env.freshNames tg = .ok ref :=
      reference_eq_ok_iff.mpr ⟨targetIdents, ht, hr⟩
    obtain ⟨hn, hfr⟩ := tableOf_set (hsa.caseKeyed hk) (toAsciiLowercase_table ht') hth hrep
    refine .inr ⟨ref, schema, db₁.set ref.catalog ref.schema u, ⟨ht', hth,
      ⟨sourceIdents, table, fs, hsou, hfou.imp_left fun h => ?_, htab, hf,
        hs⟩, (hsa.replaceable _ _ _).mp ha⟩, by simp only [hq], hn, ?_⟩
    · exact Except.ok.inj (h.symm.trans hr)
    · intro ref' hl hne
      rw [hfr ref' hl hne, tableOf, tableOf, hsa.lookUp]

lemma not_truncated_error {e : TruncateError ε} : ¬env.Truncated tn db (.error e, db') := by
  rintro ⟨⟨response, h⟩, -⟩
  cases h

lemma truncated_iff_covered {schema : κ} {r : CreateTableResponse}
    (hnw : env.tableOf db' ref = some ⟨env.uuid, schema, none, []⟩)
    (hf : ∀ ref', toAsciiLowercase ref'.table = ref'.table → ref' ≠ ref →
      env.tableOf db' ref' = env.tableOf db ref') :
    env.Truncated tn db (.ok r, db') ↔ env.Covered tn db ref schema := by
  constructor
  · rintro ⟨-, htr⟩ nm hn ref' tb hr' ht
    obtain ⟨tb', ht', hr, hsc, hsp⟩ :=
      htr nm hn ref' tb hr' ht
    by_cases hs : ref' = ref
    · rw [if_pos hs]
      rw [hs, hnw] at ht'
      obtain rfl := some.inj ht'
      exact ⟨hsc.symm, hsp.symm⟩
    · rw [if_neg hs]
      rw [hf ref' (toAsciiLowercase_table hr') hs, ht] at ht'
      rwa [← some.inj ht'] at hr
  · intro hcov
    refine ⟨⟨r, rfl⟩, fun nm hn ref' tb hr' ht => ?_⟩
    have hc := hcov nm hn ref' tb hr' ht
    by_cases hs : ref' = ref
    · rw [if_pos hs] at hc
      exact ⟨_, by rw [hs]; exact hnw, rfl, hc.1.symm, hc.2.symm⟩
    · rw [if_neg hs] at hc
      exact ⟨tb, (hf ref' (toAsciiLowercase_table hr') hs).trans ht, hc, rfl, rfl⟩

/-! ### Main result -/

/-- **TRUNCATE TABLE** empties its tables exactly if they are `Truncatable`. -/
theorem truncates_iff (hkeyed : ∀ catalog schema, (db catalog schema).CaseKeyed)
    {tableNames : List ObjectName} :
    env.Truncates tableNames db ↔ env.Truncatable tableNames db := by
  rw [Truncates, Truncatable]
  cases tableNames with
  | nil =>
    refine iff_of_false not_truncated_error ?_
    rintro ⟨ft, -, -, h, -⟩
    cases h
  | cons ft rest =>
    rw [truncateTable]
    rcases hn : env.names.resolveTableObjectName ft with e | on
    · refine iff_of_false not_truncated_error ?_
      rintro ⟨_, on, stmt, hf, ho, -⟩
      obtain rfl := some.inj hf
      cases hn.symm.trans ho
    rcases hp : env.parse (truncateText (normalizedIdentText on)) with e | stmt
    · simp only [hp]
      refine iff_of_false not_truncated_error ?_
      rintro ⟨_, on', stmt, hf, ho, hs, -⟩
      obtain rfl := some.inj hf
      obtain rfl := Except.ok.inj (hn.symm.trans ho)
      cases hp.symm.trans hs
    have hrea : ∀ P : TruncateStatement Q → Prop, (∃ ft' on' stmt', (ft :: rest).head? = some ft' ∧
          env.names.resolveTableObjectName ft' = .ok on' ∧
          env.parse (truncateText (normalizedIdentText on')) = .ok stmt' ∧ P stmt') ↔
        P stmt := by
      intro P
      constructor
      · rintro ⟨_, on', stmt', hf, ho, hs, hP⟩
        obtain rfl := some.inj hf
        obtain rfl := Except.ok.inj (hn.symm.trans ho)
        obtain rfl := Except.ok.inj (hp.symm.trans hs)
        exact hP
      · exact fun hP => ⟨ft, on, stmt, rfl, hn, hp, hP⟩
    rw [hrea]
    simp only [hp]
    cases stmt with
    | other stmt => rfl
    | selectNone tg src =>
      rcases execute_selectNone hkeyed tg src with
        ⟨hnt, e, db', h⟩ | ⟨ref, schema, db', hr, h, hnw, hfr⟩
      · rw [h]
        refine iff_of_false not_truncated_error ?_
        rintro ⟨ref, schema, hr, -⟩
        exact hnt ⟨ref, schema, hr⟩
      · rw [h]
        refine (truncated_iff_covered hnw hfr).trans ⟨fun hc => ⟨ref, schema, hr, hc⟩, ?_⟩
        rintro ⟨ref', schema', hr', hc⟩
        obtain ⟨rfl, rfl⟩ := hr.unique hr'
        exact hc

def publicTruncate : TruncateEnv Unit Unit Unit (List String) ℕ where
  names := .publicContext
  freshNames := .publicContext
  parse _ :=
    let name := ["embucket", "public", "t"].map fun part => NamePart.identifier (.new part)
    .ok (.selectNone name name)
  runOther _ db := (.ok .created, db)
  hasCatalog _ := true
  hasSchema _ _ := true
  plannerReference idents :=
    match idents.map Ident.value with
    | [catalog, schema, table] => ⟨catalog, schema, table⟩
    | _ => ⟨"", "", ""⟩
  planError _ := ()
  arrowFields schema := schema.map fun name => ⟨name, .other (), true⟩
  analyze := .ok
  icebergSchema fields := .ok (fields.map name)
  uuid := 1

def createTU (partitionSpec : Option (List PartitionField)) :
    List (SchemaCall (TableData (List String) ℕ) Unit) :=
  [.createIcebergTableAsync .none "t" ⟨"t", ⟨0, ["id"], partitionSpec, [7]⟩⟩,
    .createIcebergTableAsync .none "u" ⟨"u", ⟨0, ["id"], none, [8]⟩⟩]

def databaseTU (partitionSpec : Option (List PartitionField)) : Databases (List String) ℕ :=
  fun _ _ => (createTU partitionSpec).foldl CachingSchema.after ⟨∅, some ∅, ∅⟩

lemma databaseTU_caseKeyed (ps : Option (List PartitionField))
    (ct sc : String) : (databaseTU ps ct sc).CaseKeyed := by
  have hrun : (system ∅ (some ∅)).Run TransitionSystem.anyStep
      (createTU ps) (databaseTU ps ct sc) :=
    TransitionSystem.exec_eq_some_iff.mp rfl
  exact (keyed_of_run hrun).caseKeyed

theorem truncates_unpartitioned :
    publicTruncate.Truncates [[.identifier (.new "t")]] (databaseTU none) := by
  refine (truncates_iff (databaseTU_caseKeyed none)).mpr ⟨_, _, _, rfl, rfl, rfl,
    ⟨"embucket", "public", "t"⟩, ["id"],
    ⟨rfl, rfl, ⟨_, _, _, rfl, .inl rfl, rfl, rfl, rfl⟩, ?_⟩, ?_⟩
  · intro catalog hc
    obtain rfl := some.inj hc
    decide
  · intro name hn ref table hr ht
    obtain rfl := mem_singleton.mp hn
    obtain rfl := Except.ok.inj hr
    obtain rfl := some.inj ht
    exact ⟨rfl, rfl⟩

theorem truncates_loses_partitions :
    ∃ db', publicTruncate.truncateTable [[.identifier (.new "t")], [.identifier (.new "u")]]
        (databaseTU (some [⟨1, 1000, "id", .identity⟩])) = (.ok .created, db') ∧
      publicTruncate.tableOf (databaseTU (some [⟨1, 1000, "id", .identity⟩]))
        ⟨"embucket", "public", "t"⟩ = some ⟨0, ["id"], some [⟨1, 1000, "id", .identity⟩], [7]⟩ ∧
      publicTruncate.tableOf db' ⟨"embucket", "public", "t"⟩ = some ⟨1, ["id"], none, []⟩ ∧
      publicTruncate.tableOf db' ⟨"embucket", "public", "u"⟩ = some ⟨0, ["id"], none, [8]⟩ :=
  ⟨_, rfl, rfl, rfl, rfl⟩

end TruncateEnv

end Rustice
