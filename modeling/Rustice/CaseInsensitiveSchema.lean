import Rustice.AsciiCase
import Rustice.PlanTree

/-!
# `CaseInsensitiveSchemaDataSourceExec`

A Parquet file has its own column names.
-/

namespace Rustice

open List

structure FileField (τ : Type) where
  name : String
  dataType : τ
  nullable : Bool
  deriving DecidableEq

abbrev FileSchema (τ : Type) := List (FileField τ)

inductive ExprLeaf (τ ω : Type) where
  | column (name : String) (index : ℕ)
  | null (dataType : τ)
  | other (leaf : ω)

inductive ExprNode (τ ω : Type) where
  | cast (dataType : τ)
  | other (node : ω)

abbrev PhysicalExpr (τ ω : Type) := PlanTree (ExprLeaf τ ω) (ExprNode τ ω)

def columnExpr {τ ω : Type} (name : String) (index : ℕ) : PhysicalExpr τ ω :=
  .leaf (.column name index)

def IsColumn {τ ω : Type} (expr : PhysicalExpr τ ω) (name : String) (index : ℕ) : Prop :=
  expr = columnExpr name index ∨ ∃ dataType, expr = .node (.cast dataType) [columnExpr name index]

variable {τ ω ε : Type}

def firstField (schema : FileSchema τ) (p : FileField τ → Bool) : Option (FileField τ × ℕ) :=
  schema.zipIdx.find? fun entry => p entry.1

structure DefaultAdapter (ε : Type) where
  unknownColumn : String → ε
  missingRequired : String → Option ε

namespace DefaultAdapter

variable [DecidableEq τ] (adapter : DefaultAdapter ε)

def rewriteLeaf (logical physical : FileSchema τ) :
    ExprLeaf τ ω → Except ε (PhysicalExpr τ ω)
  | .column name index =>
    match firstField logical (·.name = name), firstField physical (·.name = name) with
    | some (field, _), some (found, i) =>
      if field.dataType = found.dataType then .ok (columnExpr name i)
      else .ok (.node (.cast field.dataType) [columnExpr name i])
    | some (field, _), none =>
      if field.nullable then .ok (.leaf (.null field.dataType))
      else
        match adapter.missingRequired name with
        | some e => .error e
        | none => .ok (columnExpr name index)
    | none, some (_, i) => .ok (columnExpr name i)
    | none, none => .error (adapter.unknownColumn name)
  | leaf => .ok (.leaf leaf)

def rewrite (logical physical : FileSchema τ) :
    PhysicalExpr τ ω → Except ε (PhysicalExpr τ ω) :=
  PlanTree.substitute (adapter.rewriteLeaf logical physical)

end DefaultAdapter

def normalizeSchemaRef (schema : FileSchema τ) : FileSchema τ :=
  schema.map fun field => { field with name := toAsciiLowercase field.name }

def remapColumn (physical : FileSchema τ) : PhysicalExpr τ ω → PhysicalExpr τ ω
  | .leaf (.column name index) =>
    match firstField physical (toAsciiLowercase ·.name = toAsciiLowercase name) with
    | some (field, i) => columnExpr field.name i
    | none => columnExpr name index
  | expr => expr

structure CaseInsensitiveExprAdapter (τ ε : Type) where
  inner : DefaultAdapter ε
  logicalFileSchema : FileSchema τ
  physicalFileSchema : FileSchema τ

namespace CaseInsensitiveExprAdapter

def rewrite [DecidableEq τ] (adapter : CaseInsensitiveExprAdapter τ ε) (expr : PhysicalExpr τ ω) :
    Except ε (PhysicalExpr τ ω) :=
  (adapter.inner.rewrite adapter.logicalFileSchema
    (normalizeSchemaRef adapter.physicalFileSchema) expr).map
      (PlanTree.transformUp (remapColumn adapter.physicalFileSchema))

end CaseInsensitiveExprAdapter

structure FileScanConfig (τ : Type) where
  isParquet : Bool
  fileSchema : FileSchema τ
  deriving DecidableEq

def FileScanConfig.installs (config : FileScanConfig τ) : Bool :=
  config.isParquet && !config.fileSchema.any fun field => field.name = toAsciiUppercase field.name

variable {sch : FileSchema τ} {i : ℕ} {e : PhysicalExpr τ ω}

lemma of_firstField_eq_some {p : FileField τ → Bool}
    {fd : FileField τ} (h : firstField sch p = some (fd, i)) : sch[i]? = some fd ∧ p fd = true := by
  rw [firstField] at h
  exact ⟨mem_zipIdx_iff_getElem?.mp (mem_of_find?_eq_some h), by
    simpa using find?_some h⟩

lemma firstField_eq_none_iff {p : FileField τ → Bool} :
    firstField sch p = none ↔ ∀ fd ∈ sch, p fd = false := by
  rw [firstField, find?_eq_none]
  constructor
  · intro h fd hm
    obtain ⟨i, hi⟩ := mem_iff_getElem?.mp hm
    exact Bool.not_eq_true _ ▸ h (fd, i) (mem_zipIdx_iff_getElem?.mpr hi)
  · rintro h ⟨fd, i⟩ hm
    have hf := mem_of_getElem? (mem_zipIdx_iff_getElem?.mp hm)
    simp [h fd hf]

lemma firstField_normalizeSchemaRef {name : String} :
    firstField (normalizeSchemaRef sch) (·.name = name) =
      (firstField sch (toAsciiLowercase ·.name = name)).map fun e =>
        ({ e.1 with name := toAsciiLowercase e.1.name }, e.2) := by
  rw [firstField, normalizeSchemaRef, zipIdx_map, find?_map]
  rfl

lemma remapColumn_eq {p : FileSchema τ} {nm : String} {ix i : ℕ} {f : FileField τ}
    (h : firstField p (eqIgnoreAsciiCase ·.name nm) = some (f, i)) :
    remapColumn p (columnExpr nm ix : PhysicalExpr τ ω) = columnExpr f.name i := by
  have h' : firstField p (toAsciiLowercase ·.name = toAsciiLowercase nm) = some (f, i) := h
  simp only [remapColumn, columnExpr, h']

lemma IsColumn.unique {n m : String} {i j : ℕ}
    (h : IsColumn e n i) (h' : IsColumn e m j) : n = m ∧ i = j := by
  rcases h with rfl | ⟨dt, rfl⟩
  · rcases h' with h' | ⟨dt', h'⟩
    · cases h'
      exact ⟨rfl, rfl⟩
    · cases h'
  · rcases h' with h' | ⟨dt', h'⟩
    · cases h'
    · cases h'
      exact ⟨rfl, rfl⟩

namespace CaseInsensitiveExprAdapter

variable {physical p : FileSchema τ} {fn : FileField τ}

/-- A reference is the column of exactly its name, or else one equal up to case, or else NULL. -/
def Resolved (physical : FileSchema τ) (name : String)
    (result : Except ε (PhysicalExpr τ ω)) : Prop :=
  ((∃ f ∈ physical, f.name = name) →
    ∃ e i f, result = .ok e ∧ physical[i]? = some f ∧ f.name = name ∧ IsColumn e f.name i) ∧
  ((¬∃ f ∈ physical, f.name = name) → (∃ f ∈ physical, eqIgnoreAsciiCase f.name name) →
    ∃ e i f, result = .ok e ∧ physical[i]? = some f ∧ eqIgnoreAsciiCase f.name name ∧
      IsColumn e f.name i) ∧
  (∀ dataType, result = .ok (.leaf (.null dataType)) →
    ¬∃ f ∈ physical, eqIgnoreAsciiCase f.name name)

lemma resolved_iff_of_isColumn {nm : String} {r : Except ε (PhysicalExpr τ ω)}
    (hf : p[i]? = some fn) (heq : eqIgnoreAsciiCase fn.name nm)
    (hr : r = .ok e) (hc : IsColumn e fn.name i) :
    Resolved p nm r ↔ ((∃ f ∈ p, f.name = nm) → fn.name = nm) := by
  constructor
  · rintro ⟨hex, -, -⟩ he
    obtain ⟨e', i', f, hr', -, hnam, hc'⟩ := hex he
    rw [hr, Except.ok.injEq] at hr'
    subst hr'
    rw [(hc.unique hc').1, hnam]
  · intro h
    refine ⟨fun he => ⟨e, i, fn, hr, hf, h he, hc⟩,
      fun _ _ => ⟨e, i, fn, hr, hf, heq, hc⟩, fun dt hn => ?_⟩
    rw [hr, Except.ok.injEq] at hn
    subst hn
    rcases hc with h' | ⟨dt', h'⟩
    · cases h'
    · cases h'

lemma not_resolved_error {nm : String} {e : ε} (h : ∃ f ∈ p, eqIgnoreAsciiCase f.name nm) :
    ¬Resolved p nm (.error e : Except ε (PhysicalExpr τ ω)) := by
  rintro ⟨hex, hc, -⟩
  by_cases he : ∃ f ∈ p, f.name = nm
  · obtain ⟨ex, i, f, hr, -⟩ := hex he
    cases hr
  · obtain ⟨ex, i, f, hr, -⟩ := hc he h
    cases hr

lemma resolved_of_forall_not {name : String} {result : Except ε (PhysicalExpr τ ω)}
    (h : ∀ f ∈ p, ¬eqIgnoreAsciiCase f.name name) : Resolved p name result := by
  have hn : ¬∃ f ∈ p, eqIgnoreAsciiCase f.name name := by
    rintro ⟨f, hf, heq⟩
    exact h f hf heq
  refine ⟨?_, fun _ he => absurd he hn, fun _ _ => hn⟩
  rintro ⟨f, hf, rfl⟩
  exact absurd (eqIgnoreAsciiCase_self _) (h f hf)

section

variable [DecidableEq τ]
  {adapter a : CaseInsensitiveExprAdapter τ ε} {name nm : String} {index ix : ℕ}
  {field fd : FileField τ} {k : ℕ}

lemma rewrite_of_lower {f : FileField τ}
    (hfie : firstField a.logicalFileSchema (·.name = nm) = some (fd, k))
    (hn : nm = toAsciiLowercase nm)
    (hf : firstField a.physicalFileSchema (eqIgnoreAsciiCase ·.name nm) = some (f, i)) :
    ∃ e : PhysicalExpr τ ω, a.rewrite (columnExpr nm ix) = .ok e ∧ IsColumn e f.name i := by
  have hr := @remapColumn_eq τ ω _ _ i _ _ hf
  have hl : firstField a.physicalFileSchema (toAsciiLowercase ·.name = nm) = some (f, i) := by
    rw [← hf]
    simp only [eqIgnoreAsciiCase, ← hn]
  simp only [rewrite, DefaultAdapter.rewrite, columnExpr, PlanTree.substitute_leaf,
    DefaultAdapter.rewriteLeaf, hfie, firstField_normalizeSchemaRef, hl, Option.map_some]
  split_ifs
  · exact ⟨columnExpr f.name i, congrArg Except.ok hr, .inl rfl⟩
  · have hc : PlanTree.transformUp (remapColumn a.physicalFileSchema)
        (.node (.cast fd.dataType) [columnExpr nm i] : PhysicalExpr τ ω) =
          .node (.cast fd.dataType) [columnExpr f.name i] := by
      rw [PlanTree.transformUp_node, ← hr]
      rfl
    exact ⟨_, congrArg Except.ok hc, .inr ⟨_, rfl⟩⟩

lemma rewrite_of_ne_lower
    (hf : firstField a.logicalFileSchema (·.name = nm) = some (fd, k))
    (hn : nm ≠ toAsciiLowercase nm) :
    (a.rewrite (columnExpr nm ix) : Except ε (PhysicalExpr τ ω)) =
      if fd.nullable then .ok (.leaf (.null fd.dataType))
      else
        match a.inner.missingRequired nm with
        | some e => .error e
        | none => .ok (remapColumn a.physicalFileSchema (columnExpr nm ix)) := by
  have hm : firstField a.physicalFileSchema (toAsciiLowercase ·.name = nm) = none := by
    rw [firstField_eq_none_iff]
    intro f _
    refine decide_eq_false fun h => hn ?_
    rw [← h, toAsciiLowercase_toAsciiLowercase]
  simp only [rewrite, DefaultAdapter.rewrite, columnExpr, PlanTree.substitute_leaf,
    DefaultAdapter.rewriteLeaf, hf, firstField_normalizeSchemaRef, hm, Option.map_none]
  split_ifs
  · rfl
  · cases a.inner.missingRequired nm with
    | none => rfl
    | some e => rfl

lemma resolved_iff_of_ne_lower
    (hfie : firstField a.logicalFileSchema (·.name = name) = some (fd, k))
    (hn : name ≠ toAsciiLowercase name)
    (hf : firstField a.physicalFileSchema (eqIgnoreAsciiCase ·.name name) = some (fn, i)) :
    Resolved a.physicalFileSchema name
        (a.rewrite (columnExpr name ix) : Except ε (PhysicalExpr τ ω)) ↔
      (fd.nullable = false ∧ a.inner.missingRequired name = none) ∧
        ((∃ f ∈ a.physicalFileSchema, f.name = name) → fn.name = name) := by
  obtain ⟨hfou, heq⟩ := of_firstField_eq_some hf
  have he : ∃ f ∈ a.physicalFileSchema, eqIgnoreAsciiCase f.name name :=
    ⟨fn, mem_of_getElem? hfou, heq⟩
  rw [rewrite_of_ne_lower hfie hn]
  cases fd.nullable with
  | true =>
    rw [if_pos rfl]
    exact iff_of_false (fun h => h.2.2 _ rfl he) fun h => Bool.noConfusion h.1.1
  | false =>
    rw [if_neg Bool.false_ne_true]
    cases a.inner.missingRequired name with
    | some e => exact iff_of_false (not_resolved_error he) fun h => nomatch h.1.2
    | none =>
      rw [resolved_iff_of_isColumn hfou heq rfl (.inl (remapColumn_eq hf))]
      exact ⟨fun h => ⟨⟨rfl, rfl⟩, h⟩, And.right⟩

/-! ### Main result -/

/-- **A Parquet column is resolved** exactly if its name is in lower case and matched exactly first.
-/
theorem rewrite_resolves_iff
    (hfield : firstField adapter.logicalFileSchema (·.name = name) = some (field, k)) :
    Resolved adapter.physicalFileSchema name
        (adapter.rewrite (columnExpr name index) : Except ε (PhysicalExpr τ ω)) ↔
      (∀ f ∈ adapter.physicalFileSchema, ¬eqIgnoreAsciiCase f.name name) ∨
      (name = toAsciiLowercase name ∨
          field.nullable = false ∧ adapter.inner.missingRequired name = none) ∧
        ((∃ f ∈ adapter.physicalFileSchema, f.name = name) →
          ∀ f i, firstField adapter.physicalFileSchema (eqIgnoreAsciiCase ·.name name) =
            some (f, i) → f.name = name) := by
  cases hfir : firstField adapter.physicalFileSchema (eqIgnoreAsciiCase ·.name name) with
  | none =>
    rw [firstField_eq_none_iff] at hfir
    have hnon : ∀ f ∈ adapter.physicalFileSchema, ¬eqIgnoreAsciiCase f.name name := by
      intro f hf heq
      rw [hfir f hf] at heq
      cases heq
    exact iff_of_true (resolved_of_forall_not hnon) (.inl hnon)
  | some e =>
    obtain ⟨fn, i⟩ := e
    obtain ⟨hfou, heq⟩ := of_firstField_eq_some hfir
    have hs : ¬∀ f ∈ adapter.physicalFileSchema, ¬eqIgnoreAsciiCase f.name name :=
      fun h => h fn (mem_of_getElem? hfou) heq
    have hu : (∀ f j, some (fn, i) = some (f, j) → f.name = name) ↔ fn.name = name := by
      refine ⟨fun h => h fn i rfl, ?_⟩
      rintro h f j ⟨⟩
      exact h
    simp only [hs, false_or, hu]
    by_cases hn : name = toAsciiLowercase name
    · obtain ⟨expr, hr, hc⟩ := rewrite_of_lower hfield hn hfir
      rw [resolved_iff_of_isColumn hfou heq hr hc]
      exact ⟨fun h => ⟨.inl hn, h⟩, And.right⟩
    · rw [resolved_iff_of_ne_lower hfield hn hfir, or_iff_right hn]

end

def intField (name : String) : FileField String := ⟨name, "Int32", true⟩

def intAdapter (table file : List String) : CaseInsensitiveExprAdapter String String where
  inner := ⟨id, some⟩
  logicalFileSchema := table.map intField
  physicalFileSchema := file.map intField

theorem rewrite_resolves_id :
    Resolved (["ID"].map intField) "id"
      ((intAdapter ["id"] ["ID"]).rewrite (columnExpr "id" 0) :
        Except String (PhysicalExpr String Unit)) := by
  refine (@rewrite_resolves_iff _ _ _ _ (intAdapter ["id"] ["ID"]) "id" 0 (intField "id") 0
    rfl).mpr (.inr ⟨.inl (by decide), ?_⟩)
  rintro ⟨f, hf, hn⟩
  obtain rfl := mem_singleton.mp hf
  exact absurd hn (by decide)

theorem rewrite_misresolves :
    (FileScanConfig.installs ⟨true, ["Id"].map intField⟩ = true ∧
      ((intAdapter ["Id"] ["Id"]).rewrite (columnExpr "Id" 0) :
        Except String (PhysicalExpr String Unit)) = .ok (.leaf (.null "Int32")) ∧
      ¬Resolved (["Id"].map intField) "Id"
        (.ok (.leaf (.null "Int32")) : Except String (PhysicalExpr String Unit))) ∧
    (FileScanConfig.installs ⟨true, ["id"].map intField⟩ = true ∧
      ((intAdapter ["id"] ["ID", "id"]).rewrite (columnExpr "id" 0) :
        Except String (PhysicalExpr String Unit)) = .ok (columnExpr "ID" 0) ∧
      ¬Resolved (["ID", "id"].map intField) "id"
        (.ok (columnExpr "ID" 0) : Except String (PhysicalExpr String Unit))) := by
  refine ⟨⟨by decide, rfl, ?_⟩, by decide, rfl, ?_⟩
  · intro h
    exact h.2.2 "Int32" rfl ⟨intField "Id", mem_cons_self, by decide⟩
  · rintro ⟨he, -, -⟩
    obtain ⟨expr, i, f, hr, -, hn, hc⟩ :=
      he ⟨intField "id", mem_cons_of_mem _ mem_cons_self, rfl⟩
    cases hr
    have hI := (hc.unique (.inl rfl)).1
    rw [hn] at hI
    exact absurd hI (by decide)

end CaseInsensitiveExprAdapter

end Rustice
