import Rustice.CachingSchema
import Rustice.CaseInsensitiveSchema

/-!
# The Scan of a Cached Table

`CachingTable` wraps a table and advertises its schema with the column names in lower case.
-/

namespace Rustice

open List

open FileField

variable {τ κ ν ε : Type}

def normalizeSchemaCase (schema : FileSchema τ) : FileSchema τ :=
  schema.map fun field => { field with name := toAsciiLowercase field.name }

def caseSensitiveSchema (schema : FileSchema τ) : Bool :=
  schema.any fun field => field.name = toAsciiUppercase field.name

structure FilterColumn where
  relation : Option String
  name : String
  deriving DecidableEq

inductive FilterLeaf (κ : Type) where
  | column (column : FilterColumn)
  | other (leaf : κ)

abbrev ScanFilter (κ ν : Type) := PlanTree (FilterLeaf κ) ν

def scanFilterColumns : ScanFilter κ ν → List FilterColumn :=
  PlanTree.fold (fun leaf =>
    match leaf with
    | .column column => [column]
    | .other _ => []) fun _ columns => columns.flatten

def rewriteColumn (schema : FileSchema τ) (column : FilterColumn) : FilterColumn :=
  match schema.find? fun field => eqIgnoreAsciiCase field.name column.name with
  | some field => { column with name := field.name }
  | none => column

def rewriteExprCase (schema : FileSchema τ) : ScanFilter κ ν → ScanFilter κ ν :=
  PlanTree.transformUp fun expr =>
    match expr with
    | .leaf (.column column) => .leaf (.column (rewriteColumn schema column))
    | expr => expr

structure OnceCell (α : Type) (init : α) where
  value : Option α
  value_eq : ∀ v, value = some v → v = init

namespace OnceCell

variable {α : Type} {init : α}

def empty : OnceCell α init where
  value := none
  value_eq v h := by cases h

def getOrInit (cell : OnceCell α init) : α :=
  match cell.value with
  | some v => v
  | none => init

@[simp] lemma getOrInit_eq (c : OnceCell α init) : c.getOrInit = init := by
  rw [getOrInit]
  split
  · next v h => exact c.value_eq v h
  · rfl

end OnceCell

inductive ScanError (ε : Type) where
  | projectionOutOfBounds (index : ℕ)
  | fieldOutOfBounds (index : ℕ)
  | viewSource (error : ε)

/-- `dyn TableProvider`, for the scan. -/
structure ScanTable (τ ε : Type) where
  tableType : TableType
  schema : FileSchema τ
  view : Option (Except ε Unit)

structure CachingTableCells (τ ε : Type) where
  table : ScanTable τ ε
  schemaCell : OnceCell (FileSchema τ) table.schema
  normalizedSchemaCell : OnceCell (FileSchema τ) (normalizeSchemaCase table.schema)
  caseSensitiveSchemaCell : OnceCell Bool (caseSensitiveSchema table.schema)

def CachingTableCells.new (table : ScanTable τ ε) : CachingTableCells τ ε :=
  ⟨table, .empty, .empty, .empty⟩

def CachingTableCells.advertised (t : CachingTableCells τ ε) : FileSchema τ :=
  t.normalizedSchemaCell.getOrInit

def projectSchema (schema : FileSchema τ) (projection : Option (List ℕ)) :
    Except (ScanError ε) (FileSchema τ) :=
  match projection with
  | none => .ok schema
  | some indices => indices.mapM fun index =>
    match schema[index]? with
    | some field => .ok field
    | none => .error (.projectionOutOfBounds index)

inductive ScanPlan (τ κ ν : Type) where
  | tableScan (schema : FileSchema τ) (filters : List (ScanFilter κ ν)) (limit : Option ℕ)
  | projectionExec (exprs : List ((String × ℕ) × String)) (input : ScanPlan τ κ ν)

def ScanPlan.schema : ScanPlan τ κ ν → FileSchema τ
  | tableScan schema _ _ => schema
  | projectionExec exprs input => exprs.filterMap fun expr =>
    (input.schema[expr.1.2]?).map fun field => { field with name := expr.2 }

def ScanPlan.filters : ScanPlan τ κ ν → List (ScanFilter κ ν)
  | tableScan _ filters _ => filters
  | projectionExec _ input => input.filters

def ScanTable.scan (table : ScanTable τ ε) (projection : Option (List ℕ))
    (filters : List (ScanFilter κ ν)) (limit : Option ℕ) :
    Except (ScanError ε) (ScanPlan τ κ ν) := do
  let schema ← projectSchema table.schema projection
  .ok (.tableScan schema filters limit)

namespace CachingTableCells

def rewriteCaseSensitiveScan (t : CachingTableCells τ ε) (projection : Option (List ℕ))
    (filters : List (ScanFilter κ ν)) (limit : Option ℕ) :
    Except (ScanError ε) (ScanPlan τ κ ν) := do
  let rewrittenFilters := filters.map (rewriteExprCase t.schemaCell.getOrInit)
  let plan ← t.table.scan projection rewrittenFilters limit
  let targetSchema ← projectSchema t.normalizedSchemaCell.getOrInit projection
  let projectionExprs ← plan.schema.zipIdx.mapM fun entry =>
    match targetSchema[entry.2]? with
    | some target => .ok ((entry.1.name, entry.2), target.name)
    | none => .error (.fieldOutOfBounds entry.2)
  .ok (.projectionExec projectionExprs plan)

def scan (t : CachingTableCells τ ε) (projection : Option (List ℕ))
    (filters : List (ScanFilter κ ν)) (limit : Option ℕ) :
    Except (ScanError ε) (ScanPlan τ κ ν) :=
  match t.table.tableType, t.table.view with
  | .view, some sources =>
    match sources with
    | .error e => .error (.viewSource e)
    -- The updated view has the columns of the view.
    | .ok _ => t.table.scan projection filters limit
  | _, _ =>
    if t.caseSensitiveSchemaCell.getOrInit then t.rewriteCaseSensitiveScan projection filters limit
    else t.table.scan projection filters limit

end CachingTableCells

def fieldIndex (schema : FileSchema τ) (name : String) : Option ℕ :=
  schema.findIdx? fun field => field.name = name

lemma toAsciiLowercase_of_mem {sch : FileSchema τ} {name : String}
    (h : ∃ f ∈ normalizeSchemaCase sch, f.name = name) : toAsciiLowercase name = name := by
  obtain ⟨f, hf, rfl⟩ := h
  obtain ⟨original, -, rfl⟩ := mem_map.mp hf
  exact toAsciiLowercase_toAsciiLowercase _

lemma eqIgnoreAsciiCase_iff {a name : String} (hn : toAsciiLowercase name = name) :
    eqIgnoreAsciiCase a name = true ↔ toAsciiLowercase a = name := by
  rw [eqIgnoreAsciiCase, decide_eq_true_iff, hn]

def meantField (schema : FileSchema τ) (name : String) : Option (FileField τ) :=
  schema.find? fun field => eqIgnoreAsciiCase field.name name

section Position

variable {schema sch : FileSchema τ} {name : String} {field f : FileField τ}

lemma exists_meantField (h : ∃ field ∈ normalizeSchemaCase sch, field.name = name) :
    ∃ field, meantField sch name = some field := by
  have hn := toAsciiLowercase_of_mem h
  obtain ⟨_, hf, rfl⟩ := h
  obtain ⟨o, ho, rfl⟩ := mem_map.mp hf
  rw [← Option.isSome_iff_exists, meantField, find?_isSome]
  exact ⟨o, ho, (eqIgnoreAsciiCase_iff hn).mpr rfl⟩

lemma fieldIndex_of_meantField (hn : toAsciiLowercase name = name)
    (hm : meantField sch name = some f) :
    fieldIndex sch f.name = fieldIndex (normalizeSchemaCase sch) name := by
  have hfou : eqIgnoreAsciiCase f.name name = true :=
    find?_some (p := fun f : FileField τ => eqIgnoreAsciiCase f.name name) hm
  have hl : toAsciiLowercase f.name = name := (eqIgnoreAsciiCase_iff hn).mp hfou
  rw [fieldIndex, fieldIndex, normalizeSchemaCase]
  rw [meantField] at hm
  induction sch with
  | nil => cases hm
  | cons a sch ih =>
    rw [find?_cons] at hm
    rw [map_cons, findIdx?_cons, findIdx?_cons]
    by_cases hf : toAsciiLowercase a.name = name
    · rw [(eqIgnoreAsciiCase_iff hn).mpr hf] at hm
      cases hm
      simp [hf]
    · have hne : ¬ a.name = f.name := by
        intro heq
        exact hf (heq ▸ hl)
      rw [Bool.eq_false_iff.mpr fun h => hf ((eqIgnoreAsciiCase_iff hn).mp h)] at hm
      simp only [hne, hf, decide_false, Bool.false_eq_true, if_false, ih hm]

lemma fieldIndex_eq_iff (hn : toAsciiLowercase name = name) (hm : meantField schema name = some f) :
    fieldIndex schema name = fieldIndex (normalizeSchemaCase schema) name ↔ f.name = name := by
  rw [← fieldIndex_of_meantField hn hm]
  constructor
  · intro heq
    have hmm : f ∈ schema := mem_of_find?_eq_some hm
    obtain ⟨i, hi⟩ : ∃ i, fieldIndex schema f.name = some i := by
      rw [← Option.isSome_iff_exists, fieldIndex, findIdx?_isSome, any_eq_true]
      exact ⟨f, hmm, decide_eq_true rfl⟩
    obtain ⟨_, ha, -⟩ := findIdx?_eq_some_iff_getElem.mp (heq.trans hi)
    obtain ⟨_, ha', -⟩ := findIdx?_eq_some_iff_getElem.mp hi
    exact (of_decide_eq_true ha').symm.trans (of_decide_eq_true ha)
  · intro heq
    rw [heq]

lemma fieldIndex_rewriteColumn {c : FilterColumn}
    (h : ∃ f ∈ normalizeSchemaCase sch, f.name = c.name) :
    fieldIndex sch (rewriteColumn sch c).name =
      fieldIndex (normalizeSchemaCase sch) c.name := by
  obtain ⟨f, hm⟩ := exists_meantField h
  have hr : (rewriteColumn sch c).name = f.name := by rw [rewriteColumn, ← meantField, hm]
  rw [hr, fieldIndex_of_meantField (toAsciiLowercase_of_mem h) hm]

end Position

lemma scanFilterColumns_rewriteExprCase (sch : FileSchema τ) (fl : ScanFilter κ ν) :
    scanFilterColumns (rewriteExprCase sch fl) =
      (scanFilterColumns fl).map (rewriteColumn sch) := by
  induction fl using PlanTree.induction with
  | leaf leaf => cases leaf <;> simp [rewriteExprCase, scanFilterColumns]
  | node n cs ih =>
    rw [rewriteExprCase, PlanTree.transformUp_node, ← rewriteExprCase]
    simp only [scanFilterColumns, PlanTree.fold_node, map_flatten, map_map]
    congr 1
    exact map_congr_left ih

def projectedFields (schema : FileSchema τ) (projection : Option (List ℕ)) : FileSchema τ :=
  match projection with
  | none => schema
  | some indices => indices.filterMap (schema[·]?)

def ValidProjection (width : ℕ) (projection : Option (List ℕ)) : Prop :=
  ∀ ins, projection = some ins → ∀ i ∈ ins, i < width

/-- **A plan is that of the advertised schema**: its names, and the columns of its filters, are. -/
structure MatchesAdvertised (t : CachingTableCells τ ε) (projection : Option (List ℕ))
    (filters : List (ScanFilter κ ν)) (plan : ScanPlan τ κ ν) : Prop where
  names : plan.schema.map name =
    (projectedFields t.advertised projection).map name
  filters : List.Forall₂ (fun filter handed =>
    List.Forall₂ (fun column handedColumn =>
      fieldIndex t.table.schema handedColumn.name = fieldIndex t.advertised column.name)
      (scanFilterColumns filter) (scanFilterColumns handed)) filters plan.filters

lemma projectSchema_eq_ok {sch : FileSchema τ} {p : Option (List ℕ)}
    (h : ValidProjection sch.length p) :
    (projectSchema sch p : Except (ScanError ε) _) = .ok (projectedFields sch p) := by
  cases p with
  | none => rfl
  | some ins =>
    have hv := h ins rfl
    clear h
    rw [projectSchema, projectedFields]
    induction ins with
    | nil => rfl
    | cons i ins ih =>
      rw [forall_mem_cons] at hv
      simp only [mapM_cons, filterMap_cons, getElem?_eq_getElem hv.1, ih hv.2]
      rfl

lemma projectedFields_normalizeSchemaCase (sch : FileSchema τ) (p : Option (List ℕ)) :
    projectedFields (normalizeSchemaCase sch) p = normalizeSchemaCase (projectedFields sch p) := by
  cases p with
  | none => rfl
  | some indices => simp only [projectedFields, normalizeSchemaCase, getElem?_map, map_filterMap]

lemma map_name_schema_projectionExec {es : List ((String × ℕ) × String)}
    {i : ScanPlan τ κ ν} (h : ∀ e ∈ es, e.1.2 < i.schema.length) :
    (ScanPlan.projectionExec es i).schema.map name = es.map Prod.snd := by
  rw [ScanPlan.schema]
  induction es with
  | nil => rfl
  | cons e es ih =>
    rw [forall_mem_cons] at h
    simp only [filterMap_cons, getElem?_eq_getElem h.1, Option.map_some, map_cons, ih h.2]

namespace CachingTableCells

variable {t : CachingTableCells τ ε} {projection p : Option (List ℕ)}
  {filters fs : List (ScanFilter κ ν)} {limit l : Option ℕ}

lemma advertised_eq (t : CachingTableCells τ ε) :
    t.advertised = normalizeSchemaCase t.table.schema :=
  t.normalizedSchemaCell.getOrInit_eq

lemma table_scan_eq (hp : ValidProjection t.table.schema.length p) :
    t.table.scan p fs l = .ok (.tableScan (projectedFields t.table.schema p) fs l) := by
  rw [ScanTable.scan, projectSchema_eq_ok hp]
  rfl

lemma rewriteCaseSensitiveScan_matches (hp : ValidProjection t.table.schema.length projection)
    (hf : ∀ fl ∈ fs, ∀ c ∈ scanFilterColumns fl, ∃ f ∈ t.advertised, f.name = c.name) :
    ∃ plan, t.rewriteCaseSensitiveScan projection fs l = .ok plan ∧
      MatchesAdvertised t projection fs plan := by
  let fields := projectedFields t.table.schema projection
  let input : ScanPlan τ κ ν :=
    .tableScan fields (fs.map (rewriteExprCase t.table.schema)) l
  let exprs := fields.zipIdx.map fun e =>
    ((e.1.name, e.2), toAsciiLowercase e.1.name)
  have hw : ValidProjection (normalizeSchemaCase t.table.schema).length projection := by
    rwa [normalizeSchemaCase, length_map]
  have he : ∀ e ∈ fields.zipIdx, fields[e.2]? = some e.1 := fun e h =>
    mem_zipIdx_iff_getElem?.mp h
  have hex : (fields.zipIdx.mapM fun e =>
      match (normalizeSchemaCase fields)[e.2]? with
      | some tg => .ok ((e.1.name, e.2), tg.name)
      | none => .error (.fieldOutOfBounds e.2)) =
      (.ok exprs : Except (ScanError ε) _) := by
    refine mapM_eq_ok_map fun e h => ?_
    rw [normalizeSchemaCase, getElem?_map, he e h]
    rfl
  refine ⟨.projectionExec exprs input, ?_, ?_, ?_⟩
  · rw [rewriteCaseSensitiveScan, t.schemaCell.getOrInit_eq, t.normalizedSchemaCell.getOrInit_eq]
    refine bind_eq_ok.mpr ⟨input, table_scan_eq hp, bind_eq_ok.mpr
      ⟨_, projectSchema_eq_ok hw, bind_eq_ok.mpr ⟨exprs, ?_, rfl⟩⟩⟩
    rw [projectedFields_normalizeSchemaCase]
    exact hex
  · rw [map_name_schema_projectionExec, advertised_eq, projectedFields_normalizeSchemaCase]
    · have hn : exprs.map Prod.snd =
          (fields.zipIdx.map Prod.fst).map fun f => toAsciiLowercase f.name := by
        rw [map_map, map_map]
        rfl
      rw [hn, zipIdx_map_fst, normalizeSchemaCase, map_map]
      rfl
    · intro expr hexp
      obtain ⟨e, he', rfl⟩ := mem_map.mp hexp
      exact (List.getElem?_eq_some_iff.mp (he e he')).1
  · rw [advertised_eq] at hf ⊢
    refine forall₂_map_right_iff.mpr (forall₂_same.mpr fun fl hfil => ?_)
    rw [scanFilterColumns_rewriteExprCase]
    refine forall₂_map_right_iff.mpr (forall₂_same.mpr fun c hc => ?_)
    exact fieldIndex_rewriteColumn (hf fl hfil c hc)

lemma tableScan_matches_iff
    (hfil : ∀ fl ∈ fs, ∀ c ∈ scanFilterColumns fl, ∃ f ∈ t.advertised, f.name = c.name) :
    MatchesAdvertised t p fs (.tableScan (projectedFields t.table.schema p) fs l) ↔
      (∀ f ∈ projectedFields t.table.schema p, toAsciiLowercase f.name = f.name) ∧
      ∀ fl ∈ fs, ∀ c ∈ scanFilterColumns fl, ∀ f,
        meantField t.table.schema c.name = some f → f.name = c.name := by
  rw [advertised_eq] at hfil
  have hc : ∀ fl ∈ fs, ∀ c ∈ scanFilterColumns fl,
      (fieldIndex t.table.schema c.name = fieldIndex t.advertised c.name ↔
        ∀ f, meantField t.table.schema c.name = some f → f.name = c.name) := by
    intro fl hf c hc
    have hm := hfil fl hf c hc
    obtain ⟨f, hmea⟩ := exists_meantField hm
    rw [advertised_eq, fieldIndex_eq_iff (toAsciiLowercase_of_mem hm) hmea, hmea]
    simp
  have hn : ((projectedFields t.table.schema p).map name =
      (projectedFields t.advertised p).map name) ↔
      ∀ f ∈ projectedFields t.table.schema p, toAsciiLowercase f.name = f.name := by
    rw [advertised_eq, projectedFields_normalizeSchemaCase, normalizeSchemaCase, map_map,
      map_inj_left]
    exact forall₂_congr fun f _ => eq_comm
  constructor
  · rintro ⟨hsc, hh⟩
    refine ⟨hn.mp hsc, fun fl hf c hm => ?_⟩
    have := forall₂_same.mp (forall₂_same.mp hh fl hf) c hm
    exact (hc fl hf c hm).mp this
  · rintro ⟨hl, hs⟩
    refine ⟨hn.mpr hl, forall₂_same.mpr fun fl hf =>
      forall₂_same.mpr fun c hm => ?_⟩
    exact (hc fl hf c hm).mpr (hs fl hf c hm)

def IsView (t : CachingTableCells τ ε) : Prop :=
  t.table.tableType = .view ∧ t.table.view.isSome

def SourceMissing (t : CachingTableCells τ ε) : Prop :=
  t.table.tableType = .view ∧ ∃ e, t.table.view = some (.error e)

lemma scan_of_sourceMissing (h : t.SourceMissing) :
    ∃ e, t.scan p fs l = .error (.viewSource e) := by
  obtain ⟨ht, e, hv⟩ := h
  exact ⟨e, by rw [scan, ht, hv]⟩

lemma scan_of_isView (h : t.IsView) (hsou : ¬ t.SourceMissing) :
    t.scan p fs limit = t.table.scan p fs limit := by
  obtain ⟨ht, hv⟩ := h
  obtain ⟨ss, hs⟩ := Option.isSome_iff_exists.mp hv
  cases ss with
  | error e => exact absurd ⟨ht, e, hs⟩ hsou
  | ok _ => rw [scan, ht, hs]

lemma scan_of_not_isView (h : ¬ t.IsView) : t.scan p fs limit =
    if caseSensitiveSchema t.table.schema then t.rewriteCaseSensitiveScan p fs limit
    else t.table.scan p fs limit := by
  rw [scan]
  split
  · next sources ht hv => exact absurd ⟨ht, by rw [hv]; rfl⟩ h
  · rw [t.caseSensitiveSchemaCell.getOrInit_eq]

/-! ### Main result -/

/-- **The scan of a cached table** is right exactly if it is rewritten, or the names are spelled
alike. -/
theorem scan_matches_iff (t : CachingTableCells τ ε) (projection : Option (List ℕ))
    (filters : List (ScanFilter κ ν)) (limit : Option ℕ)
    (hprojection : ValidProjection t.table.schema.length projection)
    (hfilters : ∀ filter ∈ filters, ∀ column ∈ scanFilterColumns filter,
      ∃ field ∈ t.advertised, field.name = column.name) :
    (∀ plan, t.scan projection filters limit = .ok plan →
        MatchesAdvertised t projection filters plan) ↔
      t.SourceMissing ∨
      (¬ t.IsView ∧ ∃ field ∈ t.table.schema, field.name = toAsciiUppercase field.name) ∨
      ((∀ field ∈ projectedFields t.table.schema projection,
          toAsciiLowercase field.name = field.name) ∧
        ∀ filter ∈ filters, ∀ column ∈ scanFilterColumns filter, ∀ field,
          meantField t.table.schema column.name = some field → field.name = column.name) := by
  have hc : (∃ field ∈ t.table.schema, field.name = toAsciiUppercase field.name) ↔
      caseSensitiveSchema t.table.schema = true := by
    simp [caseSensitiveSchema]
  rw [hc, ← @tableScan_matches_iff _ _ _ _ t projection filters limit hfilters]
  by_cases hs : t.SourceMissing
  · obtain ⟨e, hsc⟩ := @scan_of_sourceMissing _ κ ν _ t projection filters limit hs
    rw [hsc]
    refine iff_of_true (fun plan hp => ?_) (.inl hs)
    cases hp
  rw [or_iff_right hs]
  by_cases hv : t.IsView
  · rw [scan_of_isView hv hs, table_scan_eq hprojection]
    simp [hv]
  rw [scan_of_not_isView hv]
  by_cases hu : caseSensitiveSchema t.table.schema = true
  · obtain ⟨plan, hp, hm⟩ :=
      @rewriteCaseSensitiveScan_matches _ _ _ _ t projection filters limit hprojection hfilters
    rw [if_pos hu, hp]
    refine iff_of_true (fun plan' heq => ?_) (.inl ⟨hv, hu⟩)
    cases heq
    exact hm
  · rw [if_neg hu, table_scan_eq hprojection]
    simp [hu]

end CachingTableCells

def mixedTable (names : List String) : CachingTableCells Unit Empty :=
  .new ⟨.base, names.map fun name => ⟨name, (), true⟩, none⟩

def columnFilter (name : String) : ScanFilter Unit Unit :=
  .leaf (.column ⟨none, name⟩)

theorem mixedTable_scan_matches :
    ∃ plan, (mixedTable ["Id", "NAME"]).scan (some [1, 0]) [columnFilter "id"] none = .ok plan ∧
      MatchesAdvertised (mixedTable ["Id", "NAME"]) (some [1, 0]) [columnFilter "id"] plan := by
  refine ⟨_, rfl, (CachingTableCells.scan_matches_iff _ _ _ _ ?_ ?_).mpr
    (.inr (.inl ⟨?_, ⟨"NAME", (), true⟩, ?_, ?_⟩)) _ rfl⟩
  · rintro indices ⟨⟩
    decide
  · intro filter hf column hc
    obtain rfl := mem_singleton.mp hf
    obtain rfl : column = ⟨none, "id"⟩ := by
      simpa [scanFilterColumns, columnFilter] using hc
    exact ⟨⟨"id", (), true⟩, by decide, rfl⟩
  · rintro ⟨ht, -⟩
    cases ht
  · decide
  · decide

theorem mixedTable_scan_ne :
    (mixedTable ["Id"]).advertised.map name = ["id"] ∧
      ∃ plan, (mixedTable ["Id"]).scan none [columnFilter "id"] none = .ok plan ∧
        plan.schema.map name = ["Id"] ∧
        ∃ handed, plan.filters = [handed] ∧ scanFilterColumns handed = [⟨none, "id"⟩] ∧
          fieldIndex (mixedTable ["Id"]).table.schema "id" = none := by
  refine ⟨by decide, _, rfl, by decide, _, rfl, ?_, by decide⟩
  simp [scanFilterColumns, columnFilter]

end Rustice
