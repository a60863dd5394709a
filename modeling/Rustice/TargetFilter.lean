import Mathlib.Order.Bounds.Basic
import Rustice.MergeSink
import Rustice.PartitionSpec

/-!
# The Target Filter of MERGE

For each partition field of the source, `target_filter_expression` puts the bounds of the
partition values as a range filter on the target column of the same name.
-/

namespace Rustice

open List

variable {α σ τ K F : Type}

inductive IcebergValue (F : Type) where
  | boolean (b : Bool)
  | int (i : ℤ)
  | longInt (l : ℤ)
  | float (f : F)
  | double (d : F)
  | date (d : ℤ)
  | time (t : ℤ)
  | timestamp (ts : ℤ)
  | timestampTZ (ts : ℤ)
  | string (s : String)
  | uuid (text : String)
  | fixed (data : List UInt8)
  | binary (data : List UInt8)
  | decimal (text : String)
  | struct (debug : String)
  | list (debug : String)
  | map (debug : String)

inductive Literal (F : Type) where
  | boolean (b : Bool)
  | int32 (i : ℤ)
  | int64 (i : ℤ)
  | float32 (f : F)
  | float64 (f : F)
  | utf8 (s : String)
  | binary (data : List UInt8)

def valueToLiteral : IcebergValue F → Except MergeError (Literal F)
  | .boolean b => .ok (.boolean b)
  | .int i => .ok (.int32 i)
  | .longInt l => .ok (.int64 l)
  | .float f => .ok (.float32 f)
  | .double d => .ok (.float64 d)
  | .date d => .ok (.int32 d)
  | .time t => .ok (.int64 t)
  | .timestamp ts => .ok (.int64 ts)
  | .timestampTZ ts => .ok (.int64 ts)
  | .string s => .ok (.utf8 s)
  | .uuid text => .ok (.utf8 text)
  | .fixed data => .ok (.binary data)
  | .binary data => .ok (.binary data)
  | .decimal text => .ok (.utf8 text)
  | .struct debug => .error (.unsupportedIcebergValueType debug)
  | .list debug => .error (.unsupportedIcebergValueType debug)
  | .map debug => .error (.unsupportedIcebergValueType debug)

structure PartitionBounds (F : Type) where
  min : List (IcebergValue F)
  max : List (IcebergValue F)

structure BoundPartitionField where
  sourceName : String
  transform : Transform

structure Snapshot (F : Type) where
  partitionBounds : Except MergeError (Option (PartitionBounds F))
  partitionFields : Except MergeError (List BoundPartitionField)

inductive Tabular (F : Type) where
  | table (currentSnapshot : Except MergeError (Option (Snapshot F)))
  | other

def partitionColumnBounds (snapshot : Snapshot F) :
    Except MergeError (Option (List (Literal F × Literal F))) := do
  match ← snapshot.partitionBounds with
  | none => pure none
  | some bounds => do
    let bounds ← (bounds.min.zip bounds.max).mapM fun b => do
      let min ← valueToLiteral b.1
      let max ← valueToLiteral b.2
      pure (min, max)
    if bounds.isEmpty then pure none else pure (some bounds)

inductive FilterExpr (F : Type) where
  | gtEq (column : String) (bound : Literal F)
  | ltEq (column : String) (bound : Literal F)
  | and (left right : FilterExpr F)

def addRange (acc : Option (FilterExpr F))
    (item : BoundPartitionField × Literal F × Literal F) : Option (FilterExpr F) :=
  let expr := .and (.gtEq item.1.sourceName item.2.1) (.ltEq item.1.sourceName item.2.2)
  match acc with
  | some acc => some (.and acc expr)
  | none => some expr

def targetFilterExpression (tabular : Tabular F) :
    Except MergeError (Option (FilterExpr F)) :=
  match tabular with
  | .other => .error .mergeSourceNotSupported
  | .table currentSnapshot => do
    match ← currentSnapshot with
    | none => pure none
    | some snapshot => do
      match ← partitionColumnBounds snapshot with
      | none => pure none
      | some bounds => do
        let fields ← snapshot.partitionFields
        pure ((fields.zip bounds).foldl addRange none)

def TableSchema.column? (s : TableSchema τ) (name : String) : Option (Fin s.width) :=
  (List.finRange s.width).find? fun i => s.name i == name

section Eval

variable [LinearOrder K] (key : ScalarValue α → Option K) (litKey : Literal F → K)
  (s : TableSchema τ)

def columnKey (name : String) (t : TargetRow s.width α) : Option K :=
  (s.column? name).bind fun i => key (t.values i)

def FilterExpr.eval (t : TargetRow s.width α) : FilterExpr F → Truth
  | .gtEq column bound => (columnKey key s column t).map fun k => litKey bound ≤ k
  | .ltEq column bound => (columnKey key s column t).map fun k => k ≤ litKey bound
  | .and left right => Truth.and (left.eval t) (right.eval t)

def FilterExpr.columns : FilterExpr F → List String
  | .gtEq column _ => [column]
  | .ltEq column _ => [column]
  | .and left right => left.columns ++ right.columns

def scanWithFilters (filter : Option (FilterExpr F)) (target : List (TargetRow s.width α)) :
    Except MergeError (List (TargetRow s.width α)) :=
  match filter with
  | none => .ok target
  | some filter =>
    match filter.columns.find? fun name => (s.column? name).isNone with
    | some name => .error (.dataFusion ("No field named " ++ name))
    | none => .ok (target.filter fun t => filter.eval key litKey s t == some true)

end Eval

section Pass

variable [LinearOrder K] (key : ScalarValue α → Option K) (litKey : Literal F → K)
  (s : TableSchema τ)

def passes (filter : Option (FilterExpr F)) (t : TargetRow s.width α) : Bool :=
  match filter with
  | none => true
  | some filter => filter.eval key litKey s t == some true

def filterColumns (filter : Option (FilterExpr F)) : List String :=
  match filter with
  | none => []
  | some filter => filter.columns

lemma scanWithFilters_eq_ok_iff {f : Option (FilterExpr F)}
    {target rows : List (TargetRow s.width α)} : scanWithFilters key litKey s f target = .ok rows ↔
      (∀ nm ∈ filterColumns f, (s.column? nm).isSome = true) ∧
        rows = target.filter (passes key litKey s f) := by
  cases f with
  | none =>
    have ha : target.filter (passes key litKey s (none : Option (FilterExpr F))) =
        target := filter_true target
    rw [ha, scanWithFilters, Except.ok.injEq]
    exact ⟨fun h => ⟨by simp [filterColumns], h.symm⟩, fun h => h.2.symm⟩
  | some f =>
    rw [scanWithFilters, filterColumns]
    split
    case h_1 nm hf =>
      have hm := mem_of_find?_eq_some hf
      have hnon := find?_some hf
      refine ⟨fun h => (nomatch h), fun h => ?_⟩
      exact absurd (h.1 nm hm) (by simpa using hnon)
    case h_2 hf =>
      have ha : ∀ nm ∈ f.columns, (s.column? nm).isSome = true := by
        intro nm hn
        simpa [Option.isSome_iff_ne_none] using find?_eq_none.mp hf nm hn
      rw [Except.ok.injEq]
      exact ⟨fun h => ⟨ha, h.symm⟩, fun h => h.2.symm⟩

def InRange (t : TargetRow s.width α) (item : BoundPartitionField × Literal F × Literal F) :
    Prop :=
  ∃ k, columnKey key s item.1.sourceName t = some k ∧ litKey item.2.1 ≤ k ∧ k ≤ litKey item.2.2

lemma passes_addRange (acc : Option (FilterExpr F))
    (item : BoundPartitionField × Literal F × Literal F) (t : TargetRow s.width α) :
    passes key litKey s (addRange acc item) t = true ↔
      passes key litKey s acc t = true ∧ InRange key litKey s t item := by
  have hr : Truth.and
        ((columnKey key s item.1.sourceName t).map fun k => decide (litKey item.2.1 ≤ k))
        ((columnKey key s item.1.sourceName t).map fun k => decide (k ≤ litKey item.2.2)) =
          some true ↔ InRange key litKey s t item := by
    rw [InRange]
    rw [Truth.and_eq_true_iff]
    cases columnKey key s item.1.sourceName t with
    | none => simp
    | some k => simp
  cases acc with
  | none => simp [addRange, passes, FilterExpr.eval, hr]
  | some acc => simp [addRange, passes, FilterExpr.eval, hr, Truth.and_eq_true_iff]

lemma passes_foldl_addRange (t : TargetRow s.width α)
    (xs : List (BoundPartitionField × Literal F × Literal F)) (acc : Option (FilterExpr F)) :
    passes key litKey s (xs.foldl addRange acc) t = true ↔
      passes key litKey s acc t = true ∧ ∀ item ∈ xs, InRange key litKey s t item := by
  induction xs generalizing acc with
  | nil => simp
  | cons item xs ih => rw [foldl_cons, ih, passes_addRange, forall_mem_cons, and_assoc]

lemma mem_filterColumns_foldl_addRange (name : String)
    (xs : List (BoundPartitionField × Literal F × Literal F)) (acc : Option (FilterExpr F)) :
    name ∈ filterColumns (xs.foldl addRange acc) ↔
      name ∈ filterColumns acc ∨ ∃ x ∈ xs, x.1.sourceName = name := by
  induction xs generalizing acc with
  | nil => simp
  | cons x xs ih =>
    rw [foldl_cons, ih, exists_mem_cons_iff, ← or_assoc]
    refine or_congr_left ?_
    cases acc <;> simp [addRange, filterColumns, FilterExpr.columns, eq_comm]

end Pass

section Bounds

variable [LinearOrder K] (litKey : Literal F → K)
  (sourceValue : σ → String → Option (IcebergValue F))
  (applyTransform : Transform → IcebergValue F → Option (IcebergValue F))

def partitionValue (field : BoundPartitionField) (x : σ) : Option (IcebergValue F) :=
  (sourceValue x field.sourceName).bind (applyTransform field.transform)

def partitionKeys (source : List σ) (field : BoundPartitionField) : Set K :=
  {k | ∃ x ∈ source, ∃ v l, partitionValue sourceValue applyTransform field x = some v ∧
    valueToLiteral v = .ok l ∧ litKey l = k}

structure BoundsExact (source : List σ) (fields : List BoundPartitionField)
    (bounds : PartitionBounds F) : Prop where
  least : List.Forall₂ (fun field v => ∃ l, valueToLiteral v = .ok l ∧
    IsLeast (partitionKeys litKey sourceValue applyTransform source field) (litKey l))
    fields bounds.min
  greatest : List.Forall₂ (fun field v => ∃ l, valueToLiteral v = .ok l ∧
    IsGreatest (partitionKeys litKey sourceValue applyTransform source field) (litKey l))
    fields bounds.max

def TightLiterals (source : List σ) (fields : List BoundPartitionField)
    (lits : List (Literal F × Literal F)) : Prop :=
  List.Forall₂ (fun field b =>
    IsLeast (partitionKeys litKey sourceValue applyTransform source field) (litKey b.1) ∧
    IsGreatest (partitionKeys litKey sourceValue applyTransform source field) (litKey b.2))
    fields lits

variable {litKey sourceValue applyTransform} {src : List σ} {fields fs : List BoundPartitionField}

lemma TightLiterals.forall_mem_zip {ls : List (Literal F × Literal F)}
    (ha : TightLiterals litKey sourceValue applyTransform src fields ls)
    (p : BoundPartitionField → Prop) :
    (∀ x ∈ fields.zip ls, p x.1) ↔ ∀ field ∈ fields, p field := by
  have hfst : (fields.zip ls).map Prod.fst = fields :=
    map_fst_zip (List.Forall₂.length_eq ha).le
  conv_rhs => rw [← hfst]
  simp only [forall_mem_map]

lemma BoundsExact.literals {bs : PartitionBounds F}
    (h : BoundsExact litKey sourceValue applyTransform src fs bs) :
    ∃ lits, (bs.min.zip bs.max).mapM (fun b => do
        let min ← valueToLiteral b.1
        let max ← valueToLiteral b.2
        pure (min, max)) = .ok lits ∧
      TightLiterals litKey sourceValue applyTransform src fs lits := by
  obtain ⟨l, g⟩ := h
  obtain ⟨mins, ms⟩ := bs
  simp only at l g ⊢
  induction l generalizing ms with
  | nil => exact ⟨[], rfl, .nil⟩
  | cons hmin _ ih =>
    cases g with
    | cons hmax hm =>
      obtain ⟨lmn, hlmn, hl⟩ := hmin
      obtain ⟨lm, hlm, hg⟩ := hmax
      obtain ⟨lits, hlit, ha⟩ := ih _ hm
      refine ⟨(lmn, lm) :: lits, ?_, .cons ⟨hl, hg⟩ ha⟩
      rw [zip_cons_cons, mapM_cons, hlit]
      simp only [hlmn, hlm]
      rfl

lemma targetFilterExpression_of_exact {sn : Snapshot F} {bs : PartitionBounds F}
    (hf : sn.partitionFields = .ok fs) (hb : sn.partitionBounds = .ok (some bs))
    (he : BoundsExact litKey sourceValue applyTransform src fs bs) :
    ∃ lits, targetFilterExpression (.table (.ok (some sn))) =
        .ok ((fs.zip lits).foldl addRange none) ∧
      TightLiterals litKey sourceValue applyTransform src fs lits := by
  obtain ⟨lits, hl, ha⟩ := he.literals
  refine ⟨lits, ?_, ha⟩
  have hc : partitionColumnBounds sn = .ok (if lits.isEmpty then none else some lits) := by
    rw [partitionColumnBounds]
    rw [hb]
    refine bind_eq_ok.mpr ⟨some bs, rfl, bind_eq_ok.mpr ⟨lits, hl, ?_⟩⟩
    split <;> rfl
  refine bind_eq_ok.mpr ⟨some sn, rfl, bind_eq_ok.mpr ⟨_, hc, ?_⟩⟩
  cases lits with
  | nil =>
    simp only [isEmpty_nil, if_true, zip_nil_right]
    rfl
  | cons b lits => exact bind_eq_ok.mpr ⟨fs, hf, rfl⟩

end Bounds

section Sound

variable [LinearOrder K] (key : ScalarValue α → Option K) (litKey : Literal F → K)
  (s : TableSchema τ) (sourceValue : σ → String → Option (IcebergValue F))
  (applyTransform : Transform → IcebergValue F → Option (IcebergValue F))

/-- The **raw** values of a target row lie between **transformed** values of the source. -/
def WithinPartitions (source : List σ) (fields : List BoundPartitionField)
    (t : TargetRow s.width α) : Prop :=
  ∀ field ∈ fields, ∃ k, columnKey key s field.sourceName t = some k ∧
    (∃ lo ∈ partitionKeys litKey sourceValue applyTransform source field, lo ≤ k) ∧
    ∃ hi ∈ partitionKeys litKey sourceValue applyTransform source field, k ≤ hi

lemma inRange_iff_withinPartitions {src : List σ} {fs : List BoundPartitionField}
    {ls : List (Literal F × Literal F)} (t : TargetRow s.width α)
    (ha : TightLiterals litKey sourceValue applyTransform src fs ls) :
    (∀ x ∈ fs.zip ls, InRange key litKey s t x) ↔
      WithinPartitions key litKey s sourceValue applyTransform src fs t := by
  rw [WithinPartitions]
  induction ha with
  | nil => simp
  | cons hb _ ih =>
    obtain ⟨hl, hg⟩ := hb
    rw [zip_cons_cons, forall_mem_cons, forall_mem_cons, ih]
    refine and_congr_left' (exists_congr fun k => and_congr_right' (and_congr ?_ ?_))
    · exact ⟨fun h => ⟨_, hl.1, h⟩, fun ⟨_, hlo, h⟩ => (hl.2 hlo).trans h⟩
    · exact ⟨fun h => ⟨_, hg.1, h⟩, fun ⟨_, hh, h⟩ => h.trans (hg.2 hh)⟩

lemma scanWithFilters_of_exact {sn : Snapshot F}
    {fs : List BoundPartitionField} {bs : PartitionBounds F} {src : List σ}
    (hf : sn.partitionFields = .ok fs) (hb : sn.partitionBounds = .ok (some bs))
    (he : BoundsExact litKey sourceValue applyTransform src fs bs) :
    ∃ f, targetFilterExpression (.table (.ok (some sn))) = .ok f ∧
      (∀ t, passes key litKey s f t = true ↔
        WithinPartitions key litKey s sourceValue applyTransform src fs t) ∧
      ∀ tg rs, scanWithFilters key litKey s f tg = .ok rs ↔
        (∀ field ∈ fs, (s.column? field.sourceName).isSome = true) ∧
          rs = tg.filter (passes key litKey s f) := by
  obtain ⟨lits, hfil, ha⟩ := targetFilterExpression_of_exact hf hb he
  refine ⟨_, hfil, fun t => ?_, fun tg rs => ?_⟩
  · rw [passes_foldl_addRange,
      inRange_iff_withinPartitions key litKey s sourceValue applyTransform t ha]
    exact and_iff_right rfl
  · rw [scanWithFilters_eq_ok_iff,
      ← ha.forall_mem_zip (fun field => (s.column? field.sourceName).isSome = true)]
    refine and_congr_left' ?_
    simp only [mem_filterColumns_foldl_addRange]
    constructor
    · intro h x hi
      exact h _ (.inr ⟨x, hi, rfl⟩)
    · rintro h name (hn | ⟨x, hi, rfl⟩)
      · exact absurd hn not_mem_nil
      · exact h x hi

/-! ### Main result -/

/-- **The target filter is sound** exactly if joining rows lie within the partitions. -/
theorem target_filter_sound_iff (snapshot : Snapshot F)
    (fields : List BoundPartitionField) (bounds : PartitionBounds F) (source : List σ)
    (hfields : snapshot.partitionFields = .ok fields)
    (hbounds : snapshot.partitionBounds = .ok (some bounds))
    (hexact : BoundsExact litKey sourceValue applyTransform source fields bounds)
    (on : TargetRow s.width α → σ → Truth) (table : IcebergTable s.width α) :
    ∃ filter, targetFilterExpression (.table (.ok (some snapshot))) = .ok filter ∧
      ((∃ rows, scanWithFilters key litKey s filter table.scan = .ok rows ∧
          ∀ t ∈ table.scan, (∃ x ∈ source, on t x = some true) → t ∈ rows) ↔
        (∀ field ∈ fields, (s.column? field.sourceName).isSome = true) ∧
        ∀ t ∈ table.scan, (∃ x ∈ source, on t x = some true) →
          WithinPartitions key litKey s sourceValue applyTransform source fields t) ∧
      ((∃ rows, scanWithFilters key litKey s filter table.scan = .ok rows ∧
          (joinPlan on rows source).Perm (joinPlan on table.scan source)) ↔
        (∀ field ∈ fields, (s.column? field.sourceName).isSome = true) ∧
        ∀ f ∈ table.files, (∃ t ∈ f.scan, ∃ x ∈ source, on t x = some true) → ∀ t ∈ f.scan,
            WithinPartitions key litKey s sourceValue applyTransform source fields t) := by
  obtain ⟨filter, hfil, hpas, hs⟩ :=
    scanWithFilters_of_exact key litKey s sourceValue applyTransform hfields hbounds hexact
  simp only [← hpas, ← joins_eq_true_iff]
  refine ⟨filter, hfil, ?_, ?_⟩
  · constructor
    · rintro ⟨rows, hrow, hk⟩
      obtain ⟨hc, rfl⟩ := (hs _ _).mp hrow
      exact ⟨hc, fun t ht hx => of_mem_filter (hk t ht hx)⟩
    · rintro ⟨hc, hw⟩
      refine ⟨_, (hs _ _).mpr ⟨hc, rfl⟩, fun t ht hx => ?_⟩
      exact mem_filter.mpr ⟨ht, hw t ht hx⟩
  · -- the rows that are read again are those of the files with a match
    have hr : (∀ t ∈ restrictedTarget on table.scan source, passes key litKey s filter t = true) ↔
        ∀ f ∈ table.files, (∃ t ∈ f.scan, ∃ x ∈ source, joins on t x = true) →
          ∀ t ∈ f.scan, passes key litKey s filter t = true := by
      rw [restrictedTarget_scan]
      simp only [scanFiles, mem_flatMap, mem_filter]
      constructor
      · intro h f hf hx t ht
        exact h t ⟨f, ⟨hf, (table.affected_iff on source hf).mpr hx⟩, ht⟩
      · rintro h t ⟨f, ⟨hf, ha⟩, ht⟩
        exact h f hf ((table.affected_iff on source hf).mp ha) t ht
    rw [← hr, ← joinPlan_filter_perm_iff]
    constructor
    · rintro ⟨rows, hrow, hp⟩
      obtain ⟨hc, rfl⟩ := (hs _ _).mp hrow
      exact ⟨hc, hp⟩
    · rintro ⟨hc, hp⟩
      exact ⟨_, (hs _ _).mpr ⟨hc, rfl⟩, hp⟩

end Sound

def intKey : ScalarValue ℤ → Option ℤ
  | .other v => some v
  | _ => none

def intLitKey : Literal Unit → ℤ
  | .int32 i => i
  | .int64 i => i
  | _ => 0

def pairValue (x : ℤ × ℤ) : String → Option (IcebergValue Unit)
  | "a" => some (.int x.1)
  | "b" => some (.int x.2)
  | _ => none

def sampleTransform : Transform → IcebergValue Unit → Option (IcebergValue Unit)
  | .identity, v => some v
  | .year, .int d => some (.int (d / 365))
  | _, _ => none

def partitionedBy (field : BoundPartitionField) (lo hi : ℤ) : Snapshot Unit :=
  ⟨.ok (some ⟨[.int lo], [.int hi]⟩), .ok [field]⟩

def oneFileTable (rows : List (ℤ × ℤ)) : IcebergTable twoColumns.width ℤ where
  files := [⟨"f.parquet", "m.avro", rows.map fun r => ![.other r.1, .other r.2], parquet_path_ne⟩]
  nodup := by simp

def onColumnA (t : TargetRow twoColumns.width ℤ) (x : ℤ × ℤ) : Truth :=
  onFirstColumn t x.1

theorem target_filter_loses_rows :
    (∃ filter, targetFilterExpression (.table (.ok (some (partitionedBy ⟨"b", .identity⟩ 0 0)))) =
        .ok filter ∧
      (oneFileTable [(1, 9)]).scan.map (onColumnA · (1, 0)) = [some true] ∧
      scanWithFilters intKey intLitKey twoColumns filter (oneFileTable [(1, 9)]).scan = .ok []) ∧
    (∃ filter, targetFilterExpression (.table (.ok (some (partitionedBy ⟨"a", .year⟩ 2 2)))) =
        .ok filter ∧
      (oneFileTable [(1000, 0)]).scan.map (onColumnA · (1000, 0)) = [some true] ∧
      scanWithFilters intKey intLitKey twoColumns filter (oneFileTable [(1000, 0)]).scan = .ok []) ∧
    ∃ filter rows,
      targetFilterExpression (.table (.ok (some (partitionedBy ⟨"a", .identity⟩ 1 1)))) =
        .ok filter ∧
      scanWithFilters intKey intLitKey twoColumns filter
        (oneFileTable [(1, 0), (5, 0)]).scan = .ok rows ∧
      (joinPlan onColumnA rows [(1, 0)]).length = 1 ∧
      (joinPlan onColumnA (oneFileTable [(1, 0), (5, 0)]).scan [(1, 0)]).length = 2 :=
  ⟨⟨_, rfl, rfl, rfl⟩, ⟨_, rfl, rfl, rfl⟩, _, _, rfl, rfl, rfl, rfl⟩

theorem target_filter_sound_iff_on_column_b :
    BoundsExact intLitKey pairValue sampleTransform [(1, 0)] [⟨"b", .identity⟩]
        ⟨[.int 0], [.int 0]⟩ ∧
      ∃ filter, targetFilterExpression (.table (.ok (some (partitionedBy ⟨"b", .identity⟩ 0 0)))) =
          .ok filter ∧
        ((∃ rows, scanWithFilters intKey intLitKey twoColumns filter
              (oneFileTable [(1, 9)]).scan = .ok rows ∧
            ∀ t ∈ (oneFileTable [(1, 9)]).scan,
              (∃ x ∈ [(1, 0)], onColumnA t x = some true) → t ∈ rows) ↔
          (∀ field ∈ [(⟨"b", .identity⟩ : BoundPartitionField)],
            (twoColumns.column? field.sourceName).isSome = true) ∧
          ∀ t ∈ (oneFileTable [(1, 9)]).scan, (∃ x ∈ [(1, 0)], onColumnA t x = some true) →
              WithinPartitions intKey intLitKey twoColumns pairValue sampleTransform
                [(1, 0)] [⟨"b", .identity⟩] t) := by
  have hk : partitionKeys intLitKey pairValue sampleTransform [(1, 0)]
      ⟨"b", .identity⟩ = {0} := by
    ext k
    simp [partitionKeys, partitionValue, pairValue, sampleTransform, valueToLiteral,
      intLitKey, eq_comm]
  have he : BoundsExact intLitKey pairValue sampleTransform [(1, 0)]
      [⟨"b", .identity⟩] ⟨[.int 0], [.int 0]⟩ := by
    refine ⟨.cons ⟨.int32 0, rfl, ?_⟩ .nil, .cons ⟨.int32 0, rfl, ?_⟩ .nil⟩
    · rw [hk]
      exact isLeast_singleton
    · rw [hk]
      exact isGreatest_singleton
  obtain ⟨filter, hf, hs, -⟩ := target_filter_sound_iff intKey intLitKey twoColumns
    pairValue sampleTransform (partitionedBy ⟨"b", .identity⟩ 0 0) [⟨"b", .identity⟩]
    ⟨[.int 0], [.int 0]⟩ [(1, 0)] rfl rfl he onColumnA (oneFileTable [(1, 9)])
  exact ⟨he, filter, hf, hs⟩

end Rustice
