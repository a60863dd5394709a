import Rustice.MergeClause

/-!
# The Plan of a MERGE Statement

`merge_to_logical_plan` joins the target and the source twice.
-/

namespace Rustice

open List

variable {α σ : Type} {width : ℕ}

abbrev TableRow (width : ℕ) (α : Type) := Fin width → ScalarValue α

structure DataFile (width : ℕ) (α : Type) where
  path : String
  manifest : String
  rows : List (TableRow width α)
  path_ne : path ≠ ""

structure IcebergTable (width : ℕ) (α : Type) where
  files : List (DataFile width α)
  nodup : (files.map DataFile.path).Nodup

def DataFile.scan (f : DataFile width α) : List (TargetRow width α) :=
  f.rows.map fun values => ⟨f.path, f.manifest, values⟩

def scanFiles (files : List (DataFile width α)) : List (TargetRow width α) :=
  files.flatMap DataFile.scan

def IcebergTable.scan (table : IcebergTable width α) : List (TargetRow width α) :=
  scanFiles table.files

def IcebergTable.rows (table : IcebergTable width α) : List (TableRow width α) :=
  table.files.flatMap DataFile.rows

variable {f : DataFile width α} {t : TargetRow width α}

lemma DataFile.mem_scan
    (h : t ∈ f.scan) : t.dataFilePath = f.path ∧ t.manifestFilePath = f.manifest := by
  obtain ⟨values, -, rfl⟩ := mem_map.mp h
  exact ⟨rfl, rfl⟩

lemma IcebergTable.eq_of_path_eq (tb : IcebergTable width α) {g : DataFile width α}
    (hf : f ∈ tb.files) (hg : g ∈ tb.files) (h : f.path = g.path) : f = g :=
  inj_on_of_nodup_map tb.nodup hf hg h

lemma filter_scanFiles (p : String → Bool) (fs : List (DataFile width α)) :
    (scanFiles fs).filter (fun t => p t.dataFilePath) =
      scanFiles (fs.filter fun f => p f.path) := by
  simp only [scanFiles]
  induction fs with
  | nil => rfl
  | cons f fs ih =>
    rw [flatMap_cons, filter_append, ih]
    have hf : f.scan.filter (fun t => p t.dataFilePath) = f.scan.filter fun _ => p f.path :=
      filter_congr fun t ht => by rw [(DataFile.mem_scan ht).1]
    cases hp : p f.path <;> simp [hf, hp]

section Plan

variable (on : TargetRow width α → σ → Truth)

def affectedFiles (target : List (TargetRow width α)) (source : List σ) : List String :=
  ((innerJoin on target source).map fun p => p.1.dataFilePath).dedup

def restrictedTarget (target : List (TargetRow width α)) (source : List σ) :
    List (TargetRow width α) :=
  leftSemiJoin (fun t path => some (t.dataFilePath == path)) target
    (affectedFiles on target source)

def joinPlan (target : List (TargetRow width α)) (source : List σ) :
    List (MergeRow width α σ) :=
  fullJoin on (restrictedTarget on target source) source

def DataFile.affected (f : DataFile width α) (target : List (TargetRow width α))
    (source : List σ) : Bool :=
  f.path ∈ affectedFiles on target source

end Plan

variable {on : TargetRow width α → σ → Truth} {tg : List (TargetRow width α)}

lemma mem_affectedFiles {s : List σ} {pt : String} :
    pt ∈ affectedFiles on tg s ↔ ∃ t ∈ tg, t.dataFilePath = pt ∧ ∃ x ∈ s, joins on t x = true := by
  rw [affectedFiles]
  rw [mem_dedup, mem_map]
  constructor
  · rintro ⟨p, hp, r⟩
    obtain ⟨ht, hx, hj⟩ := mem_innerJoin.mp hp
    exact ⟨p.1, ht, r, p.2, hx, hj⟩
  · rintro ⟨t, ht, r, x, hx, hj⟩
    exact ⟨(t, x), mem_innerJoin.mpr ⟨ht, hx, hj⟩, r⟩

lemma restrictedTarget_eq_filter (tg : List (TargetRow width α)) (source : List σ) :
    restrictedTarget on tg source =
      tg.filter fun t => t.dataFilePath ∈ affectedFiles on tg source := by
  rw [restrictedTarget, leftSemiJoin]
  refine filter_congr fun t _ => ?_
  rw [Bool.eq_iff_iff, any_eq_true, decide_eq_true_eq]
  constructor
  · rintro ⟨path, hp, hj⟩
    obtain rfl : t.dataFilePath = path := by simpa [joins] using hj
    exact hp
  · intro h
    exact ⟨t.dataFilePath, h, by simp [joins]⟩

lemma joins_eq_false_of_notMem_affectedFiles {s : List σ} (ht : t ∈ tg)
    (h : t.dataFilePath ∉ affectedFiles on tg s) : ∀ x ∈ s, joins on t x = false := by
  intro x hx
  by_contra hj
  exact h (mem_affectedFiles.mpr ⟨t, ht, rfl, x, hx, by simpa using hj⟩)

lemma joinPlan_filter_perm_iff {source : List σ} (p : TargetRow width α → Bool) :
    (joinPlan on (tg.filter p) source).Perm (joinPlan on tg source) ↔
      ∀ t ∈ restrictedTarget on tg source, p t = true := by
  constructor
  · intro hper t ht
    obtain ⟨j, hj, hl⟩ := exists_left?_mem_fullJoin.mpr ht
    have ht' : t ∈ restrictedTarget on (tg.filter p) source :=
      exists_left?_mem_fullJoin.mp ⟨j, hper.mem_iff.mpr hj, hl⟩
    rw [restrictedTarget_eq_filter] at ht'
    exact of_mem_filter (mem_of_mem_filter ht')
  · intro hk
    have hpt : ∀ pt, pt ∈ affectedFiles on (tg.filter p) source ↔
        pt ∈ affectedFiles on tg source := by
      intro pt
      rw [mem_affectedFiles]
      constructor
      · rintro ⟨t, ht, hpa, hx⟩
        exact mem_affectedFiles.mpr ⟨t, mem_of_mem_filter ht, hpa, hx⟩
      · intro ha
        obtain ⟨t, ht, hpa, hx⟩ := mem_affectedFiles.mp ha
        have hp : p t = true := by
          refine hk t ?_
          rw [restrictedTarget_eq_filter, mem_filter]
          exact ⟨ht, by simpa [hpa] using ha⟩
        exact ⟨t, mem_filter.mpr ⟨ht, hp⟩, hpa, hx⟩
    have hr : restrictedTarget on (tg.filter p) source = restrictedTarget on tg source := by
      simp only [restrictedTarget_eq_filter, filter_filter, hpt]
      refine filter_congr fun t ht => ?_
      by_cases ha : t.dataFilePath ∈ affectedFiles on tg source
      · have hp := hk t (by
          rw [restrictedTarget_eq_filter, mem_filter]
          exact ⟨ht, by simpa using ha⟩)
        simp [ha, hp]
      · simp [ha]
    simp only [joinPlan]
    rw [hr]

variable (on) (table tb : IcebergTable width α) (source s : List σ)

lemma IcebergTable.affected_iff (hf : f ∈ tb.files) : f.affected on tb.scan s = true ↔
    ∃ t ∈ f.scan, ∃ x ∈ s, joins on t x = true := by
  rw [DataFile.affected]
  rw [decide_eq_true_eq, mem_affectedFiles]
  constructor
  · rintro ⟨t, ht, hp, x, hx, hj⟩
    obtain ⟨g, hg, htg⟩ := mem_flatMap.mp ht
    obtain rfl : g = f :=
      tb.eq_of_path_eq hg hf ((DataFile.mem_scan htg).1.symm.trans hp)
    exact ⟨t, htg, x, hx, hj⟩
  · rintro ⟨t, ht, x, hx, hj⟩
    exact ⟨t, mem_flatMap.mpr ⟨f, hf, ht⟩, (DataFile.mem_scan ht).1, x, hx, hj⟩

lemma restrictedTarget_scan : restrictedTarget on tb.scan s =
    scanFiles (tb.files.filter fun f => f.affected on tb.scan s) := by
  rw [restrictedTarget_eq_filter]
  exact filter_scanFiles (fun p => p ∈ affectedFiles on tb.scan s) _

lemma fullJoin_scan_perm : (fullJoin on tb.scan s).Perm (joinPlan on tb.scan s ++
      (scanFiles (tb.files.filter fun f => !f.affected on tb.scan s)).map .left) := by
  have hpr : (fullJoin on tb.scan s).Perm _ :=
    fullJoin_perm_filter (fun t => t.dataFilePath ∈ affectedFiles on tb.scan s)
      fun t ht hp => joins_eq_false_of_notMem_affectedFiles ht (by simpa using hp)
  have hr := filter_scanFiles (fun p => !decide (p ∈ affectedFiles on tb.scan s)) tb.files
  rw [joinPlan]
  rw [restrictedTarget_eq_filter]
  simp only [DataFile.affected]
  rw [← hr]
  exact hpr

/-! ### Main result -/

/-- **Affected-file pruning is exact**: the files that are read again are those with a joining row.
-/
theorem affected_file_pruning_exact :
    (∀ f ∈ table.files, f.affected on table.scan source = true ↔
      ∃ t ∈ f.scan, ∃ x ∈ source, on t x = some true) ∧
    restrictedTarget on table.scan source =
      scanFiles (table.files.filter fun f => f.affected on table.scan source) ∧
    (fullJoin on table.scan source).Perm
      (joinPlan on table.scan source ++ (scanFiles (table.files.filter fun f =>
          !f.affected on table.scan source)).map .left) := by
  refine ⟨fun f hf => ?_, restrictedTarget_scan on table source, ?_⟩
  · rw [table.affected_iff on source hf]
    simp only [joins_eq_true_iff]
  · exact fullJoin_scan_perm on table source

end Rustice
