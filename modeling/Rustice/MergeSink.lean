import Mathlib.Data.List.AList
import Rustice.FirstMatch
import Rustice.MergePlan

/-!
# The Copy-on-Write Sink of MERGE

`MergeIntoCOWSinkExec` consumes the projected rows of the merge plan batch by batch.
-/

namespace Rustice

open List

variable {τ α σ : Type} {width wd : ℕ} {f : DataFile wd α} {prs : List FilePair}

structure OutputRow (width : ℕ) (α : Type) where
  column : TargetColumn width → ScalarValue α
  sourceExists : Truth
  mergeUpdated : Truth
  mergeInserted : Truth

def MergeProjection.row {s : TableSchema τ} (proj : MergeProjection s α σ)
    (row : MergeRow s.width α σ) : OutputRow s.width α where
  column c := proj.column c row
  sourceExists := proj.sourceExists row
  mergeUpdated := proj.mergeUpdated row
  mergeInserted := proj.mergeInserted row

def OutputRow.tableRow (row : OutputRow width α) : TableRow width α :=
  fun i => row.column (.table i)

/-- A slot of a `StringArray`, which has bytes for `NULL` as well. -/
structure StringSlot where
  valid : Bool
  bytes : String

def StringSlot.get? (slot : StringSlot) : Option String :=
  if slot.valid then some slot.bytes else none

lemma StringSlot.bytes_of_get? {sl : StringSlot} {v : String}
    (h : sl.get? = some v) : sl.bytes = v := by
  rw [StringSlot.get?] at h
  split at h
  · exact Option.some.inj h
  · exact absurd h (by simp)

def StringSlot.ofScalar : ScalarValue α → StringSlot
  | .utf8 s => ⟨true, s⟩
  | _ => ⟨false, ""⟩

open StringSlot

abbrev FilePair := StringSlot × StringSlot

abbrev FileMap := AList fun _ : String => String

abbrev ManifestAndDataFiles := AList fun _ : String => List String

/-- The body of the fold of `unique_files_and_manifests`. -/
def recordPair (acc : FileMap) (pair : FilePair) : FileMap :=
  match pair.2.get?, pair.1.get? with
  | some manifest, some file => if file.isEmpty then acc else acc.insert file manifest
  | _, _ => acc

def changedPairs (first : FilePair) (rest : List FilePair) : List FilePair :=
  (((first :: rest).zip rest).filter fun p => p.1.1.get? != p.2.1.get?).map Prod.snd

def uniqueFilesAndManifests : List FilePair → FileMap
  | [] => ∅
  | first :: rest =>
    let init : FileMap :=
      if first.1.bytes.isEmpty then ∅ else AList.insert first.1.bytes first.2.bytes ∅
    (changedPairs first rest).foldl recordPair init

/-- A map has recorded the files of a list of path values. -/
def TracksFiles (manifestOf : String → String) (m : FileMap)
    (files : List (Option String)) : Prop :=
  ∀ f mn, m.lookup f = some mn ↔ (f ≠ "" ∧ some f ∈ files) ∧ mn = manifestOf f

def FilePair.Consistent (manifestOf : String → String) (pair : FilePair) : Prop :=
  (∀ f, pair.1.get? = some f → pair.2.get? = some (manifestOf f)) ∧
    (pair.1.get? = none → pair.1.bytes = "")

section Tracks

variable {mo : String → String} {fs : List (Option String)} {m : FileMap}

lemma tracksFiles_nil : TracksFiles mo ∅ [] := by
  intro file manifest
  simp

lemma TracksFiles.congr {fs fs' : List (Option String)}
    (h : TracksFiles mo m fs) (hf : ∀ f, f ∈ fs ↔ f ∈ fs') : TracksFiles mo m fs' := by
  intro fl mn
  rw [h fl mn, hf]

lemma TracksFiles.insert {fl : String}
    (h : TracksFiles mo m fs) (hne : fl ≠ "") : TracksFiles mo (AList.insert fl (mo fl) m)
      (fs ++ [some fl]) := by
  intro f g
  by_cases hf : f = fl
  · subst hf
    simp [hne, eq_comm]
  · rw [AList.lookup_insert_ne hf, h f g]
    simp [hf]

lemma TracksFiles.skip {v : Option String}
    (h : TracksFiles mo m fs) (hv : ∀ f, v = some f → f = "") : TracksFiles mo m (fs ++ [v]) := by
  intro f g
  rw [h f g, mem_append, mem_singleton]
  constructor
  · rintro ⟨⟨hne, hm⟩, hg⟩
    exact ⟨⟨hne, .inl hm⟩, hg⟩
  · rintro ⟨⟨hne, hm | hm⟩, hg⟩
    · exact ⟨⟨hne, hm⟩, hg⟩
    · exact absurd (hv f hm.symm) hne

lemma TracksFiles.union {m₁ m₂ : FileMap} {fi fl : List (Option String)}
    (h₁ : TracksFiles mo m₁ fi) (h₂ : TracksFiles mo m₂ fl) :
    TracksFiles mo (m₂ ∪ m₁) (fi ++ fl) := by
  intro f g
  rw [← Option.mem_def, AList.mem_lookup_union, Option.mem_def, Option.mem_def, h₁ f g,
    h₂ f g, mem_append, ← AList.lookup_eq_none, Option.eq_none_iff_forall_ne_some]
  constructor
  · rintro (⟨⟨hne, hm⟩, hg⟩ | ⟨-, ⟨hne, hm⟩, hg⟩)
    · exact ⟨⟨hne, .inr hm⟩, hg⟩
    · exact ⟨⟨hne, .inl hm⟩, hg⟩
  · rintro ⟨⟨hne, hm⟩, hg⟩
    by_cases h₂mem : some f ∈ fl
    · exact .inl ⟨⟨hne, h₂mem⟩, hg⟩
    · refine .inr ⟨fun g' hg' => h₂mem ((h₂ f g').mp hg').1.2, ⟨hne, ?_⟩, hg⟩
      exact hm.resolve_right h₂mem

lemma TracksFiles.recordPair {pr : FilePair} (h : TracksFiles mo m fs) (hp : pr.Consistent mo) :
    TracksFiles mo (recordPair m pr) (fs ++ [pr.1.get?]) := by
  rw [Rustice.recordPair]
  cases hfil : pr.1.get? with
  | none =>
    have hs := h.skip (v := none) (by simp)
    cases pr.2.get? <;> exact hs
  | some fl =>
    rw [hp.1 fl hfil]
    by_cases he : fl.isEmpty = true
    · simp only [he, if_true]
      exact h.skip fun f hf => by
        obtain rfl := Option.some.inj hf
        exact String.isEmpty_iff.mp he
    · simp only [he]
      exact h.insert fun hne => he (String.isEmpty_iff.mpr hne)

lemma TracksFiles.foldl_recordPair (hp : ∀ pr ∈ prs, pr.Consistent mo) :
    ∀ {m : FileMap} {fs : List (Option String)}, TracksFiles mo m fs →
      TracksFiles mo (prs.foldl Rustice.recordPair m) (fs ++ prs.map fun pr => pr.1.get?) := by
  induction prs with
  | nil =>
    intro m fs h
    simpa using h
  | cons pr prs ih =>
    intro m fs h
    have hr := ih (fun q hq => hp q (mem_cons_of_mem _ hq)) (h.recordPair (hp pr mem_cons_self))
    simpa [append_assoc] using hr

end Tracks

lemma mem_changedPairs (v : Option String) (rest : List FilePair) (a : FilePair) :
    v ∈ a.1.get? :: (changedPairs a rest).map (fun pr => pr.1.get?) ↔
      v ∈ (a :: rest).map fun pr => pr.1.get? := by
  induction rest generalizing a with
  | nil => simp [changedPairs]
  | cons r rest ih =>
    have hs : changedPairs a (r :: rest) =
        (if a.1.get? != r.1.get? then [r] else []) ++ changedPairs r rest := by
      simp only [changedPairs]
      rw [zip_cons_cons, filter_cons]
      split <;> simp
    have hr := ih r
    rw [hs, map_append, map_cons, mem_cons, mem_cons, ← hr]
    by_cases hne : a.1.get? = r.1.get?
    · simp [hne]
    · simp [hne]

lemma tracks_uniqueFilesAndManifests {manifestOf : String → String}
    (hb : ∀ pr ∈ prs, pr.Consistent manifestOf) :
    TracksFiles manifestOf (uniqueFilesAndManifests prs) (prs.map fun pr => pr.1.get?) := by
  cases prs with
  | nil => exact tracksFiles_nil
  | cons a r =>
    have hfir := hb a mem_cons_self
    -- reading the bytes of the first slot agrees with reading its value
    have hi : TracksFiles manifestOf
        (if a.1.bytes.isEmpty then ∅ else AList.insert a.1.bytes a.2.bytes ∅)
        ([] ++ [a.1.get?]) := by
      cases hfil : a.1.get? with
      | none =>
        rw [hfir.2 hfil]
        exact tracksFiles_nil.skip (by simp)
      | some fl =>
        rw [bytes_of_get? hfil, bytes_of_get? (hfir.1 fl hfil)]
        by_cases he : fl.isEmpty = true
        · simp only [he, if_true]
          exact tracksFiles_nil.skip fun f hf => by
            obtain rfl := Option.some.inj hf
            exact String.isEmpty_iff.mp he
        · simp only [he]
          exact tracksFiles_nil.insert fun hne => he (String.isEmpty_iff.mpr hne)
    have hc : ∀ pr ∈ changedPairs a r, pr.Consistent manifestOf := by
      intro pr hp
      obtain ⟨q, hq, rfl⟩ := mem_map.mp hp
      have hm := (of_mem_zip (mem_of_mem_filter hq)).2
      exact hb _ (mem_cons_of_mem _ hm)
    exact (hi.foldl_recordPair hc).congr fun v => mem_changedPairs v r a

def countTrueAndValid (markers : List Truth) : ℕ :=
  markers.countP fun marker => marker == some true

structure StreamState (width : ℕ) (α : Type) where
  matchingFiles : FileMap
  updatedRows : ℕ
  insertedRows : ℕ
  written : List (TableRow width α)

def StreamState.init : StreamState width α := ⟨∅, 0, 0, []⟩

def OutputRow.filePair (row : OutputRow width α) : FilePair :=
  (.ofScalar (row.column .dataFilePath), .ofScalar (row.column .manifestFilePath))

def StreamState.pollNext (st : StreamState width α) (batch : List (OutputRow width α)) :
    StreamState width α where
  matchingFiles := uniqueFilesAndManifests (batch.map (·.filePair)) ∪ st.matchingFiles
  updatedRows := st.updatedRows + countTrueAndValid (batch.map (·.mergeUpdated))
  insertedRows := st.insertedRows + countTrueAndValid (batch.map (·.mergeInserted))
  written := st.written ++ batch.map (·.tableRow)

def runStream (batches : List (List (OutputRow width α))) : StreamState width α :=
  batches.foldl StreamState.pollNext .init

def pushFile (grouped : ManifestAndDataFiles) (file manifest : String) :
    ManifestAndDataFiles :=
  grouped.insert manifest ((grouped.lookup manifest).getD [] ++ [file])

def groupByManifest (files : FileMap) : ManifestAndDataFiles :=
  files.entries.foldl (fun grouped e => pushFile grouped e.1 e.2) ∅

structure ParquetWriter (width : ℕ) (α : Type) where
  write : List String → List (TableRow width α) → List (DataFile width α)
  rows_perm : ∀ used rows, ((write used rows).flatMap DataFile.rows).Perm rows
  nodup : ∀ used rows, ((write used rows).map DataFile.path).Nodup
  fresh : ∀ used rows, ∀ f ∈ write used rows, f.path ∉ used

def IcebergTable.commit (table : IcebergTable width α) (dropped : DataFile width α → Bool)
    (datafiles : List (DataFile width α)) (hnodup : (datafiles.map DataFile.path).Nodup)
    (hfresh : ∀ f ∈ datafiles, f.path ∉ table.files.map DataFile.path) :
    IcebergTable width α where
  files := (table.files.filter fun f => !dropped f) ++ datafiles
  nodup := by
    rw [map_append, nodup_append]
    refine ⟨table.nodup.sublist (filter_sublist.map _), hnodup, ?_⟩
    rintro path hpath _ hnew rfl
    obtain ⟨f, hf, rfl⟩ := mem_map.mp hnew
    exact hfresh f hf ((filter_sublist.map _).subset hpath)

def ManifestAndDataFiles.drops (matching : ManifestAndDataFiles) (f : DataFile width α) :
    Bool :=
  f.path ∈ (matching.lookup f.manifest).getD []

/-- The write transaction of `execute`. -/
def commitMerge (writer : ParquetWriter width α) (table : IcebergTable width α)
    (st : StreamState width α) : IcebergTable width α :=
  let used := table.files.map DataFile.path
  let datafiles := writer.write used st.written
  let matching := groupByManifest st.matchingFiles
  if datafiles.isEmpty then table
  else if matching.entries.isEmpty then
    table.commit (fun _ => false) datafiles (writer.nodup _ _) (writer.fresh _ _)
  else table.commit matching.drops datafiles (writer.nodup _ _) (writer.fresh _ _)

def resultSchema (hasInsert hasUpdate hasDelete : Bool) : List String :=
  let fields :=
    (if hasInsert then ["number of rows inserted"] else []) ++
    (if hasUpdate then ["number of rows updated"] else []) ++
    (if hasDelete then ["number of rows deleted"] else [])
  if fields.isEmpty then ["number of rows updated"] else fields

def resultValue (inserted updated deleted : ℕ) (name : String) : Except String ℕ :=
  match name with
  | "number of rows inserted" => .ok inserted
  | "number of rows updated" => .ok updated
  | "number of rows deleted" => .ok deleted
  | other => .error ("Unexpected MERGE result column: " ++ other)

def mergeSchema {Sql : Type} (clauses : List (MergeClause Sql)) : List String :=
  resultSchema
    (clauses.any fun c => match c.action with | .insert _ _ => true | _ => false)
    (clauses.any fun c => match c.action with | .update _ => true | _ => false)
    (clauses.any fun c => match c.action with | .delete => true | _ => false)

structure MergeOutcome (width : ℕ) (α : Type) where
  table : IcebergTable width α
  result : Except String (List ℕ)

def execute (writer : ParquetWriter width α) (schema : List String)
    (table : IcebergTable width α) (batches : List (List (OutputRow width α))) :
    MergeOutcome width α :=
  let st := runStream batches
  ⟨commitMerge writer table st, schema.mapM (resultValue st.insertedRows st.updatedRows 0)⟩

def filePaths (rows : List (OutputRow width α)) : List (Option String) :=
  rows.map fun row => row.filePair.1.get?

lemma runStream_written (bs : List (List (OutputRow wd α))) :
    (runStream bs).written = bs.flatten.map (·.tableRow) := by
  have hrun : ∀ (bs : List (List (OutputRow wd α))) (st : StreamState wd α),
      (bs.foldl StreamState.pollNext st).written = st.written ++ bs.flatten.map (·.tableRow) := by
    intro bs
    induction bs with
    | nil =>
      intro st
      simp
    | cons batch bs ih =>
      intro st
      rw [foldl_cons, ih, flatten_cons, map_append, ← append_assoc]
      rfl
  exact hrun bs .init

lemma tracks_runStream {manifestOf : String → String} {bs : List (List (OutputRow wd α))}
    (hb : ∀ r ∈ bs.flatten, r.filePair.Consistent manifestOf) :
    TracksFiles manifestOf (runStream bs).matchingFiles (filePaths bs.flatten) := by
  have hrun : ∀ (bs : List (List (OutputRow wd α)))
      (_ : ∀ r ∈ bs.flatten, r.filePair.Consistent manifestOf)
      (st : StreamState wd α) (fs : List (Option String)),
      TracksFiles manifestOf st.matchingFiles fs →
      TracksFiles manifestOf (bs.foldl StreamState.pollNext st).matchingFiles
        (fs ++ filePaths bs.flatten) := by
    intro bs
    induction bs with
    | nil =>
      intro _ st fs h
      simpa [filePaths] using h
    | cons b bs ih =>
      intro hb st fs h
      rw [flatten_cons] at hb
      have hbat : ∀ pr ∈ b.map (·.filePair), pr.Consistent manifestOf := by
        intro pr hp
        obtain ⟨r, hr, rfl⟩ := mem_map.mp hp
        exact hb r (mem_append_left _ hr)
      have hpol : TracksFiles manifestOf (st.pollNext b).matchingFiles
          (fs ++ filePaths b) := by
        have hu := h.union (tracks_uniqueFilesAndManifests hbat)
        rwa [map_map] at hu
      have hres := ih (fun r hr => hb r (mem_append_right _ hr)) _ _ hpol
      rw [foldl_cons, flatten_cons]
      simpa [filePaths, append_assoc] using hres
  exact hrun bs hb .init [] tracksFiles_nil

lemma lookup_pushFile (g : ManifestAndDataFiles) (f m k : String) :
    ((pushFile g f m).lookup k).getD [] = (g.lookup k).getD [] ++ if k = m then [f] else [] := by
  rw [pushFile]
  by_cases h : k = m
  · subst h
    simp
  · rw [AList.lookup_insert_ne h, if_neg h, append_nil]

lemma mem_groupByManifest {fs : FileMap} {fl manifest : String} :
    fl ∈ ((groupByManifest fs).lookup manifest).getD [] ↔ fs.lookup fl = some manifest := by
  have hf : ∀ (entries : List (Sigma fun _ : String => String))
      (gr : ManifestAndDataFiles),
      fl ∈ ((entries.foldl (fun g e => pushFile g e.1 e.2) gr).lookup
          manifest).getD [] ↔
        fl ∈ (gr.lookup manifest).getD [] ∨ ⟨fl, manifest⟩ ∈ entries := by
    intro entries
    induction entries with
    | nil =>
      intro gr
      simp
    | cons e entries ih =>
      intro gr
      obtain ⟨f, g⟩ := e
      rw [foldl_cons, ih, lookup_pushFile, mem_append, mem_cons, or_assoc]
      refine or_congr_right (or_congr_left ?_)
      by_cases hg : manifest = g
      · subst hg
        simp
      · simp [hg]
  rw [groupByManifest]
  rw [hf, ← Option.mem_def, AList.mem_lookup_iff]
  simp

lemma drops_iff {fs : FileMap} :
    (groupByManifest fs).drops f = true ↔ fs.lookup f.path = some f.manifest := by
  rw [ManifestAndDataFiles.drops]
  rw [decide_eq_true_eq, mem_groupByManifest]

lemma commitMerge_rows_perm (w : ParquetWriter wd α)
    (tb : IcebergTable wd α) (st : StreamState wd α)
    (he : st.written = [] → ∀ f ∈ tb.files, (groupByManifest st.matchingFiles).drops f = false) :
    (commitMerge w tb st).rows.Perm ((tb.files.filter fun f =>
          !(groupByManifest st.matchingFiles).drops f).flatMap DataFile.rows ++ st.written) := by
  have hr := w.rows_perm (tb.files.map DataFile.path) st.written
  unfold commitMerge IcebergTable.rows
  simp only
  split
  case isTrue hn =>
    rw [List.isEmpty_iff] at hn
    have hw : st.written = [] := by simpa [hn] using hr
    have hkee : tb.files.filter
        (fun f => !(groupByManifest st.matchingFiles).drops f) = tb.files := by
      rw [filter_eq_self]
      intro f hf
      simp [he hw f hf]
    rw [hkee, hw, append_nil]
  case isFalse =>
    split
    case isTrue hn =>
      have hd : ∀ f : DataFile wd α, (groupByManifest st.matchingFiles).drops f = false := by
        intro f
        have hl : (groupByManifest st.matchingFiles).lookup f.manifest = none := by
          rw [AList.lookup_eq_none, AList.mem_keys, AList.keys, List.isEmpty_iff.mp hn]
          simp
        simp [ManifestAndDataFiles.drops, hl]
      simp only [IcebergTable.commit, flatMap_append, hd]
      exact hr.append_left _
    case isFalse =>
      simp only [IcebergTable.commit, flatMap_append]
      exact hr.append_left _

section Merge

variable [DecidableEq τ] (cs : τ → ScalarValue α → ScalarValue α) (s : TableSchema τ)

def LeavesPathColumns {ρ : Type} (ps : List (PlannedClause τ ρ α)) : Prop :=
  ∀ p ∈ ps, p.gives dataFilePathColumn = none ∧ p.gives manifestFilePathColumn = none

def IcebergTable.manifestOf (table : IcebergTable width α) (path : String) : String :=
  ((table.files.find? fun f => f.path == path).map DataFile.manifest).getD ""

omit [DecidableEq τ] in
lemma IcebergTable.manifestOf_path (tb : IcebergTable wd α)
    (hf : f ∈ tb.files) : tb.manifestOf f.path = f.manifest := by
  rw [IcebergTable.manifestOf]
  cases hfin : tb.files.find? fun g => g.path == f.path with
  | none => exact absurd hf fun hf => by simpa using find?_eq_none.mp hfin f hf
  | some g =>
    have hpath : g.path = f.path := by simpa using find?_some hfin
    rw [tb.eq_of_path_eq (mem_of_find?_eq_some hfin) hf hpath]
    rfl

variable {ps : List (PlannedClause τ (MergeRow s.width α σ) α)}
  (hk : ∀ p ∈ ps, p.WellKinded) (hpath : LeavesPathColumns ps)

include hk hpath

lemma filePair_row (r : MergeRow s.width α σ) :
    ((projectionOf cs s ps).row r).filePair = match r.left? with
      | some t => (⟨true, t.dataFilePath⟩, ⟨true, t.manifestFilePath⟩)
      | none => (⟨false, ""⟩, ⟨false, ""⟩) := by
  have hf := column_unnamed cs s hk (c := .dataFilePath)
    (fun p hp => (hpath p hp).1) r
  have hm := column_unnamed cs s hk (c := .manifestFilePath) (fun p hp => (hpath p hp).2) r
  simp only [OutputRow.filePair, MergeProjection.row, hf, hm]
  cases r <;> rfl

variable (on : TargetRow s.width α → σ → Truth)
  (tb : IcebergTable s.width α) (source : List σ) {bs : List (List (OutputRow s.width α))}

lemma filePair_consistent {r : MergeRow s.width α σ} (hr : r ∈ joinPlan on tb.scan source) :
    ((projectionOf cs s ps).row r).filePair.Consistent tb.manifestOf := by
  rw [filePair_row cs s hk hpath]
  cases hl : r.left? with
  | none => exact ⟨by simp [get?], fun _ => rfl⟩
  | some t =>
    have ht : t ∈ restrictedTarget on tb.scan source :=
      exists_left?_mem_fullJoin.mp ⟨r, hr, hl⟩
    rw [restrictedTarget_eq_filter] at ht
    obtain ⟨f, hf, htf⟩ := mem_flatMap.mp (mem_of_mem_filter ht)
    obtain ⟨hfil, hm⟩ := DataFile.mem_scan htf
    refine ⟨fun file hge => ?_, fun hge => by simp [get?] at hge⟩
    obtain rfl : t.dataFilePath = file := by simpa [get?] using hge
    rw [hfil, tb.manifestOf_path hf]
    simp [get?, hm]

lemma some_mem_filePaths_iff (f : DataFile s.width α) : some f.path ∈ filePaths
      ((joinPlan on tb.scan source).map (projectionOf cs s ps).row) ↔
    f.affected on tb.scan source = true := by
  have hs : ∀ r : MergeRow s.width α σ,
      ((projectionOf cs s ps).row r).filePair.1.get? = r.left?.map TargetRow.dataFilePath := by
    intro r
    rw [filePair_row cs s hk hpath]
    cases r.left? <;> rfl
  have hm : some f.path ∈ filePaths
        ((joinPlan on tb.scan source).map (projectionOf cs s ps).row) ↔
      ∃ t ∈ restrictedTarget on tb.scan source, t.dataFilePath = f.path := by
    simp only [filePaths, map_map, mem_map, Function.comp_apply, hs, Option.map_eq_some_iff]
    constructor
    · rintro ⟨r, hr, t, hl, ht⟩
      exact ⟨t, exists_left?_mem_fullJoin.mp ⟨r, hr, hl⟩, ht⟩
    · rintro ⟨t, ht, hpath⟩
      obtain ⟨r, hr, hl⟩ := exists_left?_mem_fullJoin.mpr ht
      exact ⟨r, hr, t, hl, hpath⟩
  rw [hm, restrictedTarget_eq_filter, DataFile.affected, decide_eq_true_eq]
  constructor
  · rintro ⟨t, ht, hpath⟩
    rw [← hpath]
    simpa using of_mem_filter ht
  · intro ha
    obtain ⟨t, ht, hpath, -⟩ := mem_affectedFiles.mp ha
    exact ⟨t, mem_filter.mpr ⟨ht, by simpa [hpath] using ha⟩, hpath⟩

lemma drops_eq_affected (hb : bs.flatten.Perm
      ((joinPlan on tb.scan source).map (projectionOf cs s ps).row))
    {f : DataFile s.width α} (hf : f ∈ tb.files) :
    (groupByManifest (runStream bs).matchingFiles).drops f = f.affected on tb.scan source := by
  have hc : ∀ r ∈ bs.flatten, r.filePair.Consistent tb.manifestOf := by
    intro r hr
    obtain ⟨j, hj, rfl⟩ := mem_map.mp (hb.mem_iff.mp hr)
    exact filePair_consistent cs s hk hpath on tb source hj
  have hp : some f.path ∈ filePaths bs.flatten ↔ some f.path ∈ filePaths
        ((joinPlan on tb.scan source).map (projectionOf cs s ps).row) :=
    (hb.map _).mem_iff
  rw [Bool.eq_iff_iff, drops_iff, tracks_runStream hc f.path f.manifest, hp,
    some_mem_filePaths_iff cs s hk hpath on tb source f]
  simp [f.path_ne, tb.manifestOf_path hf]

lemma execute_rows_perm (w : ParquetWriter s.width α) (sc : List String) (hb : bs.flatten.Perm
      ((joinPlan on tb.scan source).map (projectionOf cs s ps).row)) :
    (execute w sc tb bs).table.rows.Perm ((fullJoin on tb.scan source).map fun r =>
        ((projectionOf cs s ps).row r).tableRow) := by
  have hd := fun f hf => drops_eq_affected cs s hk hpath on tb source hb (f := f) hf
  have he : (runStream bs).written = [] → ∀ f ∈ tb.files,
      (groupByManifest (runStream bs).matchingFiles).drops f = false := by
    intro hnil f hf
    rw [runStream_written, map_eq_nil_iff] at hnil
    rw [hnil] at hb
    have hp := hb.nil_eq
    rw [hd f hf, ← Bool.not_eq_true, ← some_mem_filePaths_iff cs s hk hpath on tb source f, ← hp]
    simp [filePaths]
  have hkep : tb.files.filter
        (fun f => !(groupByManifest (runStream bs).matchingFiles).drops f) =
      tb.files.filter fun f => !f.affected on tb.scan source :=
    filter_congr fun f hf => by rw [hd f hf]
  have hu : ∀ fs : List (DataFile s.width α),
      fs.flatMap DataFile.rows = ((scanFiles fs).map .left).map fun r =>
        ((projectionOf cs s ps).row r).tableRow := by
    intro fs
    have hl : ∀ t : TargetRow s.width α,
        ((projectionOf cs s ps).row (.left t)).tableRow = t.values :=
      fun t => funext fun i => column_left cs s hk (.table i) t
    simp [scanFiles, DataFile.scan, map_flatMap, hl, Function.comp_def]
  have hw : (runStream bs).written.Perm
      ((joinPlan on tb.scan source).map fun r =>
        ((projectionOf cs s ps).row r).tableRow) := by
    rw [runStream_written]
    have hmap := hb.map (·.tableRow)
    rw [map_map] at hmap
    exact hmap
  have hj := (fullJoin_scan_perm on tb source).map fun r =>
    ((projectionOf cs s ps).row r).tableRow
  rw [map_append, ← hu, ← hkep] at hj
  refine (commitMerge_rows_perm w tb _ he).trans ?_
  refine (hw.append_left _).trans ?_
  exact perm_append_comm.trans hj.symm

end Merge

def PlannedClause.isInsert {ρ : Type} (p : PlannedClause τ ρ α) : Bool :=
  match p.action with
  | .insert _ => true
  | _ => false

def inserts (ps : List (PlannedClause τ (MergeRow width α σ) α)) (x : σ) : Bool :=
  ps.any fun p => p.isInsert && p.holds (.right x)

section Conservation

variable [DecidableEq τ] (cast : τ → ScalarValue α → ScalarValue α) (s : TableSchema τ)

/-! ### Main result -/

/-- **Rows are conserved** exactly if some clause takes every source row that joins with none. -/
theorem merge_row_conservation_iff {Sql : Type}
    (planner : SqlPlanner Sql τ (MergeRow s.width α σ) α) (clauses : List (MergeClause Sql))
    (hs : ∀ clause ∈ clauses, clause.Supported)
    (ps : List (PlannedClause τ (MergeRow s.width α σ) α))
    (hps : clauses.mapM (planClause planner) = .ok ps) (hpath : LeavesPathColumns ps)
    (on : TargetRow s.width α → σ → Truth) (table : IcebergTable s.width α)
    (source : List σ) (hone : ∀ t ∈ table.scan, (partners on source t).length ≤ 1)
    (writer : ParquetWriter s.width α) :
    ∃ proj, mergeClauseProjection cast s planner clauses = .ok proj ∧
      ∀ batches : List (List (OutputRow s.width α)),
        batches.flatten.Perm ((joinPlan on table.scan source).map proj.row) →
        ((execute writer (mergeSchema clauses) table batches).table.rows.Perm
            (table.scan.map (fun t => (proj.row (leftRow on source t)).tableRow) ++
              ((unmatchedRight on table.scan source).filter (inserts ps)).map
                fun x => (proj.row (.right x)).tableRow) ↔
          ∀ x ∈ unmatchedRight on table.scan source,
            ∃ p ∈ ps, p.isInsert = true ∧ p.op (.right x) = some true) := by
  refine ⟨projectionOf cast s ps, mergeClauseProjection_of_mapM cast s planner hps, ?_⟩
  intro batches hb
  have hk := mapM_planClause_wellKinded hps hs
  have hr := execute_rows_perm cast s hk hpath on table source writer
    (mergeSchema clauses) hb
  rw [fullJoin, flatMap_leftRows_eq_map hone, map_append, map_map, map_map] at hr
  have hi : ∀ x, inserts ps x = true ↔
      ∃ p ∈ ps, p.isInsert = true ∧ p.op (.right x) = some true := by
    intro x
    simp [inserts, PlannedClause.holds_iff]
  simp only [← hi]
  constructor
  · intro hp x hx
    -- both lists have the rows of the target, so the filter drops no source row
    have hlen := (hr.symm.trans hp).length_eq
    simp only [length_append, length_map, Nat.add_left_cancel_iff] at hlen
    exact length_filter_eq_length_iff.mp hlen.symm x hx
  · intro ha
    rw [filter_eq_self.mpr ha]
    exact hr

end Conservation

def freshPath (used : List String) : String :=
  used.foldl (· ++ ·) "data-"

lemma length_le_foldl_append (u : List String) (b : String) :
    b.length ≤ (u.foldl (· ++ ·) b).length ∧
      ∀ pt ∈ u, pt.length + b.length ≤ (u.foldl (· ++ ·) b).length := by
  induction u generalizing b with
  | nil => simp
  | cons p u ih =>
    obtain ⟨hb, hu⟩ := ih (b ++ p)
    rw [String.length_append] at hb hu
    rw [foldl_cons]
    refine ⟨by omega, fun pt hpath => ?_⟩
    rcases mem_cons.mp hpath with rfl | hpath
    · omega
    · have := hu pt hpath
      omega

lemma freshPath_notMem (used : List String) : freshPath used ∉ used := by
  intro hm
  have := (length_le_foldl_append used "data-").2 _ hm
  simp only [freshPath] at this
  have hpos : "data-".length = 5 := rfl
  omega

def singleFileWriter : ParquetWriter width α where
  write used rows := [⟨freshPath used, "manifest-new", rows, by
    intro h
    have := (length_le_foldl_append used "data-").1
    rw [freshPath] at h
    rw [h] at this
    exact absurd this (by decide)⟩]
  rows_perm used rows := by simp
  nodup used rows := by simp
  fresh used rows f hf := by
    obtain rfl := mem_singleton.mp hf
    exact freshPath_notMem used

lemma parquet_path_ne : "f.parquet" ≠ "" := by decide

def oneRowTable : IcebergTable twoColumns.width ℤ where
  files := [⟨"f.parquet", "m.avro", [![.other 1, .other 0]], parquet_path_ne⟩]
  nodup := by decide

def onFirstColumn (t : TargetRow twoColumns.width ℤ) (x : ℤ) : Truth :=
  match t.values (0 : Fin 2) with
  | .other v => some (v == x)
  | _ => none

theorem merge_invents_row_without_insert_clause :
    ∃ ps proj, partialUpdates.mapM (planClause literalPlanner) = .ok ps ∧
      mergeClauseProjection (fun _ v => v) twoColumns literalPlanner partialUpdates = .ok proj ∧
      (unmatchedRight onFirstColumn oneRowTable.scan [2]).filter (inserts ps) = [] ∧
      oneRowTable.rows.map (fun r => (r (0 : Fin 2), r (1 : Fin 2))) = [(.other 1, .other 0)] ∧
      (execute singleFileWriter (mergeSchema partialUpdates) oneRowTable
          [(joinPlan onFirstColumn oneRowTable.scan [2]).map proj.row]).table.rows.map
          (fun r => (r (0 : Fin 2), r (1 : Fin 2))) =
        [(.other 1, .other 0), (.null, .null)] :=
  ⟨_, _, rfl, rfl, rfl, rfl, rfl⟩

theorem merge_row_conservation_on_partial_inserts :
    ∃ ps, partialInserts.mapM (planClause literalPlanner) = .ok ps ∧
      ∃ proj, mergeClauseProjection (fun _ v => v) twoColumns literalPlanner
          partialInserts = .ok proj ∧
        ∀ batches : List (List (OutputRow twoColumns.width ℤ)), batches.flatten.Perm
            ((joinPlan onFirstColumn oneRowTable.scan [2]).map proj.row) →
          ((execute singleFileWriter (mergeSchema partialInserts) oneRowTable
              batches).table.rows.Perm
            (oneRowTable.scan.map
                (fun t => (proj.row (leftRow onFirstColumn [2] t)).tableRow) ++
              ((unmatchedRight onFirstColumn oneRowTable.scan [2]).filter
                  (inserts ps)).map fun x => (proj.row (.right x)).tableRow) ↔
            ∀ x ∈ unmatchedRight onFirstColumn oneRowTable.scan [2],
              ∃ p ∈ ps, p.isInsert = true ∧ p.op (.right x) = some true) := by
  refine ⟨_, rfl, merge_row_conservation_iff (fun _ v => v) twoColumns literalPlanner
    partialInserts ?_ _ rfl ?_ onFirstColumn oneRowTable [2] ?_ singleFileWriter⟩
  · simp [partialInserts, MergeClause.Supported]
  · intro p hp
    rcases mem_cons.mp hp with rfl | hp
    · exact ⟨rfl, rfl⟩
    · obtain rfl := mem_singleton.mp hp
      exact ⟨rfl, rfl⟩
  · intro t ht
    obtain rfl := mem_singleton.mp ht
    decide

end Rustice
