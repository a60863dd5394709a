import Rustice.MergeSink
import Rustice.StringMap

/-!
# The Record Batches of the MERGE Stream

`MergeCOWCountAndProjectStream` works on Arrow arrays.
-/

namespace Rustice

open List Option AList

variable {τ α σ : Type} {width : ℕ} {b : List FilePair} {f m : String} (fs : FileMap)

structure BooleanArray where
  values : List Bool
  nulls : Option (List Bool)
  length_nulls : ∀ valid ∈ nulls, valid.length = values.length

namespace BooleanArray

def logical (arr : BooleanArray) : List Truth :=
  match arr.nulls with
  | none => arr.values.map some
  | some valid => List.zipWith (fun bit ok => if ok then some bit else none) arr.values valid

def nullCount (arr : BooleanArray) : ℕ :=
  match arr.nulls with
  | none => 0
  | some valid => valid.count false

def countTrueAndValid (arr : BooleanArray) : ℕ :=
  if arr.nullCount = 0 then arr.values.count true
  else
    match arr.nulls with
    | some valid => (List.zipWith (· && ·) arr.values valid).count true
    | none => arr.values.count true

end BooleanArray

lemma count_true_zipWith_and (vs v : List Bool) : (List.zipWith (· && ·) vs v).count true =
    Rustice.countTrueAndValid (List.zipWith (fun b ok => if ok then some b else none) vs v) := by
  rw [Rustice.countTrueAndValid]
  induction vs generalizing v with
  | nil => rfl
  | cons b vs ih =>
    cases v with
    | nil => rfl
    | cons ok v =>
      rw [zipWith_cons_cons, zipWith_cons_cons, count_cons, countP_cons, ih]
      cases b <;> cases ok <;> rfl

lemma zipWith_and_of_count_false {values v : List Bool}
    (hlen : v.length = values.length) (h : v.count false = 0) :
    List.zipWith (· && ·) values v = values := by
  induction values generalizing v with
  | nil => rfl
  | cons bit values ih =>
    cases v with
    | nil => cases hlen
    | cons ok v =>
      rw [count_eq_zero, mem_cons, not_or] at h
      have ho : ok = true := by simpa using h.1
      rw [zipWith_cons_cons, ih (Nat.succ.inj hlen) (count_eq_zero.mpr h.2), ho, Bool.and_true]

lemma BooleanArray.countTrueAndValid_eq (a : BooleanArray) :
    a.countTrueAndValid = Rustice.countTrueAndValid a.logical := by
  rw [BooleanArray.countTrueAndValid, logical]
  cases hn : a.nulls with
  | none =>
    rw [Rustice.countTrueAndValid, countP_map]
    exact ite_self _
  | some v =>
    rw [← count_true_zipWith_and]
    by_cases hz : a.nullCount = 0
    · have hc : v.count false = 0 := by simpa [nullCount, hn] using hz
      rw [if_pos hz, zipWith_and_of_count_false (a.length_nulls v hn) hc]
    · rw [if_neg hz]

structure MergeBatch (width : ℕ) (α : Type) where
  paths : List FilePair
  mergeUpdated : BooleanArray
  mergeInserted : BooleanArray
  tableRows : List (TableRow width α)

def StreamState.pollBatch (st : StreamState width α) (batch : MergeBatch width α) :
    StreamState width α where
  matchingFiles := uniqueFilesAndManifests batch.paths ∪ st.matchingFiles
  updatedRows := st.updatedRows + batch.mergeUpdated.countTrueAndValid
  insertedRows := st.insertedRows + batch.mergeInserted.countTrueAndValid
  written := st.written ++ batch.tableRows

open StreamState

def runBatches (batches : List (MergeBatch width α)) : StreamState width α :=
  batches.foldl pollBatch .init

/-- A record batch holds some rows: its slots have their values. -/
structure MergeBatch.Represents (batch : MergeBatch width α) (rows : List (OutputRow width α)) :
    Prop where
  paths : batch.paths.map (fun pair => (pair.1.get?, pair.2.get?)) =
    rows.map fun row => (row.filePair.1.get?, row.filePair.2.get?)
  mergeUpdated : batch.mergeUpdated.logical = rows.map (·.mergeUpdated)
  mergeInserted : batch.mergeInserted.logical = rows.map (·.mergeInserted)
  tableRows : batch.tableRows = rows.map (·.tableRow)

lemma runBatches_counts {bs : List (MergeBatch width α)} {rs : List (List (OutputRow width α))}
    (h : List.Forall₂ MergeBatch.Represents bs rs) :
    (runBatches bs).updatedRows = (runStream rs).updatedRows ∧
      (runBatches bs).insertedRows = (runStream rs).insertedRows ∧
      (runBatches bs).written = (runStream rs).written := by
  have hrun : ∀ st st' : StreamState width α, st.updatedRows = st'.updatedRows →
      st.insertedRows = st'.insertedRows → st.written = st'.written →
      (bs.foldl pollBatch st).updatedRows = (rs.foldl pollNext st').updatedRows ∧
        (bs.foldl pollBatch st).insertedRows = (rs.foldl pollNext st').insertedRows ∧
        (bs.foldl pollBatch st).written = (rs.foldl pollNext st').written := by
    induction h with
    | nil => exact fun _ _ hu hi hw => ⟨hu, hi, hw⟩
    | cons hb _ ih =>
      intro st st' hu hi hw
      refine ih _ _ ?_ ?_ ?_
      · simp only [pollBatch, pollNext, hu, BooleanArray.countTrueAndValid_eq, hb.mergeUpdated]
      · simp only [pollBatch, pollNext, hi, BooleanArray.countTrueAndValid_eq, hb.mergeInserted]
      · simp only [pollBatch, pollNext, hw, hb.tableRows]
  exact hrun .init .init rfl rfl rfl

lemma runStream_counts (rs : List (List (OutputRow width α))) : (runStream rs).updatedRows =
      rs.flatten.countP (fun row => row.mergeUpdated == some true) ∧ (runStream rs).insertedRows =
      rs.flatten.countP (fun row => row.mergeInserted == some true) := by
  have hrun : ∀ st : StreamState width α, (rs.foldl pollNext st).updatedRows = st.updatedRows +
          rs.flatten.countP (fun row => row.mergeUpdated == some true) ∧
        (rs.foldl pollNext st).insertedRows = st.insertedRows +
          rs.flatten.countP (fun row => row.mergeInserted == some true) := by
    induction rs with
    | nil => exact fun st => ⟨rfl, rfl⟩
    | cons b rs ih =>
      intro st
      obtain ⟨hu, hi⟩ := ih (st.pollNext b)
      rw [foldl_cons, hu, hi, flatten_cons, countP_append, countP_append]
      simp only [pollNext, countTrueAndValid, countP_map, Function.comp_def,
        Nat.add_assoc, and_self]
  have hin := hrun .init
  simpa [runStream, init] using hin

def MergeClauseKind.holds : MergeClauseKind → MergeRow width α σ → Bool
  | .matched, .both _ _ => true
  | .notMatched, .right _ => true
  | .notMatchedByTarget, .right _ => true
  | .notMatchedBySource, .left _ => true
  | _, _ => false

def MergeClause.applies {Sql : Type} (planner : SqlPlanner Sql τ (MergeRow width α σ) α)
    (clause : MergeClause Sql) (row : MergeRow width α σ) : Bool :=
  clause.clauseKind.holds row &&
    match clause.predicate with
    | none => true
    | some predicate =>
      match planner.toCondition predicate with
      | .ok condition => condition row == some true
      | .error _ => false

def MergeClause.isUpdate {Sql : Type} (clause : MergeClause Sql) : Bool :=
  match clause.action with
  | .update _ => true
  | _ => false

def MergeClause.isInsert {Sql : Type} (clause : MergeClause Sql) : Bool :=
  match clause.action with
  | .insert _ _ => true
  | _ => false

def PlannedClause.isUpdate {ρ : Type} (p : PlannedClause τ ρ α) : Bool :=
  match p.action with
  | .update _ => true
  | _ => false

open PlannedClause

section Applies

variable {Sql : Type} {pl : SqlPlanner Sql τ (MergeRow width α σ) α}
  {op : MergeRow width α σ → Truth} {cl : MergeClause Sql}

lemma mergeClauseExpression_eq_true_iff {k : MergeClauseKind} (h : mergeClauseExpression k = .ok op)
    (r : MergeRow width α σ) : op r = some true ↔ k.holds r = true := by
  cases k with
  | notMatchedBySource => cases h
  | matched =>
    obtain rfl := Except.ok.inj h
    cases r <;> simp [MergeClauseKind.holds, MergeRow.targetExists, MergeRow.sourceExists,
      Truth.and]
  | notMatched =>
    obtain rfl := Except.ok.inj h
    cases r <;> simp [MergeClauseKind.holds, MergeRow.targetExists]
  | notMatchedByTarget =>
    obtain rfl := Except.ok.inj h
    cases r <;> simp [MergeClauseKind.holds, MergeRow.targetExists]

lemma clauseCondition_eq_true_iff (h : clauseCondition pl cl = .ok op)
    (r : MergeRow width α σ) : op r = some true ↔ cl.applies pl r = true := by
  obtain ⟨kind, hk, h⟩ := bind_eq_ok.mp h
  rw [MergeClause.applies, Bool.and_eq_true, ← mergeClauseExpression_eq_true_iff hk r]
  cases hp : cl.predicate with
  | none =>
    rw [hp] at h
    obtain rfl := pure_eq_ok.mp h
    simp
  | some predicate =>
    rw [hp] at h
    obtain ⟨condition, hc, h⟩ := bind_eq_ok.mp h
    obtain rfl := pure_eq_ok.mp h
    rw [Truth.and_eq_true_iff]
    simp [hc]

lemma planClause_applies
    {p : PlannedClause τ (MergeRow width α σ) α} (h : planClause pl cl = .ok p) :
    p.isUpdate = cl.isUpdate ∧ p.isInsert = cl.isInsert ∧
      ∀ row, p.holds row = cl.applies pl row := by
  obtain ⟨ho, ha⟩ := planClause_inv h
  have hh : ∀ row, p.holds row = cl.applies pl row := by
    intro row
    rw [Bool.eq_iff_iff, holds_iff, clauseCondition_eq_true_iff ho row]
  refine ⟨?_, ?_, hh⟩
  · rw [isUpdate, MergeClause.isUpdate]
    cases hc : cl.action <;> cases hp : p.action <;> simp [hc, hp] at ha ⊢
  · rw [isInsert, MergeClause.isInsert]
    cases hc : cl.action <;> cases hp : p.action <;> simp [hc, hp] at ha ⊢

end Applies

open ClauseState

section Markers

variable {ρ : Type}

lemma ops_foldl (s : TableSchema τ) (ps : List (PlannedClause τ ρ α)) (st : ClauseState τ ρ α) :
    (ps.foldl (add s) st).updatedOps = st.updatedOps ++ (ps.filter (·.isUpdate)).map (·.op) ∧
      (ps.foldl (add s) st).insertedOps =
        st.insertedOps ++ (ps.filter (·.isInsert)).map (·.op) := by
  induction ps generalizing st with
  | nil => simp
  | cons p ps ih =>
    obtain ⟨hu, hi⟩ := ih (st.add s p)
    rw [foldl_cons, hu, hi]
    cases hp : p.action with
    | update as => simp [add, isUpdate, isInsert, hp]
    | insert cols => simp [add, isUpdate, isInsert, hp]
    | delete => simp [add, isUpdate, isInsert, hp]

lemma marker_eq_true_iff (k : PlannedClause τ ρ α → Bool) (ps : List (PlannedClause τ ρ α))
    (r : ρ) : (((ps.filter k).map (·.op)).map (· r)).foldl Truth.or (some false) = some true ↔
      ps.any (fun p => k p && p.holds r) = true := by
  rw [Truth.foldl_or_eq_true_iff]
  simp only [List.mem_map, mem_filter, List.any_eq_true, Bool.and_eq_true, holds_iff]
  constructor
  · rintro (h | ⟨_, ⟨p, ⟨hm, hk⟩, rfl⟩, ht⟩)
    · cases h
    · exact ⟨p, hm, hk, ht⟩
  · rintro ⟨p, hm, hk, ht⟩
    exact .inr ⟨p.op, ⟨p, ⟨hm, hk⟩, rfl⟩, ht⟩

variable [DecidableEq τ] (cast : τ → ScalarValue α → ScalarValue α) (s : TableSchema τ)

lemma projectionOf_markers (ps : List (PlannedClause τ (MergeRow s.width α σ) α))
    (r : MergeRow s.width α σ) : (((projectionOf cast s ps).row r).mergeUpdated == some true) =
        ps.any (fun p => p.isUpdate && p.holds r) ∧
      (((projectionOf cast s ps).row r).mergeInserted == some true) =
        ps.any (fun p => p.isInsert && p.holds r) := by
  obtain ⟨hu, hi⟩ := ops_foldl s ps (ClauseState.init : ClauseState τ (MergeRow s.width α σ) α)
  simp only [ClauseState.init, nil_append] at hu hi
  constructor
  · rw [Bool.eq_iff_iff, beq_iff_eq, ← marker_eq_true_iff]
    simp only [MergeProjection.row, projectionOf, projection, ClauseState.init, hu]
  · rw [Bool.eq_iff_iff, beq_iff_eq, ← marker_eq_true_iff]
    simp only [MergeProjection.row, projectionOf, projection, ClauseState.init, hi]

omit [DecidableEq τ] in
lemma any_planned_eq {pl : SqlPlanner ρ τ (MergeRow s.width α σ) α}
    {c : List (MergeClause ρ)} {ps : List (PlannedClause τ (MergeRow s.width α σ) α)}
    (hps : c.mapM (planClause pl) = .ok ps) (r : MergeRow s.width α σ) :
    ps.any (fun p => p.isUpdate && p.holds r) = c.any (fun cl => cl.isUpdate && cl.applies pl r) ∧
      ps.any (fun p => p.isInsert && p.holds r) =
        c.any (fun cl => cl.isInsert && cl.applies pl r) := by
  have ha := mapM_eq_ok_iff.mp hps
  clear hps
  induction ha with
  | nil => exact ⟨rfl, rfl⟩
  | cons hp _ ih =>
    obtain ⟨hu, hi, hh⟩ := planClause_applies hp
    simp only [any_cons, hu, hi, hh, ih.1, ih.2, and_self]

/-! ### Main results -/

/-- **The reported counts** are the numbers of rows to which an UPDATE, or an INSERT, applies. -/
theorem counts_eq_countP_applies {Sql : Type}
    (planner : SqlPlanner Sql τ (MergeRow s.width α σ) α) (clauses : List (MergeClause Sql))
    (proj : MergeProjection s α σ)
    (hproj : mergeClauseProjection cast s planner clauses = .ok proj)
    (joined : List (List (MergeRow s.width α σ))) (batches : List (MergeBatch s.width α))
    (hb : List.Forall₂ MergeBatch.Represents batches (joined.map fun rows => rows.map proj.row)) :
    (runBatches batches).updatedRows = joined.flatten.countP (fun row =>
        clauses.any fun clause => clause.isUpdate && clause.applies planner row) ∧
      (runBatches batches).insertedRows = joined.flatten.countP (fun row =>
        clauses.any fun clause => clause.isInsert && clause.applies planner row) := by
  obtain ⟨ps, hps⟩ := exists_mapM_of_mergeClauseProjection cast s planner hproj
  obtain rfl : projectionOf cast s ps = proj :=
    Except.ok.inj ((mergeClauseProjection_of_mapM cast s planner hps).symm.trans hproj)
  obtain ⟨hu, hi, -⟩ := runBatches_counts hb
  obtain ⟨hcu, hc⟩ := runStream_counts (joined.map fun rows =>
    rows.map (projectionOf cast s ps).row)
  have hf : (joined.map fun rows => rows.map (projectionOf cast s ps).row).flatten =
      joined.flatten.map (projectionOf cast s ps).row := map_flatten.symm
  rw [hf, countP_map] at hcu hc
  rw [hu, hi, hcu, hc]
  constructor
  · refine countP_congr fun row _ => ?_
    rw [Function.comp_apply, (projectionOf_markers cast s ps row).1, (any_planned_eq s hps row).1]
  · refine countP_congr fun row _ => ?_
    rw [Function.comp_apply, (projectionOf_markers cast s ps row).2, (any_planned_eq s hps row).2]

end Markers

def markedBatch (proj : MergeProjection twoColumns ℤ ℤ) : MergeBatch twoColumns.width ℤ where
  paths := [(⟨true, "f.parquet"⟩, ⟨true, "m.avro"⟩), (⟨false, ""⟩, ⟨false, ""⟩)]
  mergeUpdated := ⟨[true, true], some [true, false], fun _ h => by cases h; rfl⟩
  mergeInserted := ⟨[false, false], none, fun _ h => by cases h⟩
  tableRows := [(proj.row (.both zeroRow 7)).tableRow, (proj.row (.right 7)).tableRow]

theorem counts_of_partialUpdates :
    ∃ proj, mergeClauseProjection (fun _ v => v) twoColumns literalPlanner partialUpdates =
      .ok proj ∧
      (runBatches [markedBatch proj]).updatedRows =
        ([[.both zeroRow 7, .right 7]] : List (List (MergeRow twoColumns.width ℤ ℤ))).flatten.countP
          (fun row => partialUpdates.any fun clause =>
            clause.isUpdate && clause.applies literalPlanner row) ∧
      (runBatches [markedBatch proj]).updatedRows = 1 :=
  ⟨_, rfl, (counts_eq_countP_applies (fun _ v => v) twoColumns literalPlanner partialUpdates _ rfl
    [[.both zeroRow 7, .right 7]] [markedBatch _] (.cons ⟨rfl, rfl, rfl, rfl⟩ .nil)).1, rfl⟩

def pathValues (batch : List FilePair) : List (Option String) :=
  batch.map fun pair => pair.1.get?

def FilePair.NamesManifest (manifestOf : String → String) (pair : FilePair) : Prop :=
  ∀ f, pair.1.get? = some f → f ≠ "" → pair.2.get? = some (manifestOf f)

/-- What `value(0)` reads off a batch that starts with a `NULL` file path. -/
def strayPair : List FilePair → Option (String × String)
  | (⟨false, file⟩, manifest) :: _ => if file = "" then none else some (file, manifest.bytes)
  | _ => none

section Files

variable {manifestOf mo : String → String}

lemma lookup_recordPair {p : FilePair} (hp : p.NamesManifest mo) (m : FileMap) (file : String) :
    (recordPair m p).lookup file =
      if file ≠ "" ∧ p.1.get? = some file then some (mo file) else m.lookup file := by
  rw [recordPair]
  cases hget : p.1.get? with
  | none => cases p.2.get? <;> simp
  | some f =>
    by_cases he : f = ""
    · subst he
      have hs : ¬(file ≠ "" ∧ some "" = some file) := fun h => h.1 (some.inj h.2).symm
      rw [if_neg hs]
      cases p.2.get? <;> rfl
    · have hie : f.isEmpty = false := by
        rw [← Bool.not_eq_true, String.isEmpty_iff]
        exact he
      rw [hp f hget he]
      simp only [hie, Bool.false_eq_true, if_false]
      by_cases hf : file = f
      · subst hf
        simp [he]
      · have hne : ¬(file ≠ "" ∧ some f = some file) := fun h =>
          hf (some.inj h.2).symm
        rw [lookup_insert_ne hf, if_neg hne]

lemma lookup_foldl_recordPair (hp : ∀ p ∈ b, p.NamesManifest mo) (m : FileMap) (file : String) :
    (b.foldl recordPair m).lookup file = if file ≠ "" ∧ some file ∈ pathValues b then some (mo file)
      else m.lookup file := by
  induction b generalizing m with
  | nil => simp [pathValues]
  | cons p b ih =>
    rw [forall_mem_cons] at hp
    rw [foldl_cons, ih hp.2, lookup_recordPair hp.1]
    by_cases hr : file ≠ "" ∧ some file ∈ pathValues b
    · have hm : file ≠ "" ∧ some file ∈ pathValues (p :: b) :=
        ⟨hr.1, mem_cons_of_mem _ hr.2⟩
      rw [if_pos hr, if_pos hm]
    · rw [if_neg hr]
      refine if_congr ?_ rfl rfl
      rw [not_and] at hr
      refine and_congr_right fun hne => ?_
      rw [pathValues, map_cons, mem_cons, ← pathValues, eq_comm]
      exact (or_iff_left (hr hne)).symm

lemma lookup_first (bys m f : String) :
    (if bys.isEmpty then ∅ else AList.insert bys m ∅ : FileMap).lookup f =
      if f ≠ "" ∧ bys = f then some m else none := by
  by_cases he : bys = ""
  · subst he
    have hn : ¬(f ≠ "" ∧ "" = f) := fun h => h.1 h.2.symm
    rw [if_neg hn]
    rfl
  · rw [if_neg (String.isEmpty_iff.not.mpr he)]
    by_cases hf : f = bys
    · subst hf
      rw [lookup_insert, if_pos ⟨he, rfl⟩]
    · rw [lookup_insert_ne hf, if_neg fun h => hf h.2.symm]
      rfl

lemma lookup_uniqueFilesAndManifests (hb : ∀ p ∈ b, p.NamesManifest manifestOf) (f m : String) :
    (uniqueFilesAndManifests b).lookup f = some m ↔
      (f ≠ "" ∧ some f ∈ pathValues b ∧ m = manifestOf f) ∨
        (some f ∉ pathValues b ∧ strayPair b = some (f, m)) := by
  cases b with
  | nil => simp [uniqueFilesAndManifests, pathValues, strayPair]
  | cons a r =>
    have hc : ∀ p ∈ changedPairs a r, p.NamesManifest manifestOf := by
      intro p hp
      obtain ⟨q, hq, rfl⟩ := List.mem_map.mp hp
      have hmm := (of_mem_zip (mem_of_mem_filter hq)).2
      exact hb _ (mem_cons_of_mem _ hmm)
    have hmm : some f ∈ pathValues (a :: r) ↔
        a.1.get? = some f ∨ some f ∈ pathValues (changedPairs a r) := by
      rw [pathValues, ← mem_changedPairs, mem_cons, eq_comm]
      rfl
    have hf := hb a mem_cons_self
    rw [uniqueFilesAndManifests, lookup_foldl_recordPair hc, lookup_first, hmm]
    obtain ⟨⟨v, bytes⟩, manifestSlot⟩ := a
    generalize pathValues (changedPairs (⟨v, bytes⟩, manifestSlot) r) = later
    by_cases hne : f = ""
    · -- the empty path is never recorded
      subst hne
      cases v <;> simp +contextual [strayPair]
    by_cases hl : some f ∈ later
    · rw [if_pos ⟨hne, hl⟩, some_inj, eq_comm]
      simp [hne, hl]
    rw [if_neg fun h => hl h.2]
    cases v with
    | false =>
      -- the bytes below the `NULL` are all there is to this file
      have hget : StringSlot.get? ⟨false, bytes⟩ = none := rfl
      simp only [hget, hl, strayPair]
      by_cases hby : bytes = f
      · subst hby
        simp [hne]
      · simp [hby]
    | true =>
      have hget : StringSlot.get? ⟨true, bytes⟩ = some bytes := rfl
      by_cases hby : bytes = f
      · subst hby
        have hm : manifestSlot.bytes = manifestOf bytes :=
          StringSlot.bytes_of_get? (hf bytes hget hne)
        simp [hget, hne, hl, hm, eq_comm]
      · simp [hget, hby, hl, strayPair]

end Files

lemma runBatches_matchingFiles (bs : List (MergeBatch width α)) : (runBatches bs).matchingFiles =
    bs.foldl (fun m b => uniqueFilesAndManifests b.paths ∪ m) ∅ := by
  have hrun : ∀ st : StreamState width α, (bs.foldl pollBatch st).matchingFiles =
        bs.foldl (fun m b => uniqueFilesAndManifests b.paths ∪ m) st.matchingFiles := by
    induction bs with
    | nil => exact fun _ => rfl
    | cons b bs ih => exact fun st => ih (st.pollBatch b)
  exact hrun .init

lemma lookup_runBatches_eq_some_iff {bs : List (MergeBatch width α)} :
    (runBatches bs).matchingFiles.lookup f = some m ↔ ∃ l b r, bs = l ++ b :: r ∧
        (uniqueFilesAndManifests b.paths).lookup f = some m ∧
        ∀ la ∈ r, (uniqueFilesAndManifests la.paths).lookup f = none := by
  rw [runBatches_matchingFiles, lookup_foldl_union, lookup_empty, or_none, findSome?_eq_some_iff]
  constructor
  · rintro ⟨r, b, l, hs, hb, ha⟩
    refine ⟨l.reverse, b, r.reverse, ?_, hb, fun la hl =>
      ha la (mem_reverse.mp hl)⟩
    rw [← reverse_reverse bs, hs]
    simp
  · rintro ⟨l, b, r, rfl, hb, ha⟩
    refine ⟨r.reverse, b, l.reverse, by simp, hb, fun la hl =>
      ha la (mem_reverse.mp hl)⟩

def ManifestAndDataFiles.flattened (m : ManifestAndDataFiles) : List (String × String) :=
  m.entries.flatMap fun e => e.2.map fun file => (e.1, file)

lemma lookup_groupByManifest (m : String) : ((groupByManifest fs).lookup m).getD [] =
    (fs.entries.filter fun e => e.2 = m).map Sigma.fst := by
  have hf : ∀ (es : List (Sigma fun _ : String => String))
      (gr : ManifestAndDataFiles),
      ((es.foldl (fun g e => pushFile g e.1 e.2) gr).lookup m).getD [] =
        (gr.lookup m).getD [] ++ (es.filter fun e => e.2 = m).map Sigma.fst := by
    intro es
    induction es with
    | nil => simp
    | cons e es ih =>
      intro gr
      rw [foldl_cons, ih, lookup_pushFile, append_assoc, filter_cons]
      by_cases he : e.2 = m
      · simp [he]
      · simp [he, Ne.symm he]
  rw [groupByManifest, hf]
  rfl

lemma mem_flattened_iff {m : ManifestAndDataFiles} {mn fl : String} :
    (mn, fl) ∈ m.flattened ↔ fl ∈ (m.lookup mn).getD [] := by
  rw [ManifestAndDataFiles.flattened, mem_flatMap]
  constructor
  · rintro ⟨⟨key, fs⟩, he, hm⟩
    obtain ⟨f, hf, heq⟩ := List.mem_map.mp hm
    obtain ⟨rfl, rfl⟩ := Prod.mk.inj heq
    rw [mem_def.mp (mem_lookup_iff.mpr he)]
    exact hf
  · intro h
    cases hl : m.lookup mn with
    | none =>
      rw [hl] at h
      exact absurd h not_mem_nil
    | some fs =>
      rw [hl] at h
      exact ⟨⟨mn, fs⟩, mem_lookup_iff.mp hl, List.mem_map_of_mem (f := fun f => (mn, f)) h⟩

lemma nodup_flattened_groupByManifest : (groupByManifest fs).flattened.Nodup := by
  rw [ManifestAndDataFiles.flattened, nodup_flatMap]
  constructor
  · rintro ⟨m, group⟩ he
    have hg := lookup_groupByManifest fs m
    rw [mem_def.mp (mem_lookup_iff.mpr he), getD_some] at hg
    rw [hg]
    refine List.Nodup.map (Prod.mk_right_injective m) ?_
    exact fs.nodupKeys.sublist filter_sublist
  · have hk : (groupByManifest fs).entries.Pairwise fun e e' => e.1 ≠ e'.1 :=
      pairwise_map.mp (groupByManifest fs).nodupKeys
    refine hk.imp ?_
    intro e e' hne pair hp hp'
    obtain ⟨f, -, rfl⟩ := List.mem_map.mp hp
    obtain ⟨f', -, heq⟩ := List.mem_map.mp hp'
    exact hne (congrArg Prod.fst heq).symm

def PairOccurs (batches : List (MergeBatch width α)) (manifest file : String) : Prop :=
  file ≠ "" ∧ ∃ b ∈ batches, ∃ p ∈ b.paths, p.1.get? = some file ∧ p.2.get? = some manifest

def IsOverwriteSet (m : ManifestAndDataFiles) (batches : List (MergeBatch width α)) : Prop :=
  m.flattened.Nodup ∧ ∀ mn f, (mn, f) ∈ m.flattened ↔ PairOccurs batches mn f

/-- A later row has the file, a later batch starts with it, or the pair is right. -/
def StrayHarmless (manifestOf : String → String) (before : List (MergeBatch width α))
    (batch : MergeBatch width α) (after : List (MergeBatch width α)) (file manifest : String) :
    Prop :=
  (∃ l ∈ batch :: after, some file ∈ pathValues l.paths) ∨
    (∃ l ∈ after, ∃ o, strayPair l.paths = some (file, o)) ∨
    manifest = manifestOf file ∧ ∃ e ∈ before, some file ∈ pathValues e.paths

section Overwrite

variable {manifestOf mo : String → String} {batches bs : List (MergeBatch width α)}

lemma pairOccurs_iff (hb : ∀ b ∈ bs, ∀ p ∈ b.paths, p.NamesManifest mo) {m f : String} :
    PairOccurs bs m f ↔ f ≠ "" ∧ m = mo f ∧ ∃ b ∈ bs, some f ∈ pathValues b.paths := by
  constructor
  · rintro ⟨hne, b, hba, p, hp, hf, hm⟩
    rw [hb b hba p hp f hf hne] at hm
    exact ⟨hne, (some.inj hm).symm, b, hba, List.mem_map.mpr ⟨p, hp, hf⟩⟩
  · rintro ⟨hne, rfl, b, hba, hmm⟩
    obtain ⟨p, hp, hf⟩ := List.mem_map.mp hmm
    exact ⟨hne, b, hba, p, hp, hf, hb b hba p hp f hf hne⟩

lemma lookup_uniqueFilesAndManifests_eq_none_iff {batch : List FilePair}
    (hb : ∀ p ∈ batch, p.NamesManifest mo) (hne : f ≠ "") :
    (uniqueFilesAndManifests batch).lookup f = none ↔
      some f ∉ pathValues batch ∧ ∀ m, strayPair batch ≠ some (f, m) := by
  rw [eq_none_iff_forall_ne_some]
  constructor
  · intro h
    have hm : some f ∉ pathValues batch := fun hm =>
      h _ ((lookup_uniqueFilesAndManifests hb f _).mpr (.inl ⟨hne, hm, rfl⟩))
    exact ⟨hm, fun m hs =>
      h _ ((lookup_uniqueFilesAndManifests hb f m).mpr (.inr ⟨hm, hs⟩))⟩
  · rintro ⟨hm, hs⟩ m hl
    rcases (lookup_uniqueFilesAndManifests hb f m).mp hl with ⟨-, h, -⟩ | ⟨-, h⟩
    · exact hm h
    · exact hs m h

lemma strayPair_fst_ne_empty (h : strayPair b = some (f, m)) : f ≠ "" := by
  rintro rfl
  rw [strayPair.eq_def] at h
  split at h
  · split at h
    · cases h
    · rename_i hne
      exact hne (Prod.mk.inj (some.inj h)).1
  · cases h

/-- **The overwrite set** is right exactly if no bytes below a NULL path stray into it. -/
theorem overwriteSet_iff
    (hb : ∀ batch ∈ batches, ∀ pair ∈ batch.paths, pair.NamesManifest manifestOf) :
    IsOverwriteSet (groupByManifest (runBatches batches).matchingFiles) batches ↔
      ∀ before batch after file manifest, batches = before ++ batch :: after →
        strayPair batch.paths = some (file, manifest) →
        StrayHarmless manifestOf before batch after file manifest := by
  rw [IsOverwriteSet, and_iff_right (nodup_flattened_groupByManifest _)]
  simp only [mem_flattened_iff, mem_groupByManifest]
  constructor
  · intro h before batch after file manifest hsp hs
    have hne := strayPair_fst_ne_empty hs
    rw [StrayHarmless]
    by_contra hh
    simp only [not_or, not_exists, not_and] at hh
    obtain ⟨hrw, hf, hrig⟩ := hh
    subst hsp
    -- nothing after the stray pair touches the file, so it is what the map has
    have hen : (uniqueFilesAndManifests batch.paths).lookup file = some manifest :=
      (lookup_uniqueFilesAndManifests (hb batch (by simp)) file manifest).mpr
        (.inr ⟨hrw batch mem_cons_self, hs⟩)
    have ha : ∀ l ∈ after, (uniqueFilesAndManifests l.paths).lookup file = none := by
      intro l hl
      refine (lookup_uniqueFilesAndManifests_eq_none_iff (hb l (by simp [hl])) hne).mpr ?_
      exact ⟨hrw l (mem_cons_of_mem _ hl), hf l hl⟩
    have ho := (h manifest file).mp
      (lookup_runBatches_eq_some_iff.mpr ⟨before, batch, after, rfl, hen, ha⟩)
    obtain ⟨-, hm, o, hot, hmm⟩ := (pairOccurs_iff hb).mp ho
    rcases mem_append.mp hot with hbef | hres
    · exact hrig hm o hbef hmm
    · exact hrw o hres hmm
  · intro h
    -- an entry is right: its last record is a row, or a stray pair that is right
    have hsou : ∀ manifest file, (runBatches batches).matchingFiles.lookup file = some manifest →
        PairOccurs batches manifest file := by
      intro manifest file hloo
      obtain ⟨before, batch, after, rfl, hen, ha⟩ :=
        lookup_runBatches_eq_some_iff.mp hloo
      rw [pairOccurs_iff hb]
      rcases (lookup_uniqueFilesAndManifests (hb batch (by simp)) file manifest).mp hen with
        ⟨hne, hmm, hm⟩ | ⟨hmm, hs⟩
      · exact ⟨hne, hm, batch, by simp, hmm⟩
      · have hne := strayPair_fst_ne_empty hs
        have hn : ∀ l ∈ after, some file ∉ pathValues l.paths ∧
            ∀ o, strayPair l.paths ≠ some (file, o) := fun l hl =>
          (lookup_uniqueFilesAndManifests_eq_none_iff (hb l (by simp [hl])) hne).mp (ha l hl)
        rcases h before batch after file manifest rfl hs with
          ⟨l, hl, hr⟩ | ⟨l, hl, o, hfr⟩ | ⟨hm, earlier, he, hr⟩
        · rcases mem_cons.mp hl with rfl | hl
          · exact absurd hr hmm
          · exact absurd hr (hn l hl).1
        · exact absurd hfr ((hn l hl).2 o)
        · exact ⟨hne, hm, earlier, by simp [he], hr⟩
    intro manifest file
    refine ⟨hsou manifest file, fun ho => ?_⟩
    obtain ⟨hne, rfl, batch, hbat, hmm⟩ := (pairOccurs_iff hb).mp ho
    -- some batch has recorded the file, so the map has an entry, and that is right
    cases hloo : (runBatches batches).matchingFiles.lookup file with
    | none =>
      rw [runBatches_matchingFiles, lookup_foldl_union, lookup_empty, or_none,
        findSome?_eq_none_iff] at hloo
      have hn := hloo batch (mem_reverse.mpr hbat)
      exact absurd hmm ((lookup_uniqueFilesAndManifests_eq_none_iff (hb batch hbat) hne).mp hn).1
    | some manifest =>
      rw [((pairOccurs_iff hb).mp (hsou manifest file hloo)).2.1]

end Overwrite

def strayBatch : MergeBatch 0 Unit where
  paths := [(⟨false, "f.parquet"⟩, ⟨false, "m.avro"⟩)]
  mergeUpdated := ⟨[false], none, fun _ h => by cases h⟩
  mergeInserted := ⟨[true], none, fun _ h => by cases h⟩
  tableRows := [fun i => i.elim0]

theorem overwriteSet_fails_below_null :
    (∀ pair ∈ strayBatch.paths, FilePair.NamesManifest (fun _ => "m.avro") pair) ∧
      (groupByManifest (runBatches [strayBatch]).matchingFiles).flattened =
        [("m.avro", "f.parquet")] ∧
      ¬ IsOverwriteSet (groupByManifest (runBatches [strayBatch]).matchingFiles)
        [strayBatch] := by
  have hfl : (groupByManifest (runBatches [strayBatch]).matchingFiles).flattened =
      [("m.avro", "f.parquet")] := rfl
  refine ⟨?_, hfl, ?_⟩
  · intro pair hp file hf
    obtain rfl := mem_singleton.mp hp
    cases hf
  · rintro ⟨-, h⟩
    obtain ⟨-, batch, hb, pair, hp, hf, -⟩ :=
      (h "m.avro" "f.parquet").mp (by rw [hfl]; exact mem_singleton_self _)
    obtain rfl := mem_singleton.mp hb
    obtain rfl := mem_singleton.mp hp
    cases hf

def emptySlotsBatch : MergeBatch 0 Unit where
  paths := [(⟨false, ""⟩, ⟨false, ""⟩), (⟨true, "f.parquet"⟩, ⟨true, "m.avro"⟩),
    (⟨true, ""⟩, ⟨false, ""⟩)]
  mergeUpdated := ⟨[false, false, false], none, fun _ h => by cases h⟩
  mergeInserted := ⟨[true, false, true], none, fun _ h => by cases h⟩
  tableRows := [fun i => i.elim0, fun i => i.elim0, fun i => i.elim0]

theorem overwriteSet_of_emptySlots :
    IsOverwriteSet (groupByManifest (runBatches [emptySlotsBatch]).matchingFiles)
      [emptySlotsBatch] := by
  have hb : ∀ b ∈ [emptySlotsBatch], ∀ pair ∈ b.paths,
      FilePair.NamesManifest (fun _ => "m.avro") pair := by
    intro b hbat pair hp f hf hne
    obtain rfl := mem_singleton.mp hbat
    rcases mem_cons.mp hp with rfl | hp
    · cases hf
    rcases mem_cons.mp hp with rfl | hp
    · rfl
    · obtain rfl := mem_singleton.mp hp
      exact absurd (some.inj hf).symm hne
  refine (overwriteSet_iff hb).mpr ?_
  intro before b after f manifest hs hst
  have hm : b ∈ [emptySlotsBatch] := by
    rw [hs]
    simp
  obtain rfl := mem_singleton.mp hm
  cases hst

end Rustice
