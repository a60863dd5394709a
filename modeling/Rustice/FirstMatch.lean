import Mathlib.Algebra.GroupWithZero.Nat
import Mathlib.Data.Fin.VecNotation
import Mathlib.Data.Fintype.Basic
import Mathlib.Data.List.Find
import Rustice.Fallible
import Rustice.MergeClause

/-!
# First-Match Semantics of MERGE Clauses

On a row of the full join, the first clause whose condition is `TRUE` decides every column.
-/

namespace Rustice

open List

open ClauseMap

variable {τ α σ ρ : Type} {ps : List (PlannedClause τ ρ α)} {nm : String} {r : ρ}

def PlannedClause.pairs (p : PlannedClause τ ρ α) : List (String × DFExpr τ ρ α) :=
  match p.action with
  | .update assignments => assignments
  | .insert columns => columns
  | .delete => []

def PlannedClause.gives (p : PlannedClause τ ρ α) (name : String) :
    Option (DFExpr τ ρ α) :=
  (p.pairs.find? fun a => a.1 == name).map Prod.snd

def PlannedClause.holds (p : PlannedClause τ ρ α) (row : ρ) : Bool :=
  p.op row == some true

def firstClause (ps : List (PlannedClause τ ρ α)) (row : ρ) :
    Option (PlannedClause τ ρ α) :=
  ps.find? fun p => p.holds row

open PlannedClause

lemma PlannedClause.holds_iff {p : PlannedClause τ ρ α} :
    p.holds r = true ↔ p.op r = some true := by
  simp [holds]

lemma firstClause_some {p : PlannedClause τ ρ α} (h : firstClause ps r = some p) :
    p ∈ ps ∧ p.op r = some true := by
  rw [firstClause] at h
  have hp := find?_some h
  exact ⟨mem_of_find?_eq_some h, holds_iff.mp hp⟩

lemma firstClause_eq_none_iff : firstClause ps r = none ↔ ∀ p ∈ ps, p.op r ≠ some true := by
  simp [firstClause, holds]

section Meaning

variable [DecidableEq τ] (cast : τ → ScalarValue α → ScalarValue α) (s : TableSchema τ)

/-- The value a clause prescribes for a column on a row it decides. -/
def PlannedClause.valueFor (p : PlannedClause τ (MergeRow s.width α σ) α)
    (c : TargetColumn s.width) (row : MergeRow s.width α σ) : ScalarValue α :=
  match p.gives (s.columnName c), p.action with
  | some e, _ => castIfNecessary cast e (s.dataType c) row
  | none, .update _ => row.col c
  | none, .insert _ => .null
  | none, .delete => row.col c

/-- The value of the first clause that holds. -/
def prescribed (ps : List (PlannedClause τ (MergeRow s.width α σ) α))
    (c : TargetColumn s.width) (row : MergeRow s.width α σ) : ScalarValue α :=
  match firstClause ps row with
  | some p => p.valueFor cast s c row
  | none => row.col c

def PlannedClause.omits (p : PlannedClause τ ρ α) (name : String) : Bool :=
  match p.action with
  | .insert columns => !columns.any fun a => a.1 == name
  | _ => false

/-- The clauses from the last one on that does not list the column. -/
def survivors (name : String) :
    List (PlannedClause τ ρ α) → List (PlannedClause τ ρ α)
  | [] => []
  | p :: ps => if ps.any (·.omits name) then survivors name ps else p :: ps

def ShadowFree (ps : List (PlannedClause τ (MergeRow s.width α σ) α)) :
    MergeRow s.width α σ → Prop
  | .both t x =>
    ∀ c p, firstClause ps (.both t x) = some p → p.gives (s.columnName c) = none →
      ∀ q, ps.find? (fun q =>
          q.holds (.both t x) && (q.gives (s.columnName c)).isSome) = some q →
        q.valueFor cast s c (.both t x) = t.get c
  | .left _ => True
  | .right x =>
    ∀ c p, firstClause ps (.right x) = some p → p.valueFor cast s c (.right x) =
        match firstClause (survivors (s.columnName c) ps) (.right x) with
        | some q => q.valueFor cast s c (.right x)
        | none => .null

end Meaning

def PlannedClause.updateEntries (name : String) (p : PlannedClause τ ρ α) :
    List (ClauseEntry τ ρ α) :=
  match p.action with
  | .update assignments =>
    (assignments.filter fun a => a.1 == name).map fun a => (p.op, a.2)
  | _ => []

def PlannedClause.insertEntries (name : String) (p : PlannedClause τ ρ α) :
    List (ClauseEntry τ ρ α) :=
  match p.action with
  | .insert columns =>
    if p.omits name then [(p.op, nullExpr)]
    else (columns.filter fun a => a.1 == name).map fun a => (p.op, a.2)
  | _ => []

lemma ClauseMap.entries_push (m : ClauseMap τ ρ α) (k nm : String) (v : ClauseEntry τ ρ α) :
    (m.push k v).entries nm = m.entries nm ++ (if k = nm then [v] else []) := by
  simp only [push, entries]
  by_cases h : k = nm
  · subst h
    simp
  · rw [Function.update_of_ne (Ne.symm h), if_neg h, append_nil]

lemma ClauseMap.entries_foldl_push (op : ρ → Truth) (nm : String) :
    ∀ (pr : List (String × DFExpr τ ρ α)) (m : ClauseMap τ ρ α),
      entries (pr.foldl (fun m a => m.push a.1 (op, a.2)) m) nm = m.entries nm ++
          (pr.filter fun a => a.1 == nm).map fun a => (op, a.2) := by
  intro pr
  induction pr with
  | nil =>
    intro m
    simp
  | cons a pr ih =>
    intro m
    rw [foldl_cons, ih, entries_push, append_assoc]
    by_cases h : a.1 = nm
    · simp [h]
    · simp [h]

lemma ClauseMap.entries_foldl_update (v : ClauseEntry τ ρ α) (name : String) :
    ∀ (nm : List String) (m : ClauseMap τ ρ α),
      entries (nm.foldl (fun m n => Function.update m n (some [v])) m) name =
        if name ∈ nm then [v] else m.entries name := by
  intro nm
  induction nm with
  | nil =>
    intro m
    simp
  | cons n nm ih =>
    intro m
    rw [foldl_cons, ih]
    by_cases hm : name ∈ nm
    · simp [hm]
    · by_cases hn : name = n
      · subst hn
        simp [hm, entries]
      · simp [hm, hn, entries]

open ClauseState

lemma entries_updates_add (s : TableSchema τ) (st : ClauseState τ ρ α)
    (p : PlannedClause τ ρ α) (name : String) : (st.add s p).updates.entries name =
      st.updates.entries name ++ p.updateEntries name := by
  rw [add, updateEntries]
  cases p.action with
  | update a => exact entries_foldl_push p.op name a _
  | insert columns => simp
  | delete => simp

lemma entries_inserts_add (s : TableSchema τ) (st : ClauseState τ ρ α)
    (p : PlannedClause τ ρ α) {name : String} (hn : name ∈ s.columnNames) :
    (st.add s p).inserts.entries name =
      (if p.omits name then [] else st.inserts.entries name) ++ p.insertEntries name := by
  rw [add, insertEntries, omits]
  cases hp : p.action with
  | update assignments => simp
  | delete => simp
  | insert cs =>
    simp only
    rw [entries_foldl_update, entries_foldl_push]
    have hm : name ∈ s.columnNames.filter (fun n => n ∉ cs.map Prod.fst) ↔
        (!cs.any fun a => a.1 == name) = true := by
      simp only [mem_filter, hn, mem_map, Bool.not_eq_true', true_and,
        any_eq_false, beq_iff_eq, not_exists, not_and, decide_eq_true_eq]
    by_cases h : (!cs.any fun a => a.1 == name) = true
    · rw [if_pos (hm.mpr h), if_pos h, if_pos h, nil_append]
    · rw [if_neg (fun hc => h (hm.mp hc)), if_neg h, if_neg h]

lemma entries_updates_foldl (s : TableSchema τ) (nm : String)
    (ps : List (PlannedClause τ ρ α)) (st : ClauseState τ ρ α) :
    (ps.foldl (add s) st).updates.entries nm =
      st.updates.entries nm ++ ps.flatMap (·.updateEntries nm) := by
  induction ps generalizing st with
  | nil => simp
  | cons p ps ih => rw [foldl_cons, ih, entries_updates_add, flatMap_cons, append_assoc]

lemma survivors_of_not_omits (h : ps.any (·.omits nm) = false) : survivors nm ps = ps := by
  cases ps with
  | nil => rfl
  | cons p ps =>
    rw [any_cons, Bool.or_eq_false_iff] at h
    rw [survivors, h.2]
    rfl

lemma entries_inserts_foldl (s : TableSchema τ)
    (hn : nm ∈ s.columnNames) (ps : List (PlannedClause τ ρ α)) (st : ClauseState τ ρ α) :
    (ps.foldl (add s) st).inserts.entries nm =
      (if ps.any (·.omits nm) then [] else st.inserts.entries nm) ++
        (survivors nm ps).flatMap (·.insertEntries nm) := by
  induction ps generalizing st with
  | nil => simp [survivors]
  | cons p ps ih =>
    rw [foldl_cons, ih, entries_inserts_add s st p hn, any_cons, survivors]
    by_cases hps : ps.any (·.omits nm) = true
    · simp only [hps, Bool.or_true, if_true]
    · rw [Bool.not_eq_true] at hps
      simp only [hps, Bool.or_false, Bool.false_eq_true, if_false]
      rw [survivors_of_not_omits hps, flatMap_cons, append_assoc]

variable {width w : ℕ} {Sql : Type} {pl : SqlPlanner Sql τ (MergeRow w α σ) α}
  {cl : MergeClause Sql} {x : σ}

def PlannedClause.WellKinded {width : ℕ}
    (p : PlannedClause τ (MergeRow width α σ) α) : Prop :=
  ∀ row, p.op row = some true → match p.action, row with
    | .update _, .both _ _ => True
    | .insert _, .right _ => True
    | _, _ => False

lemma PlannedClause.WellKinded.update_of_both
    {p : PlannedClause τ (MergeRow w α σ) α} (h : p.WellKinded) {t : TargetRow w α}
    (hh : p.op (.both t x) = some true) : ∃ as, p.action = .update as := by
  have hk := h _ hh
  cases ha : p.action with
  | update as => exact ⟨as, rfl⟩
  | insert cols => simp [ha] at hk
  | delete => simp [ha] at hk

lemma PlannedClause.WellKinded.insert_of_right
    {p : PlannedClause τ (MergeRow w α σ) α} (h : p.WellKinded)
    (hh : p.op (.right x) = some true) : ∃ cols, p.action = .insert cols := by
  have hk := h _ hh
  cases ha : p.action with
  | update as => simp [ha] at hk
  | insert cols => exact ⟨cols, rfl⟩
  | delete => simp [ha] at hk

lemma PlannedClause.WellKinded.op_left_ne
    {p : PlannedClause τ (MergeRow w α σ) α} (h : p.WellKinded) (t : TargetRow w α) :
    p.op (.left t) ≠ some true := by
  intro hh
  have hk := h _ hh
  cases ha : p.action <;> simp [ha] at hk

lemma clauseCondition_implies_kind
    {op : MergeRow w α σ → Truth} (h : clauseCondition pl cl = .ok op) :
    ∃ k, mergeClauseExpression cl.clauseKind = .ok k ∧ ∀ r, op r = some true → k r = some true := by
  obtain ⟨k, hk, h⟩ := bind_eq_ok.mp h
  refine ⟨k, hk, ?_⟩
  cases hp : cl.predicate with
  | none =>
    rw [hp] at h
    obtain rfl := pure_eq_ok.mp h
    exact fun _ => id
  | some predicate =>
    rw [hp] at h
    obtain ⟨cond, -, h⟩ := bind_eq_ok.mp h
    obtain rfl := pure_eq_ok.mp h
    exact fun r hr => (Truth.and_eq_true_iff.mp hr).1

lemma planClause_inv {p : PlannedClause τ (MergeRow w α σ) α} (h : planClause pl cl = .ok p) :
    clauseCondition pl cl = .ok p.op ∧ match cl.action, p.action with
      | .update as, .update as' => as.mapM (planAssignment pl) = .ok as'
      | .insert cs k, .insert cs' => planInsert pl cs k = .ok cs'
      | .delete, .delete => True
      | _, _ => False := by
  obtain ⟨op, ho, h⟩ := bind_eq_ok.mp h
  cases ha : cl.action with
  | update as =>
    rw [ha] at h
    obtain ⟨as', has, h⟩ := bind_eq_ok.mp h
    obtain rfl := pure_eq_ok.mp h
    exact ⟨ho, has⟩
  | insert cs k =>
    rw [ha] at h
    obtain ⟨cs', hc, h⟩ := bind_eq_ok.mp h
    obtain rfl := pure_eq_ok.mp h
    exact ⟨ho, hc⟩
  | delete =>
    rw [ha] at h
    obtain rfl := pure_eq_ok.mp h
    exact ⟨ho, trivial⟩

open MergeRow

lemma planClause_wellKinded {p : PlannedClause τ (MergeRow w α σ) α} (h : planClause pl cl = .ok p)
    (hs : cl.Supported) : p.WellKinded := by
  intro r hr
  obtain ⟨ho, ha⟩ := planClause_inv h
  obtain ⟨kind, hki, hi⟩ := clauseCondition_implies_kind ho
  have hk := hi r hr
  rw [MergeClause.Supported] at hs
  cases hck : cl.clauseKind <;> cases hc : cl.action <;>
    simp only [hck, hc] at hs <;> cases hp : p.action <;>
    simp only [hc, hp] at ha <;> rw [hck] at hki <;>
    simp only [mergeClauseExpression, Except.ok.injEq] at hki <;> subst hki <;>
    cases r <;> simp_all [targetExists, sourceExists, Truth.and]

lemma mapM_planClause_wellKinded {c : List (MergeClause Sql)}
    {ps : List (PlannedClause τ (MergeRow w α σ) α)} (hps : c.mapM (planClause pl) = .ok ps)
    (hs : ∀ cl ∈ c, cl.Supported) : ∀ p ∈ ps, p.WellKinded := by
  intro p hp
  obtain ⟨cl, hm, hpl⟩ := exists_of_mem_mapM hps hp
  exact planClause_wellKinded hpl (hs cl hm)

section Value

variable [DecidableEq τ] (cast ca : τ → ScalarValue α → ScalarValue α) {p : PlannedClause τ ρ α}
  {e : ClauseEntry τ ρ α}

lemma collect_eq_caseWhen (s : TableSchema τ)
    (u i : ClauseMap τ (MergeRow s.width α σ) α) (c : TargetColumn s.width)
    (r : MergeRow s.width α σ) : collectMergeClauseExpressions ca s u i c r =
      caseWhen (evalBranches ca (s.dataType c) r
        (u.entries (s.columnName c) ++ i.entries (s.columnName c))) (r.col c) := by
  simp only [collectMergeClauseExpressions, entries]
  cases u (s.columnName c) with
  | none => cases i (s.columnName c) <;> simp [evalBranches]
  | some us => cases i (s.columnName c) <;> simp

def projectionOf (s : TableSchema τ)
    (ps : List (PlannedClause τ (MergeRow s.width α σ) α)) : MergeProjection s α σ :=
  (ps.foldl (add s) init).projection cast s

lemma mergeClauseProjection_of_mapM (s : TableSchema τ)
    (pl : SqlPlanner Sql τ (MergeRow s.width α σ) α) {c : List (MergeClause Sql)}
    {ps : List (PlannedClause τ (MergeRow s.width α σ) α)} (hps : c.mapM (planClause pl) = .ok ps) :
    mergeClauseProjection ca s pl c = .ok (projectionOf ca s ps) := by
  rw [mergeClauseProjection]
  rw [foldlM_eq_ok_of_mapM hps]
  rfl

lemma exists_mapM_of_mergeClauseProjection (s : TableSchema τ)
    (pl : SqlPlanner Sql τ (MergeRow s.width α σ) α) {c : List (MergeClause Sql)}
    {pr : MergeProjection s α σ} (h : mergeClauseProjection ca s pl c = .ok pr) :
    ∃ ps, c.mapM (planClause pl) = .ok ps := by
  obtain ⟨st, hs, -⟩ := bind_eq_ok.mp h
  exact exists_mapM_of_foldlM_eq_ok hs

lemma column_eq_caseWhen (s : TableSchema τ)
    (ps : List (PlannedClause τ (MergeRow s.width α σ) α)) (c : TargetColumn s.width)
    (row : MergeRow s.width α σ) :
    (projectionOf ca s ps).column c row = caseWhen (ps.flatMap fun p =>
          evalBranches ca (s.dataType c) row (p.updateEntries (s.columnName c))) (caseWhen
          ((survivors (s.columnName c) ps).flatMap fun p =>
            evalBranches ca (s.dataType c) row (p.insertEntries (s.columnName c)))
          (row.col c)) := by
  have hu := entries_updates_foldl s (s.columnName c) ps
    (init : ClauseState τ (MergeRow s.width α σ) α)
  have hi := entries_inserts_foldl s (s.columnName_mem_columnNames c) ps
    (init : ClauseState τ (MergeRow s.width α σ) α)
  have hnil : entries
      (fun _ => none : ClauseMap τ (MergeRow s.width α σ) α) (s.columnName c) = [] := rfl
  simp only [init, hnil, ite_self, nil_append] at hu hi
  simp only [projectionOf, projection, collect_eq_caseWhen, init, hu, hi]
  rw [evalBranches, map_append, caseWhen_append, map_flatMap, map_flatMap]
  rfl

lemma fst_of_mem_evalBranches {ty : τ} {row : ρ} {op : ρ → Truth}
    {es : List (ClauseEntry τ ρ α)} (h : ∀ e ∈ es, e.1 = op)
    {x : Truth × ScalarValue α} (hx : x ∈ evalBranches ca ty row es) : x.1 = op row := by
  obtain ⟨e, he, rfl⟩ := mem_map.mp hx
  rw [h e he]

omit [DecidableEq τ] in
lemma fst_of_mem_updateEntries (h : e ∈ p.updateEntries nm) : e.1 = p.op := by
  rw [updateEntries] at h
  cases hp : p.action with
  | update assignments =>
    rw [hp] at h
    obtain ⟨a, -, rfl⟩ := mem_map.mp h
    rfl
  | insert columns => simp [hp] at h
  | delete => simp [hp] at h

omit [DecidableEq τ] in
lemma fst_of_mem_insertEntries (h : e ∈ p.insertEntries nm) : e.1 = p.op := by
  rw [insertEntries] at h
  cases hp : p.action with
  | update assignments => simp [hp] at h
  | delete => simp [hp] at h
  | insert columns =>
    simp only [hp] at h
    split at h
    · obtain rfl : e = (p.op, nullExpr) := by simpa using h
      rfl
    · obtain ⟨a, -, rfl⟩ := mem_map.mp h
      rfl

lemma evalBranches_pairs (ty : τ) (r : ρ) (op : ρ → Truth) (nm : String)
  (pr : List (String × DFExpr τ ρ α)) :
  match (pr.find? fun a => a.1 == nm).map Prod.snd with
  | none =>
    evalBranches ca ty r
      ((pr.filter fun a => a.1 == nm).map fun a => (op, a.2)) = []
  | some e => ∃ rest, evalBranches ca ty r
          ((pr.filter fun a => a.1 == nm).map fun a => (op, a.2)) =
        (op r, castIfNecessary ca e ty r) :: rest := by
  rw [← head?_filter]
  generalize pr.filter (fun a => a.1 == nm) = block
  cases block with
  | nil => rfl
  | cons a rest => exact ⟨_, rfl⟩

variable (s : TableSchema τ) {ps : List (PlannedClause τ (MergeRow s.width α σ) α)}

lemma updateBlock_of_holds {p : PlannedClause τ (MergeRow s.width α σ) α}
    {r : MergeRow s.width α σ} {as : List (String × DFExpr τ (MergeRow s.width α σ) α)}
    (ha : p.action = .update as) (h : p.op r = some true) (c : TargetColumn s.width)
    (o : ScalarValue α) :
    let block := evalBranches ca (s.dataType c) r (p.updateEntries (s.columnName c))
    block.isEmpty = (p.gives (s.columnName c)).isNone ∧ ((p.gives (s.columnName c)).isSome →
        caseWhen block o = p.valueFor ca s c r) := by
  have hb := evalBranches_pairs ca (s.dataType c) r p.op (s.columnName c) as
  have hg : p.gives (s.columnName c) = (as.find? fun a => a.1 == s.columnName c).map Prod.snd := by
    simp [gives, PlannedClause.pairs, ha]
  simp only [updateEntries, valueFor, ha, hg]
  cases he : (as.find? fun a => a.1 == s.columnName c).map Prod.snd with
  | none =>
    rw [he] at hb
    exact ⟨by rw [hb]; rfl, fun hc => absurd hc (by simp)⟩
  | some e =>
    rw [he] at hb
    obtain ⟨rest, hr⟩ := hb
    rw [hr]
    refine ⟨rfl, fun _ => ?_⟩
    rw [caseWhen_cons, if_pos h]

lemma insertBlock_of_holds {p : PlannedClause τ (MergeRow s.width α σ) α}
    {row : MergeRow s.width α σ} {cs : List (String × DFExpr τ (MergeRow s.width α σ) α)}
    (ha : p.action = .insert cs) (h : p.op row = some true) (c : TargetColumn s.width)
    (o : ScalarValue α) :
    let block := evalBranches ca (s.dataType c) row (p.insertEntries (s.columnName c))
    block.isEmpty = false ∧ caseWhen block o = p.valueFor ca s c row := by
  have hb := evalBranches_pairs ca (s.dataType c) row p.op (s.columnName c) cs
  have hg : p.gives (s.columnName c) = (cs.find? fun a => a.1 == s.columnName c).map Prod.snd := by
    simp [gives, PlannedClause.pairs, ha]
  have ho : p.omits (s.columnName c) = (p.gives (s.columnName c)).isNone := by
    rw [hg, Option.isNone_map]
    simp only [omits, ha]
    rw [← isSome_find?, Option.not_isSome]
  simp only [insertEntries, valueFor, ha, ho, hg]
  cases he : (cs.find? fun a => a.1 == s.columnName c).map Prod.snd with
  | none =>
    refine ⟨rfl, ?_⟩
    simp [evalBranches, caseWhen_cons, h, castIfNecessary, nullExpr, tryCast]
  | some e =>
    rw [he] at hb
    obtain ⟨rest, hr⟩ := hb
    simp only [Option.isNone_some, Bool.false_eq_true, if_false]
    rw [hr]
    exact ⟨rfl, by rw [caseWhen_cons, if_pos h]⟩

omit [DecidableEq τ] in
lemma mem_of_mem_survivors {ps : List (PlannedClause τ ρ α)}
    (h : p ∈ survivors nm ps) : p ∈ ps := by
  induction ps with
  | nil => exact absurd h not_mem_nil
  | cons q ps ih =>
    rw [survivors] at h
    split at h
    · exact mem_cons_of_mem _ (ih h)
    · exact h

lemma column_both (hk : ∀ p ∈ ps, p.WellKinded) (c : TargetColumn s.width)
    (t : TargetRow s.width α) (x : σ) :
    (projectionOf ca s ps).column c (.both t x) =
      match ps.find? fun q => q.holds (.both t x) && (q.gives (s.columnName c)).isSome with
      | some q => q.valueFor ca s c (.both t x)
      | none => t.get c := by
  -- no insert entry is `TRUE` here, so the column is what the update blocks make of it
  have hi : ∀ y ∈ (survivors (s.columnName c) ps).flatMap (fun p =>
      evalBranches ca (s.dataType c) (.both t x) (p.insertEntries (s.columnName c))),
      y.1 ≠ some true := by
    intro y hy ht
    obtain ⟨p, hp, hy⟩ := mem_flatMap.mp hy
    rw [fst_of_mem_evalBranches ca (fun e he => fst_of_mem_insertEntries he) hy] at ht
    obtain ⟨as, ha⟩ := (hk p (mem_of_mem_survivors hp)).update_of_both ht
    simp [insertEntries, ha, evalBranches] at hy
  rw [column_eq_caseWhen, caseWhen_of_forall_ne hi, caseWhen_flatMap (fun p => p.op (.both t x))
      fun p y hy => fst_of_mem_evalBranches ca (fun e he => fst_of_mem_updateEntries he) hy]
  have hf : ps.find? (fun p => p.op (.both t x) == some true &&
        !(evalBranches ca (s.dataType c) (.both t x) (p.updateEntries (s.columnName c))).isEmpty) =
      ps.find? (fun q => q.holds (.both t x) && (q.gives (s.columnName c)).isSome) := by
    refine find?_congr fun p hp => ?_
    by_cases hh : p.op (.both t x) = some true
    · obtain ⟨as, ha⟩ := (hk p hp).update_of_both hh
      rw [(updateBlock_of_holds ca s ha hh c .null).1]
      simp [holds, hh]
    · have hh' : (p.op (.both t x) == some true) = false := by simpa using hh
      rw [holds, hh', Bool.false_and, Bool.false_and]
  rw [hf]
  cases hq : ps.find? fun q => q.holds (.both t x) && (q.gives (s.columnName c)).isSome with
  | none => rfl
  | some q =>
    have hs := find?_some hq
    rw [Bool.and_eq_true, holds_iff] at hs
    obtain ⟨as, ha⟩ := (hk q (mem_of_find?_eq_some hq)).update_of_both hs.1
    exact (updateBlock_of_holds ca s ha hs.1 c _).2 hs.2

lemma column_right (hk : ∀ p ∈ ps, p.WellKinded) (c : TargetColumn s.width) (x : σ) :
    (projectionOf ca s ps).column c (.right x) =
      match firstClause (survivors (s.columnName c) ps) (.right x) with
      | some q => q.valueFor ca s c (.right x)
      | none => .null := by
  have hu : ∀ y ∈ ps.flatMap (fun p =>
      evalBranches ca (s.dataType c) (.right x) (p.updateEntries (s.columnName c))),
      y.1 ≠ some true := by
    intro y hy ht
    obtain ⟨p, hp, hy⟩ := mem_flatMap.mp hy
    rw [fst_of_mem_evalBranches ca (fun e he => fst_of_mem_updateEntries he) hy] at ht
    obtain ⟨cs, ha⟩ := (hk p hp).insert_of_right ht
    simp [updateEntries, ha, evalBranches] at hy
  rw [column_eq_caseWhen, caseWhen_of_forall_ne hu, caseWhen_flatMap (fun p => p.op (.right x))
      fun p y hy => fst_of_mem_evalBranches ca (fun e he => fst_of_mem_insertEntries he) hy]
  have hf : (survivors (s.columnName c) ps).find? (fun p =>
        p.op (.right x) == some true &&
        !(evalBranches ca (s.dataType c) (.right x)
          (p.insertEntries (s.columnName c))).isEmpty) =
      firstClause (survivors (s.columnName c) ps) (.right x) := by
    refine find?_congr fun p hp => ?_
    by_cases hh : p.op (.right x) = some true
    · obtain ⟨cs, ha⟩ := (hk p (mem_of_mem_survivors hp)).insert_of_right hh
      rw [(insertBlock_of_holds ca s ha hh c .null).1]
      simp [holds, hh]
    · have hh' : (p.op (.right x) == some true) = false := by simpa using hh
      rw [holds, hh', Bool.false_and]
  rw [hf]
  cases hq : firstClause (survivors (s.columnName c) ps) (.right x) with
  | none => rfl
  | some q =>
    obtain ⟨hm, hh⟩ := firstClause_some hq
    obtain ⟨cs, ha⟩ := (hk q (mem_of_mem_survivors hm)).insert_of_right hh
    exact (insertBlock_of_holds ca s ha hh c _).2

lemma column_left
    (hk : ∀ p ∈ ps, p.WellKinded) (c : TargetColumn s.width) (t : TargetRow s.width α) :
    (projectionOf ca s ps).column c (.left t) = t.get c := by
  rw [column_eq_caseWhen, caseWhen_of_forall_ne, caseWhen_of_forall_ne]
  · rfl
  · intro y hy
    obtain ⟨p, hp, hy⟩ := mem_flatMap.mp hy
    rw [fst_of_mem_evalBranches ca (fun e he => fst_of_mem_insertEntries he) hy]
    exact (hk p (mem_of_mem_survivors hp)).op_left_ne t
  · intro y hy
    obtain ⟨p, hp, hy⟩ := mem_flatMap.mp hy
    rw [fst_of_mem_evalBranches ca (fun e he => fst_of_mem_updateEntries he) hy]
    exact (hk p hp).op_left_ne t

lemma column_unnamed (hk : ∀ p ∈ ps, p.WellKinded) {c : TargetColumn s.width}
    (hc : ∀ p ∈ ps, p.gives (s.columnName c) = none) (r : MergeRow s.width α σ) :
    (projectionOf ca s ps).column c r = r.col c := by
  cases r with
  | left t => exact column_left ca s hk c t
  | both t x =>
    rw [column_both ca s hk]
    have hf : ps.find? (fun q =>
        q.holds (.both t x) && (q.gives (s.columnName c)).isSome) = none := by
      rw [find?_eq_none]
      intro q hq
      simp [hc q hq]
    rw [hf]
    rfl
  | right x =>
    rw [column_right ca s hk]
    cases hq : firstClause (survivors (s.columnName c) ps) (.right x) with
    | none => rfl
    | some q =>
      obtain ⟨hm, hh⟩ := firstClause_some hq
      have hqs := mem_of_mem_survivors hm
      obtain ⟨cols, ha⟩ := (hk q hqs).insert_of_right hh
      simp [valueFor, hc q hqs, ha, col]

end Value

section FirstMatch

variable [DecidableEq τ] (cast ca : τ → ScalarValue α → ScalarValue α) (s : TableSchema τ)

lemma column_eq_prescribed_iff {ps : List (PlannedClause τ (MergeRow s.width α σ) α)}
    (hk : ∀ p ∈ ps, p.WellKinded) (row : MergeRow s.width α σ) :
    (∀ c, (projectionOf ca s ps).column c row = prescribed ca s ps c row) ↔
      ShadowFree ca s ps row := by
  simp only [prescribed]
  cases row with
  | left t =>
    have hn : firstClause ps (.left t) = none :=
      firstClause_eq_none_iff.mpr fun p hp => (hk p hp).op_left_ne t
    simp [column_left ca s hk, hn, col, ShadowFree]
  | right x =>
    refine forall_congr' fun c => ?_
    rw [column_right ca s hk]
    cases hf : firstClause ps (.right x) with
    | none =>
      have hsur : firstClause (survivors (s.columnName c) ps) (.right x) = none :=
        firstClause_eq_none_iff.mpr fun p hp =>
          firstClause_eq_none_iff.mp hf p (mem_of_mem_survivors hp)
      simp [hsur, col]
    | some p => simp [eq_comm]
  | both t x =>
    refine forall_congr' fun c => ?_
    rw [column_both ca s hk]
    cases hf : firstClause ps (.both t x) with
    | none =>
      have hfin : ps.find? (fun q =>
          q.holds (.both t x) && (q.gives (s.columnName c)).isSome) = none := by
        rw [find?_eq_none]
        intro q hq hs
        rw [Bool.and_eq_true, holds_iff] at hs
        exact firstClause_eq_none_iff.mp hf q hq hs.1
      simp [hfin, col]
    | some p =>
      obtain ⟨hm, hh⟩ := firstClause_some hf
      cases hg : p.gives (s.columnName c) with
      | none =>
        -- the first clause leaves the column out: the next one that assigns it wins
        have hv : p.valueFor ca s c (.both t x) = t.get c := by
          obtain ⟨as, ha⟩ := (hk p hm).update_of_both hh
          simp [valueFor, hg, ha, col]
        cases hq : ps.find? fun q =>
            q.holds (.both t x) && (q.gives (s.columnName c)).isSome with
        | none => simp [hv]
        | some q => simp [hv, hg]
      | some e =>
        have hfin : ps.find? (fun q =>
            q.holds (.both t x) && (q.gives (s.columnName c)).isSome) = some p := by
          obtain ⟨-, as, bs, r, has⟩ := find?_eq_some_iff_append.mp hf
          refine find?_eq_some_iff_append.mpr ⟨?_, as, bs, r, ?_⟩
          · simp [holds, hh, hg]
          · intro q hq
            have hq' : q.holds (.both t x) = false := by simpa using has q hq
            simp [hq']
        simp [hfin, hg]

/-! ### Main result -/

/-- **The first clause that holds decides**, exactly on `ShadowFree` rows. -/
theorem mergeClauseProjection_first_match_iff {Sql : Type}
    (planner : SqlPlanner Sql τ (MergeRow s.width α σ) α) (clauses : List (MergeClause Sql))
    (hs : ∀ clause ∈ clauses, clause.Supported)
    (ps : List (PlannedClause τ (MergeRow s.width α σ) α))
    (hps : clauses.mapM (planClause planner) = .ok ps) :
    ∃ proj, mergeClauseProjection cast s planner clauses = .ok proj ∧
      ∀ row, (∀ c, proj.column c row = prescribed cast s ps c row) ↔ ShadowFree cast s ps row :=
  ⟨projectionOf cast s ps, mergeClauseProjection_of_mapM cast s planner hps,
    column_eq_prescribed_iff cast s (mapM_planClause_wellKinded hps hs)⟩

end FirstMatch

def twoColumns : TableSchema Unit where
  width := 2
  name := !["a", "b"]
  dataType _ := ()
  name_injective := by decide
  name_notMem_auxiliary := by decide

instance neZero_two : NeZero 2 := ⟨by decide⟩

def columnB : TargetColumn twoColumns.width := .table (1 : Fin 2)

def literalPlanner : SqlPlanner ℤ Unit (MergeRow twoColumns.width ℤ ℤ) ℤ where
  toExpr n := .ok ⟨some (), fun _ => .other n⟩
  toCondition n := .ok fun _ => some (n != 0)
  toSourceExpr n := .ok ⟨some (), fun _ => .other n⟩

def partialUpdates : List (MergeClause ℤ) :=
  [⟨.matched, none, .update [(.columnName ["a"], 1)]⟩,
    ⟨.matched, none, .update [(.columnName ["b"], 2)]⟩]

def partialInserts : List (MergeClause ℤ) :=
  [⟨.notMatched, none, .insert ["a", "b"] (.values [[1, 2]])⟩,
    ⟨.notMatched, some 0, .insert ["a"] (.values [[3]])⟩]

def zeroRow : TargetRow twoColumns.width ℤ := ⟨"f.parquet", "m.avro", fun _ => .other 0⟩

theorem first_match_fails_on_partial_clauses :
    (∃ ps proj, partialUpdates.mapM (planClause literalPlanner) = .ok ps ∧
      mergeClauseProjection (fun _ v => v) twoColumns literalPlanner partialUpdates = .ok proj ∧
      prescribed (fun _ v => v) twoColumns ps columnB (.both zeroRow 7) = .other 0 ∧
      proj.column columnB (.both zeroRow 7) = .other 2) ∧
    (∃ ps proj, partialInserts.mapM (planClause literalPlanner) = .ok ps ∧
      mergeClauseProjection (fun _ v => v) twoColumns literalPlanner partialInserts = .ok proj ∧
      prescribed (fun _ v => v) twoColumns ps columnB (.right 7) = .other 2 ∧
      proj.column columnB (.right 7) = .null) :=
  ⟨⟨_, _, rfl, rfl, rfl, rfl⟩, ⟨_, _, rfl, rfl, rfl, rfl⟩⟩

theorem first_match_iff_on_partial_updates :
    ∃ ps, partialUpdates.mapM (planClause literalPlanner) = .ok ps ∧
      ∃ proj, mergeClauseProjection (fun _ v => v) twoColumns literalPlanner
          partialUpdates = .ok proj ∧
        ∀ row, (∀ c, proj.column c row = prescribed (fun _ v => v) twoColumns ps c row) ↔
          ShadowFree (fun _ v => v) twoColumns ps row :=
  ⟨_, rfl, mergeClauseProjection_first_match_iff (fun _ v => v) twoColumns literalPlanner
    partialUpdates (by simp [partialUpdates, MergeClause.Supported]) _ rfl⟩

end Rustice
