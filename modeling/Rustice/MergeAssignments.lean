import Rustice.FirstMatch
import Rustice.ObjectName

/-!
# The Assignments of a MERGE

A `MERGE` names columns in two places: on the left of an `UPDATE SET`, and in the column list of an
`INSERT`.
-/

namespace Rustice

open List

open ClauseState

variable {τ α σ Sql : Type}

structure NamePrinter where
  escape : Char → String → String
  function : Ident → String

def NamePrinter.ident (printer : NamePrinter) (ident : Ident) : String :=
  match ident.quoteStyle with
  | none => ident.value
  | some '[' => "[" ++ ident.value ++ "]"
  | some quote => String.singleton quote ++ printer.escape quote ident.value ++
      String.singleton quote

def NamePrinter.part (printer : NamePrinter) : NamePart → String
  | .identifier ident => printer.ident ident
  | .function name => printer.function name

def NamePrinter.name (printer : NamePrinter) (parts : List NamePart) : String :=
  ".".intercalate (parts.map printer.part)

inductive NamedTarget where
  | columnName (parts : List NamePart)
  | tuple (names : List (List NamePart))

inductive NamedAction (Sql : Type) where
  | update (assignments : List (NamedTarget × Sql))
  | insert (columns : List (List NamePart)) (kind : MergeInsertKind Sql)
  | delete

structure NamedClause (Sql : Type) where
  clauseKind : MergeClauseKind
  predicate : Option Sql
  action : NamedAction Sql

def NamedTarget.print (printer : NamePrinter) : NamedTarget → AssignmentTarget
  | .columnName parts => .columnName (parts.map printer.part)
  | .tuple names => .tuple (names.map fun parts => parts.map printer.part)

def NamedAction.print (printer : NamePrinter) : NamedAction Sql → MergeAction Sql
  | .update assignments => .update (assignments.map fun a => (a.1.print printer, a.2))
  | .insert columns kind => .insert (columns.map printer.name) kind
  | .delete => .delete

def NamedClause.print (printer : NamePrinter) (clause : NamedClause Sql) : MergeClause Sql :=
  ⟨clause.clauseKind, clause.predicate, clause.action.print printer⟩

def denotes (parts : List NamePart) (name : String) : Bool :=
  match parts.getLast? with
  | some (.identifier ⟨value, some _⟩) => value == name
  | some (.identifier ⟨value, none⟩) => eqIgnoreAsciiCase value name
  | _ => false

section Branches

variable {ρ : Type} (s : TableSchema τ)

def caseBranches (ps : List (PlannedClause τ ρ α)) (c : TargetColumn s.width) :
    List (ClauseEntry τ ρ α) :=
  let st := ps.foldl (add s) init
  st.updates.entries (s.columnName c) ++ st.inserts.entries (s.columnName c)

/-- A branch that the clauses leave for a name. -/
def LeavesBranch (ps : List (PlannedClause τ ρ α)) (name : String)
    (entry : ClauseEntry τ ρ α) : Prop :=
  (∃ p ∈ ps, entry ∈ p.updateEntries name) ∨ ∃ p ∈ survivors name ps, entry ∈ p.insertEntries name

lemma mem_caseBranches_iff {ps : List (PlannedClause τ ρ α)} {c : TargetColumn s.width}
    {entry : ClauseEntry τ ρ α} :
    entry ∈ caseBranches s ps c ↔ LeavesBranch ps (s.columnName c) entry := by
  have hu := entries_updates_foldl s (s.columnName c) ps
    (init : ClauseState τ ρ α)
  have hi := entries_inserts_foldl s (s.columnName_mem_columnNames c) ps
    (init : ClauseState τ ρ α)
  have hnil : ClauseMap.entries (fun _ => none : ClauseMap τ ρ α) (s.columnName c) = [] := rfl
  simp only [init, hnil, ite_self, nil_append] at hu hi
  rw [caseBranches, init, hu, hi, mem_append, mem_flatMap,
    mem_flatMap, LeavesBranch]

end Branches

section Kept

variable (printer : NamePrinter) (s : TableSchema τ)
  (planner : SqlPlanner Sql τ (MergeRow s.width α σ) α)
  (ps : List (PlannedClause τ (MergeRow s.width α σ) α))

/-- The column reads what was filed under the text of the name, and the branch is there. -/
def IsUsed (parts : List NamePart) (text : String)
    (entry : ClauseEntry τ (MergeRow s.width α σ) α) : Prop :=
  ∃ c, denotes parts (s.columnName c) = true ∧ text = s.columnName c ∧ entry ∈ caseBranches s ps c

def ClauseKept (clause : NamedClause Sql)
    (op : MergeRow s.width α σ → Truth) : Prop :=
  match clause.action with
  | .update assignments =>
    ∀ parts sql, (NamedTarget.columnName parts, sql) ∈ assignments →
      ∃ part e, parts.getLast? = some part ∧ planner.toExpr sql = .ok e ∧
        IsUsed s ps parts (printer.part part) (op, e)
  | .insert [] (.values [row]) =>
    row.length = s.width ∧ ∀ (i : Fin s.width) sql, row[i.val]? = some sql →
      ∃ e, planner.toSourceExpr sql = .ok e ∧ (op, e) ∈ caseBranches s ps (.table i)
  | .insert columns (.values [row]) =>
    columns.length = row.length ∧ ∀ parts sql, (parts, sql) ∈ columns.zip row →
      ∃ e, planner.toSourceExpr sql = .ok e ∧ IsUsed s ps parts (printer.name parts) (op, e)
  | _ => True

/-- Names are printed as the columns they denote, and the values of an `INSERT` are kept. -/
def ClauseExact (clause : NamedClause Sql)
    (op : MergeRow s.width α σ → Truth) : Prop :=
  match clause.action with
  | .update assignments =>
    ∀ parts sql, (NamedTarget.columnName parts, sql) ∈ assignments →
      ∃ part c, parts.getLast? = some part ∧ denotes parts (s.columnName c) = true ∧
        printer.part part = s.columnName c
  | .insert [] (.values [row]) =>
    row.length = s.width ∧ ∀ (i : Fin s.width) sql, row[i.val]? = some sql →
      ∃ e, planner.toSourceExpr sql = .ok e ∧ LeavesBranch ps (s.name i) (op, e)
  | .insert columns (.values [row]) =>
    columns.length = row.length ∧ ∀ parts sql, (parts, sql) ∈ columns.zip row →
      ∃ c, denotes parts (s.columnName c) = true ∧ printer.name parts = s.columnName c ∧
        ∀ e, planner.toSourceExpr sql = .ok e → LeavesBranch ps (s.columnName c) (op, e)
  | _ => True

section Inversion

variable {printer s planner ps}
  {cl : NamedClause Sql} {p : PlannedClause τ (MergeRow s.width α σ) α} {pas : List NamePart}

lemma planned_update {ass : List (NamedTarget × Sql)}
    (hpl : planClause planner (cl.print printer) = .ok p)
    (hacti : cl.action = .update ass) {sql : Sql} (hm : (NamedTarget.columnName pas, sql) ∈ ass) :
    ∃ pt e, pas.getLast? = some pt ∧ planner.toExpr sql = .ok e ∧
      (p.op, e) ∈ p.updateEntries (printer.part pt) := by
  obtain ⟨-, hac⟩ := planClause_inv hpl
  simp only [NamedClause.print, hacti, NamedAction.print] at hac
  cases hp : p.action with
  | insert columns => simp [hp] at hac
  | delete => simp [hp] at hac
  | update planned =>
    simp only [hp] at hac
    obtain ⟨⟨text, e⟩, hpai, ha⟩ := exists_mem_of_mapM_eq_ok hac
      (mem_map_of_mem (f := fun a : NamedTarget × Sql => (a.1.print printer, a.2)) hm)
    simp only [NamedTarget.print, planAssignment, getLast?_map] at ha
    cases hl : pas.getLast? with
    | none =>
      rw [hl] at ha
      cases ha
    | some pt =>
      rw [hl] at ha
      obtain ⟨e', he, hpur⟩ := bind_eq_ok.mp ha
      obtain ⟨rfl, rfl⟩ := Prod.mk.inj (pure_eq_ok.mp hpur)
      refine ⟨pt, e', rfl, he, ?_⟩
      simp only [PlannedClause.updateEntries, hp]
      exact mem_map.mpr ⟨_, mem_filter.mpr ⟨hpai, beq_self_eq_true _⟩, rfl⟩

lemma planned_insert {cs : List (List NamePart)} {row : List Sql}
    (hpl : planClause planner (cl.print printer) = .ok p)
    (hac : cl.action = .insert cs (.values [row]))
    {sq : Sql} (hm : (pas, sq) ∈ cs.zip row) : ∃ e, planner.toSourceExpr sq = .ok e := by
  obtain ⟨-, ha⟩ := planClause_inv hpl
  simp only [NamedClause.print, hac, NamedAction.print] at ha
  cases hp : p.action with
  | update pl => simp [hp] at ha
  | delete => simp [hp] at ha
  | insert pl =>
    simp only [hp, planInsert] at ha
    have hz : (printer.name pas, sq) ∈ (cs.map printer.name).zip row := by
      rw [zip_map_left]
      exact mem_map.mpr ⟨(pas, sq), hm, rfl⟩
    obtain ⟨_, hv⟩ := exists_of_mapM_eq_ok ha hz
    obtain ⟨e, he, -⟩ := bind_eq_ok.mp hv
    exact ⟨e, he⟩

lemma clauseKept_iff (hp : planClause planner (cl.print printer) = .ok p) (hm : p ∈ ps) :
    ClauseKept printer s planner ps cl p.op ↔ ClauseExact printer s planner ps cl p.op := by
  rw [ClauseKept, ClauseExact]
  cases ha : cl.action with
  | delete => exact Iff.rfl
  | update assignments =>
    refine forall_congr' fun parts => forall_congr' fun sq => forall_congr' fun has => ?_
    obtain ⟨part, e, hl, he, hb⟩ := planned_update hp ha has
    constructor
    · rintro ⟨part', -, hl', -, c, hd, ht, -⟩
      exact ⟨part', c, hl', hd, ht⟩
    · rintro ⟨part', c, hl', hd, ht⟩
      obtain rfl : part = part' := Option.some.inj (hl.symm.trans hl')
      refine ⟨part, e, hl, he, c, hd, ht, (mem_caseBranches_iff s).mpr ?_⟩
      rw [ht] at hb
      exact .inl ⟨p, hm, hb⟩
  | insert cs k =>
    rcases k with (_ | ⟨r, _ | ⟨r', rows⟩⟩) | _
    · cases cs <;> exact Iff.rfl
    · cases cs with
      | nil => simp only [mem_caseBranches_iff, TableSchema.columnName]
      | cons name names =>
        refine and_congr_right fun _ => forall_congr' fun parts => forall_congr' fun sq =>
          forall_congr' fun hv => ?_
        obtain ⟨e, he⟩ := planned_insert hp ha hv
        simp only [IsUsed, mem_caseBranches_iff]
        constructor
        · rintro ⟨e', he', c, hd, ht, hb⟩
          refine ⟨c, hd, ht, fun e'' he'' => ?_⟩
          obtain rfl : e' = e'' := Except.ok.inj (he'.symm.trans he'')
          exact hb
        · rintro ⟨c, hd, ht, hb⟩
          exact ⟨e, he, c, hd, ht, hb e he⟩
    · cases cs <;> exact Iff.rfl
    · cases cs <;> exact Iff.rfl

end Inversion

variable [DecidableEq τ] (cast : τ → ScalarValue α → ScalarValue α)

/-- Planning fails, or every assignment is used. -/
def AssignmentsKept (clauses : List (NamedClause Sql)) : Prop :=
  ∀ proj, mergeClauseProjection cast s planner (clauses.map (·.print printer)) = .ok proj →
    ∃ ps, (clauses.map (·.print printer)).mapM (planClause planner) = .ok ps ∧
      proj = projectionOf cast s ps ∧
      ∀ clause ∈ clauses, ∃ op, clauseCondition planner (clause.print printer) = .ok op ∧
        ClauseKept printer s planner ps clause op

/-! ### Main result -/

/-- **No assignment is dropped** exactly if every clause names the columns as they are spelled. -/
theorem assignmentsKept_iff (clauses : List (NamedClause Sql)) :
    AssignmentsKept printer s planner cast clauses ↔
      ∀ ps, (clauses.map (·.print printer)).mapM (planClause planner) = .ok ps →
        ∀ clause ∈ clauses, ∀ op, clauseCondition planner (clause.print printer) = .ok op →
          ClauseExact printer s planner ps clause op := by
  constructor
  · intro h ps hps clause hm op ho
    obtain ⟨ps', hp', -, hk⟩ := h _ (mergeClauseProjection_of_mapM cast s planner hps)
    obtain rfl : ps = ps' := Except.ok.inj (hps.symm.trans hp')
    obtain ⟨op', ho', hc⟩ := hk clause hm
    obtain rfl : op = op' := Except.ok.inj (ho.symm.trans ho')
    obtain ⟨p, hp, hpl⟩ := exists_mem_of_mapM_eq_ok hps (mem_map_of_mem hm)
    obtain rfl : op = p.op := Except.ok.inj (ho.symm.trans (planClause_inv hpl).1)
    exact (clauseKept_iff hpl hp).mp hc
  · intro h proj hpr
    obtain ⟨ps, hps⟩ := exists_mapM_of_mergeClauseProjection cast s planner hpr
    refine ⟨ps, hps, Except.ok.inj (hpr.symm.trans
      (mergeClauseProjection_of_mapM cast s planner hps)), fun clause hm => ?_⟩
    obtain ⟨p, hp, hpl⟩ := exists_mem_of_mapM_eq_ok hps (mem_map_of_mem hm)
    have ho := (planClause_inv hpl).1
    exact ⟨p.op, ho, (clauseKept_iff hpl hp).mpr (h ps hps clause hm p.op ho)⟩

end Kept

def plainPrinter : NamePrinter := ⟨fun _ value => value, fun name => name.value⟩

def upperUpdate : List (NamedClause ℤ) :=
  [⟨.matched, none, .update [(.columnName [.identifier (.new "A")], 1)]⟩]

def bareInsert : List (NamedClause ℤ) :=
  [⟨.notMatched, none, .insert [] (.values [[1, 2]])⟩]

def shortInsert : List (NamedClause ℤ) :=
  [⟨.notMatched, none, .insert [[.identifier (.new "a")]] (.values [[1, 2]])⟩]

def columnA : TargetColumn twoColumns.width := .table (0 : Fin 2)

theorem assignments_dropped :
    ¬ AssignmentsKept plainPrinter twoColumns literalPlanner (fun _ v => v) upperUpdate ∧
    (∃ proj, mergeClauseProjection (fun _ v => v) twoColumns literalPlanner
        (upperUpdate.map (·.print plainPrinter)) = .ok proj ∧
      proj.column columnA (.both zeroRow 7) = .other 0) ∧
    (∃ proj, mergeClauseProjection (fun _ v => v) twoColumns literalPlanner
        (bareInsert.map (·.print plainPrinter)) = .ok proj ∧
      proj.column columnA (.right 7) = .null) ∧
    ∃ proj, mergeClauseProjection (fun _ v => v) twoColumns literalPlanner
        (shortInsert.map (·.print plainPrinter)) = .ok proj ∧
      proj.column columnB (.right 7) = .null := by
  refine ⟨fun h => ?_, ⟨_, rfl, rfl⟩, ⟨_, rfl, rfl⟩, ⟨_, rfl, rfl⟩⟩
  obtain ⟨ps, -, -, hk⟩ := h _ rfl
  obtain ⟨op, -, hc⟩ := hk _ mem_cons_self
  obtain ⟨part, e, hl, -, c, -, ht, -⟩ := hc _ _ mem_cons_self
  obtain rfl := Option.some.inj hl
  have hn : "A" ∉ twoColumns.columnNames := by decide
  refine hn ?_
  rw [show "A" = twoColumns.columnName c from ht]
  exact twoColumns.columnName_mem_columnNames c

end Rustice
