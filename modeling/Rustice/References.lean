import Rustice.ObjectName
import Rustice.ScopeTree

/-!
# Table References

`update_statement_references` qualifies the relations of a statement.
-/

namespace Rustice

abbrev ObjectName := List NamePart

abbrev SqlStatement := ScopeTree ObjectName Ident

inductive DfStatement where
  | statement (stmt : SqlStatement)
  | other

inductive ReferenceError (ε : Type) where
  | dataFusion (error : ε)

namespace NameContext

variable (ctx : NameContext) (tableFunction : String → Bool) {nm : List String}

def cteNames (stmt : SqlStatement) : List String :=
  stmt.binders.map fun ident => (ctx.normalizeIdent ident).value

structure ReferenceResolver (ε : Type) where
  resolve : DfStatement → Except ε (List String)
  mem_iff : ∀ {stmt : SqlStatement} {names : List String}, resolve (.statement stmt) = .ok names →
    ∀ name, name ∈ names ↔ name ∈ ctx.cteNames stmt

def objectNameText (name : ObjectName) : String := ".".intercalate (name.map ctx.display)

def isTableFunc (name : ObjectName) : Bool :=
  tableFunction (toAsciiLowercase (ctx.objectNameText name))

def resolveRelation (name : ObjectName) : Except NameError ObjectName :=
  (ctx.resolveTableObjectName name).map (List.map .identifier)

def visitRelation (cteNames : List String) (name : ObjectName) : Except NameError ObjectName :=
  if ctx.objectNameText name ∉ cteNames ∧ ctx.isTableFunc tableFunction name = false then
    ctx.resolveRelation name
  else .ok name

def updateStatementReferences {ε : Type} (resolver : ctx.ReferenceResolver ε)
    (statement : DfStatement) : Except (ReferenceError ε) DfStatement :=
  match resolver.resolve statement with
  | .error e => .error (.dataFusion e)
  | .ok cteNames =>
    match statement with
    -- the error that stopped the visit is discarded
    | .statement stmt =>
      .ok (.statement (stmt.visit (ctx.visitRelation tableFunction cteNames)).1)
    | .other => .ok .other

def bareName : ObjectName → Option Ident
  | [.identifier ident] => some ident
  | _ => none

def isCteInScope (scope : List Ident) (name : ObjectName) : Bool :=
  (bareName name).any fun ident =>
    (ctx.normalizeIdent ident).value ∈ scope.map fun binder => (ctx.normalizeIdent binder).value

def qualifyRelation (scope : List Ident) (name : ObjectName) : Except NameError ObjectName :=
  if ctx.isCteInScope scope name ∨
      (bareName name).isSome ∧ ctx.isTableFunc tableFunction name then .ok name
  else ctx.resolveRelation name

def qualify (stmt : SqlStatement) : Except NameError SqlStatement :=
  stmt.rewrite (ctx.qualifyRelation tableFunction) []

def IsQualified (name : ObjectName) : Prop := ctx.resolveRelation name = .ok name

/-- A relation the visitor treats right: qualified already; a bare table function; or of one to
three parts, with the text of a common table expression just when it is a bare name of one in scope.
-/
def Treated (stmt : SqlStatement) (occurrence : List Ident × ObjectName) : Prop :=
  ctx.IsQualified occurrence.2 ∨
    if ctx.isTableFunc tableFunction occurrence.2 then (bareName occurrence.2).isSome = true
    else
      (1 ≤ occurrence.2.length ∧ occurrence.2.length ≤ 3) ∧
        (ctx.objectNameText occurrence.2 ∈ ctx.cteNames stmt ↔
          ctx.isCteInScope occurrence.1 occurrence.2 = true)

variable {ctx tableFunction} {name : ObjectName} {sc : List Ident} {s : SqlStatement}

lemma resolveRelation_eq_ok_iff : (∃ r, ctx.resolveRelation name = .ok r) ↔
    1 ≤ name.length ∧ name.length ≤ 3 := by
  match name with
  | [] => simp [resolveRelation, resolveTableObjectName, Except.map]
  | [_] => simp [resolveRelation, resolveTableObjectName, Except.map]
  | [_, _] => simp [resolveRelation, resolveTableObjectName, Except.map]
  | [_, _, _] => simp [resolveRelation, resolveTableObjectName, Except.map]
  | _ :: _ :: _ :: _ :: _ => simp [resolveRelation, resolveTableObjectName, Except.map]

lemma length_of_bareName (h : (bareName name).isSome) : 1 ≤ name.length ∧ name.length ≤ 3 := by
  rw [bareName.eq_def] at h
  split at h
  · simp
  · cases h

lemma isSome_bareName_of_isCteInScope
    (h : ctx.isCteInScope sc name = true) : (bareName name).isSome := by
  rw [isCteInScope] at h
  cases hb : bareName name with
  | none => rw [hb] at h; cases h
  | some ident => rfl

lemma agree_iff_treated
    (hn : ∀ name, name ∈ nm ↔ name ∈ ctx.cteNames s) {occurrence : List Ident × ObjectName} :
    ScopeTree.Agree (ctx.visitRelation tableFunction nm)
        (ctx.qualifyRelation tableFunction) occurrence ↔
          ctx.Treated tableFunction s occurrence := by
  obtain ⟨sc, name⟩ := occurrence
  simp only [ScopeTree.Agree, visitRelation, qualifyRelation, Treated, IsQualified, hn]
  by_cases hq : ctx.resolveRelation name = .ok name
  · simp [hq]
  · simp only [hq, false_or]
    by_cases hf : ctx.isTableFunc tableFunction name = true
    · by_cases hb : (bareName name).isSome
      · simp [hf, hb]
      · have hs : ctx.isCteInScope sc name ≠ true := fun h =>
          hb (isSome_bareName_of_isCteInScope h)
        simp [hf, hb, hs, hq]
    · simp only [Bool.not_eq_true] at hf
      by_cases hs : ctx.isCteInScope sc name = true
      · have hl := length_of_bareName (isSome_bareName_of_isCteInScope hs)
        by_cases ht : ctx.objectNameText name ∈ ctx.cteNames s
        · simp [hf, hs, ht, hl]
        · simp [hf, hs, ht, hq]
      · by_cases ht : ctx.objectNameText name ∈ ctx.cteNames s
        · simp [hf, hs, ht, hq]
        · simp [hf, hs, ht, ← @resolveRelation_eq_ok_iff ctx]

lemma qualifyRelation_eq_ok_iff : (∃ n, ctx.qualifyRelation tableFunction sc name = .ok n) ↔
    1 ≤ name.length ∧ name.length ≤ 3 := by
  rw [qualifyRelation]
  split
  case isTrue hb =>
    have hs : (bareName name).isSome :=
      hb.elim isSome_bareName_of_isCteInScope And.left
    exact ⟨fun _ => length_of_bareName hs, fun _ => ⟨name, rfl⟩⟩
  case isFalse => exact resolveRelation_eq_ok_iff

lemma qualifyRelation_ne_ok {n : ObjectName}
    {e : NameError} (h : ctx.visitRelation tableFunction nm name = .error e) :
    ctx.qualifyRelation tableFunction sc name ≠ .ok n := by
  have he : ctx.resolveRelation name = .error e := by
    rw [visitRelation] at h
    split at h
    · exact h
    · cases h
  intro hn
  obtain ⟨resolved, ho⟩ :=
    (@resolveRelation_eq_ok_iff ctx name).mpr (qualifyRelation_eq_ok_iff.mp ⟨n, hn⟩)
  rw [he] at ho
  cases ho

lemma qualify_eq_ok_iff : (∃ q, ctx.qualify tableFunction s = .ok q) ↔
    ∀ o ∈ s.occurrences [], 1 ≤ o.2.length ∧ o.2.length ≤ 3 := by
  simp only [qualify, ScopeTree.exists_rewrite_eq_ok_iff, qualifyRelation_eq_ok_iff]

/-! ### Main result -/

/-- **Qualification respects scope** exactly if every relation is `Treated` right. -/
theorem updateStatementReferences_iff {ε : Type} (resolver : ctx.ReferenceResolver ε)
    (stmt : SqlStatement) :
    (match ctx.qualify tableFunction stmt with
      | .ok qualified =>
        ctx.updateStatementReferences tableFunction resolver (.statement stmt) =
          .ok (.statement qualified)
      | .error _ =>
        ∃ e, ctx.updateStatementReferences tableFunction resolver (.statement stmt) = .error e) ↔
      match resolver.resolve (.statement stmt) with
      | .ok _ => ∀ occurrence ∈ stmt.occurrences [], ctx.Treated tableFunction stmt occurrence
      | .error _ =>
        ∃ occurrence ∈ stmt.occurrences [],
          ¬(1 ≤ occurrence.2.length ∧ occurrence.2.length ≤ 3) := by
  cases hn : resolver.resolve (.statement stmt) with
  | error e =>
    have hiff := not_congr (@qualify_eq_ok_iff ctx tableFunction stmt)
    simp only [not_forall, exists_prop] at hiff
    rw [← hiff]
    simp only [updateStatementReferences, hn]
    cases ctx.qualify tableFunction stmt with
    | error e => simp
    | ok qualified => simp
  | ok names =>
    have hiff : stmt.rewrite (ctx.qualifyRelation tableFunction) [] =
        .ok (stmt.visit (ctx.visitRelation tableFunction names)).1 ↔ _ :=
      ScopeTree.rewrite_eq_ok_visit_iff fun _ _ _ => qualifyRelation_ne_ok
    simp only [agree_iff_treated (resolver.mem_iff hn)] at hiff
    dsimp only
    rw [← hiff, qualify]
    simp only [updateStatementReferences, hn]
    cases stmt.rewrite (ctx.qualifyRelation tableFunction) [] with
    | error e => simp
    | ok qualified => simp [eq_comm]

def printingContext : NameContext where
  currentDatabase := "embucket"
  currentSchema := "public"
  enableIdentNormalization := true
  display
    | .identifier ident =>
      match ident.quoteStyle with
      | some quote => .ofList ([quote] ++ ident.value.toList ++ [quote])
      | none => ident.value
    | .function name => name.value

def acceptAll (ctx : NameContext) : ctx.ReferenceResolver Unit where
  resolve
    | .statement stmt => .ok (ctx.cteNames stmt)
    | .other => .ok []
  mem_iff h _ := by rw [← Except.ok.inj h]

def relation (name : String) : SqlStatement := .name [.identifier (.new name)]

def publicRelation (name : String) : SqlStatement :=
  .name [.identifier (.new "embucket"), .identifier (.new "public"), .identifier (.new name)]

theorem updateStatementReferences_lower :
    printingContext.updateStatementReferences (fun _ => false) (acceptAll printingContext)
        (.statement (.bind false (.new "foo") (relation "t") (relation "foo"))) =
      .ok (.statement (.bind false (.new "foo") (publicRelation "t") (relation "foo"))) := by
  refine (@updateStatementReferences_iff printingContext (fun _ => false) Unit
    (acceptAll printingContext)
    (.bind false (.new "foo") (relation "t") (relation "foo"))).mpr ?_
  intro occurrence hm
  rcases List.mem_pair.mp hm with rfl | rfl
  · refine .inr ?_
    rw [if_neg (by decide)]
    exact ⟨by decide, by decide⟩
  · refine .inr ?_
    rw [if_neg (by decide)]
    exact ⟨by decide, by decide⟩

theorem updateStatementReferences_out_of_scope :
    (printingContext.qualify (fun _ => false)
        (.bind false (.new "foo") (relation "t") (relation "FOO")) =
      .ok (.bind false (.new "foo") (publicRelation "t") (relation "FOO")) ∧
    printingContext.updateStatementReferences (fun _ => false) (acceptAll printingContext)
        (.statement (.bind false (.new "foo") (relation "t") (relation "FOO"))) =
      .ok (.statement (.bind false (.new "foo") (publicRelation "t") (publicRelation "foo")))) ∧
    (printingContext.qualify (fun _ => false)
        (.seq (.bind false (.new "t") (relation "s") (relation "t")) (relation "t")) =
      .ok (.seq (.bind false (.new "t") (publicRelation "s") (relation "t"))
        (publicRelation "t")) ∧
    printingContext.updateStatementReferences (fun _ => false) (acceptAll printingContext)
        (.statement (.seq (.bind false (.new "t") (relation "s") (relation "t")) (relation "t"))) =
      .ok (.statement (.seq (.bind false (.new "t") (publicRelation "s") (relation "t"))
        (relation "t")))) :=
  ⟨⟨rfl, rfl⟩, rfl, rfl⟩

end NameContext

end Rustice
