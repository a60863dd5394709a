import Mathlib.Data.List.Nodup
import Rustice.LikePattern
import Rustice.References
import Rustice.StringLiteral

/-!
# SHOW

`show_query` writes the filters of a `SHOW` statement into the text of a query of the information
schema.
-/

namespace Rustice

open List Function String

inductive InfoColumn where
  | databaseName
  | schemaName
  | tableName
  | viewName
  | columnName
  | tableType
  | tableSchema
  | viewSchema
  deriving DecidableEq

def InfoColumn.text : InfoColumn → String
  | databaseName => "database_name"
  | schemaName => "schema_name"
  | tableName => "table_name"
  | viewName => "view_name"
  | columnName => "column_name"
  | tableType => "table_type"
  | tableSchema => "table_schema"
  | viewSchema => "view_schema"

abbrev InfoRow := InfoColumn → List Char

inductive ShowKind where
  | databases
  | schemas
  | tables
  | views
  | objects
  | columns
  deriving DecidableEq

inductive ShowType where
  | account
  | database
  | schema
  | table
  | view

structure ShowStatementIn where
  parentType : Option ShowType
  parentName : Option ObjectName

inductive ShowValue where
  | singleQuotedString (value : String)
  | otherString (value : String)
  | other

structure ShowOptions where
  showIn : Option ShowStatementIn
  startsWith : Option ShowValue

structure FullReference where
  catalog : String
  schema : String
  table : String

inductive ShowError where
  | databaseNotFound (db : String)
  | schemaNotFoundInDatabase (schema db : String)
  | tableNotFoundInSchemaInDatabase (table schema db : String)

def buildStartsWithFilter (startsWith : Option ShowValue) (columnName : String) : Option String :=
  match startsWith with
  | some (.singleQuotedString value) =>
    some (columnName ++ " LIKE '" ++ String.ofList (doubled value.toList) ++ "%'")
  | _ => none

def applyShowFilters (sql : String) (filters : List String) : String :=
  if filters.isEmpty then sql else sql ++ " WHERE " ++ " AND ".intercalate filters

def ShowKind.nameColumn : ShowKind → InfoColumn
  | databases => .databaseName
  | schemas => .schemaName
  | tables => .tableName
  | views => .viewName
  | objects => .tableName
  | columns => .columnName

def ShowKind.schemaColumn : ShowKind → Option InfoColumn
  | databases => none
  | schemas => none
  | tables => some .tableSchema
  | views => some .viewSchema
  | objects => some .tableSchema
  | columns => some .tableSchema

def ShowKind.defaultShowType : ShowKind → ShowType
  | databases => .account
  | schemas => .database
  | tables => .schema
  | views => .schema
  | objects => .schema
  | columns => .table

def showFilterTexts (kind : ShowKind) (options : ShowOptions) (reference : FullReference) :
    List String :=
  (if kind = .tables then ["table_type = 'TABLE'"] else []) ++
    (buildStartsWithFilter options.startsWith kind.nameColumn.text).toList ++
    ((kind.schemaColumn.filter fun _ => reference.schema ≠ "").map fun column =>
      column.text ++ " = '" ++ reference.schema ++ "'").toList ++
    (if kind = .columns ∧ options.showIn.isSome then ["table_name = '" ++ reference.table ++ "'"]
      else [])

inductive FilterOp where
  | equals
  | like

def FilterOp.text : FilterOp → String
  | equals => " = '"
  | like => " LIKE '"

def FilterOp.passes : FilterOp → List Char → List Char → Bool
  | equals, literal, text => text = literal
  | like, literal, text => likeMatch (likeTokens literal) text

def filterHeader (filter : InfoColumn × FilterOp) : List Char :=
  " AND ".toList ++ filter.1.text.toList ++ filter.2.text.toList

lemma filterHeader_eq (c : InfoColumn) (op : FilterOp) :
    filterHeader (c, op) = " AND ".toList ++ c.text.toList ++ op.text.toList := rfl

def readFilters (escapes : Bool) (filters : List (InfoColumn × FilterOp)) (text : String) :
    Option (List (List Char)) :=
  readFields escapes (filters.map filterHeader) (" AND ".toList ++ text.toList)

def allPass (filters : List (InfoColumn × FilterOp)) (literals : List (List Char))
    (row : InfoRow) : Bool :=
  (filters.zip literals).all fun f => f.1.2.passes f.2 (row f.1.1)

structure ShowEnv where
  names : NameContext
  hasCatalog : String → Bool
  hasSchema : String → String → Bool
  hasTable : String → String → String → Bool
  selectFrom : ShowKind → String → String
  backslashEscapes : Bool
  parseOther : String → Option (InfoRow → Bool)

namespace ShowEnv

variable (env : ShowEnv)

def informationSchema : String := "information_schema"

def showInParts (showIn : ShowStatementIn) : List String :=
  ((showIn.parentName.getD []).map fun
    | .identifier ident => env.names.display (.identifier (env.names.normalizeIdent ident))
    | .function _ => "").filter (· ≠ "")

def resolveShowInName (showIn : Option ShowStatementIn) (defaultShowType : ShowType) :
    Except ShowError FullReference :=
  match showIn with
  | none => .ok ⟨env.names.currentDatabase, env.names.currentSchema, ""⟩
  | some inClause =>
    let parts := env.showInParts inClause
    match inClause.parentType.getD defaultShowType with
    | .account | .database =>
      let database := String.join parts
      if env.hasCatalog database then .ok ⟨database, "", ""⟩
      else .error (.databaseNotFound database)
    | .schema =>
      let (database, schema) :=
        match parts with
        | [s] => (env.names.currentDatabase, s)
        | [d, s] => (d, s)
        | _ => ("", "")
      if !env.hasCatalog database then .error (.databaseNotFound database)
      -- the information schema is not registered in the catalog
      else if schema ≠ informationSchema ∧ env.hasSchema database schema = false then
        .error (.schemaNotFoundInDatabase schema database)
      else .ok ⟨database, schema, ""⟩
    | .table | .view =>
      let (database, schema, table) :=
        match parts with
        | [t] => (env.names.currentDatabase, env.names.currentSchema, t)
        | [s, t] => (env.names.currentDatabase, s, t)
        | [d, s, t] => (d, s, t)
        | _ => (env.names.currentDatabase, env.names.currentSchema, "")
      if !env.hasCatalog database then .error (.databaseNotFound database)
      else if !env.hasSchema database schema then
        .error (.schemaNotFoundInDatabase schema database)
      else if !env.hasTable database schema table then
        .error (.tableNotFoundInSchemaInDatabase table schema database)
      else .ok ⟨database, schema, table⟩

def showText (kind : ShowKind) (options : ShowOptions) (reference : FullReference) : String :=
  applyShowFilters (env.selectFrom kind reference.catalog) (showFilterTexts kind options reference)

def showQuery (kind : ShowKind) (options : ShowOptions) : Except ShowError String :=
  match kind with
  | .databases => .ok (env.showText .databases options ⟨env.names.currentDatabase, "", ""⟩)
  | kind => do
    let reference ← env.resolveShowInName options.showIn kind.defaultShowType
    .ok (env.showText kind options reference)

end ShowEnv

def ShowEnv.parse (env : ShowEnv) (sql : String) (filters : List (InfoColumn × FilterOp))
    (text : String) : Option (InfoRow → Bool) :=
  if text = sql then some fun _ => true
  else
    match text.toList.dropPrefix? (sql ++ " WHERE ").toList with
    | none => env.parseOther text
    | some clause =>
      match readFilters env.backslashEscapes filters (String.ofList clause) with
      | none => env.parseOther text
      | some literals => some (allPass filters literals)

inductive Want where
  | equals (value : List Char)
  | startsWith (value : List Char)
  deriving DecidableEq

namespace Want

def Holds : Want → List Char → Prop
  | equals value, text => text = value
  | startsWith value, text => value <+: text

def op : Want → FilterOp
  | equals _ => .equals
  | startsWith _ => .like

def raw : Want → List Char
  | equals value => value
  | startsWith value => doubled value ++ ['%']

def literal : Want → List Char
  | equals value => value
  | startsWith value => value ++ ['%']

def sample : Want → List Char
  | equals value => value
  | startsWith value => value

def Plain (escapes : Bool) : Want → Prop
  | equals value => ∀ c ∈ value, ¬IsSpecial escapes c
  | startsWith value => ∀ c ∈ value, IsLiteral c

/-- The filter with the literal passes what is wanted. -/
def Exact (want : Want) (literal : List Char) : Prop :=
  ∀ text, want.op.passes literal text = true ↔ want.Holds text

variable {escapes : Bool} {w : Want} {rest v r : List Char}

lemma holds_sample (w : Want) : w.Holds w.sample := by
  cases w with
  | equals vl => rfl
  | startsWith vl => exact prefix_rfl

lemma not_isSpecial_of_isLiteral {value : List Char} (h : ∀ c ∈ value, IsLiteral c) :
    escapes = true → '\\' ∉ value := fun _ hm => (h _ hm).2.2 rfl

lemma readLiteral_raw (h : w.Plain escapes) (hr : PlainHead escapes rest) :
    readLiteral escapes (w.raw ++ '\'' :: rest) = some (w.literal, rest) := by
  cases w with
  | equals vl => exact readLiteral_self h hr
  | startsWith vl =>
    have hp : ¬IsSpecial escapes '%' := by simp [IsSpecial]
    rw [raw, List.append_assoc, readLiteral_doubled (not_isSpecial_of_isLiteral h),
      singleton_append, readLiteral_cons hp, readLiteral_close hr.head?_ne]
    rfl

lemma exact_literal (h : w.Plain escapes) : w.Exact w.literal := by
  cases w with
  | equals vl => exact fun text => decide_eq_true_iff
  | startsWith vl => exact likeMatch_literal h

lemma plain_of_exact (hre : PlainHead escapes rest)
    (hr : readLiteral escapes (w.raw ++ '\'' :: rest) = some (v, r))
    (hex : w.Exact v) : w.Plain escapes := by
  cases w with
  | equals val =>
    have hv : val = v := of_decide_eq_true ((hex val).mpr rfl)
    exact (readLiteral_eq_self_iff hre).mp ⟨r, by rw [← hv] at hr; exact hr⟩
  | startsWith val =>
    have hp : ¬IsSpecial escapes '%' := by simp [IsSpecial]
    rw [raw, List.append_assoc, singleton_append] at hr
    by_cases he : escapes = true ∧ '\\' ∈ val
    · -- fewer characters are read, so a text that is too short passes
      have hl := length_shortest 'x' v
      have hs : (shortest 'x' (likeTokens v)).length < val.length := by
        rcases readLiteral_doubled_length he.1 hp rfl hre hr with
          ⟨hlas, -, hle⟩ | hlt
        · exact Nat.lt_of_lt_of_le (hl.2 hlas) (hle he.2)
        · exact Nat.lt_of_le_of_lt hl.1 hlt
      exact absurd hex (not_likeMatch_of_length hs)
    · rw [readLiteral_doubled fun h hm => he ⟨h, hm⟩, readLiteral_cons hp,
        readLiteral_close hre.head?_ne] at hr
      obtain ⟨rfl, -⟩ := Prod.mk.inj (Option.some.inj hr)
      exact likeMatch_prefix_iff.mp hex

end Want

structure ShowFilter where
  column : InfoColumn
  want : Want
  deriving DecidableEq

namespace ShowFilter

def shape (f : ShowFilter) : InfoColumn × FilterOp := (f.column, f.want.op)

def text (f : ShowFilter) : String :=
  f.column.text ++ f.want.op.text ++ String.ofList f.want.raw ++ "'"

def chars (f : ShowFilter) : List Char := filterHeader f.shape ++ (f.want.raw ++ ['\''])

variable {escapes : Bool} {fs : List ShowFilter} {ls : List (List Char)}

lemma chars_eq (f : ShowFilter) : f.chars = " AND ".toList ++ f.text.toList := by
  simp [chars, text, filterHeader_eq, shape]

lemma chars_intercalate (hne : fs ≠ []) :
    " AND ".toList ++ (" AND ".intercalate (fs.map text)).toList = fs.flatMap chars := by
  induction fs with
  | nil => exact absurd rfl hne
  | cons f fs ih =>
    cases fs with
    | nil => simp [chars_eq]
    | cons g fs =>
      rw [flatMap_cons, ← ih (cons_ne_nil _ _), chars_eq, toList_intercalate, toList_intercalate]
      simp [List.intercalate_cons_cons]

lemma plainHead_flatMap_chars : PlainHead escapes (fs.flatMap chars) := by
  intro c hc
  cases fs with
  | nil => cases hc
  | cons f fs =>
    obtain rfl : ' ' = c := Option.some.inj hc
    simp [IsSpecial]

lemma readFields_literal (h : ∀ f ∈ fs, f.want.Plain escapes) :
    readFields escapes (fs.map fun f => filterHeader f.shape) (fs.flatMap chars) =
      some (fs.map fun f => f.want.literal) := by
  induction fs with
  | nil => rfl
  | cons f fs ih =>
    rw [forall_mem_cons] at h
    rw [flatMap_cons, map_cons, chars, List.append_assoc, List.append_assoc, readFields_cons]
    exact ⟨_, _, _, Want.readLiteral_raw h.1 plainHead_flatMap_chars, ih h.2, rfl⟩

lemma plain_of_readFields
    (hr : readFields escapes (fs.map fun f => filterHeader f.shape) (fs.flatMap chars) = some ls)
    (he : ∀ x ∈ fs.zip ls, x.1.want.Exact x.2) : ∀ f ∈ fs, f.want.Plain escapes := by
  induction fs generalizing ls with
  | nil => simp
  | cons f fs ih =>
    rw [flatMap_cons, map_cons, chars, List.append_assoc, List.append_assoc, readFields_cons] at hr
    obtain ⟨v, r, vs, hl, hres, rfl⟩ := hr
    rw [zip_cons_cons, forall_mem_cons] at he
    have hp := Want.plain_of_exact plainHead_flatMap_chars hl he.1
    -- a plain filter is read up to its end
    rw [singleton_append, Want.readLiteral_raw hp plainHead_flatMap_chars] at hl
    obtain ⟨-, rfl⟩ := Prod.mk.inj (Option.some.inj hl)
    exact forall_mem_cons.mpr ⟨hp, ih hres he.2⟩

lemma exists_row (hn : (fs.map column).Nodup) :
    ∃ ro : InfoRow, ∀ f ∈ fs, ro f.column = f.want.sample := by
  induction fs with
  | nil => exact ⟨fun _ => [], by simp⟩
  | cons f fs ih =>
    rw [map_cons, nodup_cons] at hn
    obtain ⟨ro, hr⟩ := ih hn.2
    refine ⟨Function.update ro f.column f.want.sample, forall_mem_cons.mpr ⟨?_, ?_⟩⟩
    · exact update_self ..
    · intro g hg
      rw [update_of_ne, hr g hg]
      intro heq
      exact hn.1 (heq ▸ mem_map_of_mem hg)

lemma allPass_eq_true_iff {ro : InfoRow} : allPass (fs.map shape) ls ro = true ↔
    ∀ x ∈ fs.zip ls, x.1.want.op.passes x.2 (ro x.1.column) = true := by
  rw [allPass, zip_map_left, all_map, all_eq_true]
  rfl

lemma allPass_congr {ro ro' : InfoRow} (h : ∀ f ∈ fs, ro' f.column = ro f.column) :
    allPass (fs.map shape) ls ro' = true ↔ allPass (fs.map shape) ls ro = true := by
  rw [allPass_eq_true_iff, allPass_eq_true_iff]
  exact forall₂_congr fun x hx => by rw [h x.1 (of_mem_zip hx).1]

lemma allPass_exact_iff (hn : (fs.map column).Nodup) (hl : ls.length = fs.length) :
    (∀ ro, allPass (fs.map shape) ls ro = true ↔ ∀ f ∈ fs, f.want.Holds (ro f.column)) ↔
      ∀ x ∈ fs.zip ls, x.1.want.Exact x.2 := by
  have hw : ∀ ro : InfoRow, (∀ f ∈ fs, f.want.Holds (ro f.column)) ↔
      ∀ x ∈ fs.zip ls, x.1.want.Holds (ro x.1.column) := by
    intro ro
    rw [← map_fst_zip (Nat.le_of_eq hl.symm), forall_mem_map, map_fst_zip (Nat.le_of_eq hl.symm)]
  simp only [allPass_eq_true_iff, hw]
  constructor
  · intro h x hx t
    obtain ⟨ro, hr⟩ := exists_row hn
    have hs : ∀ y ∈ fs.zip ls, ro y.1.column = y.1.want.sample := fun y hy =>
      hr y.1 (of_mem_zip hy).1
    have hp := (h ro).mpr fun y hy => by rw [hs y hy]; exact y.1.want.holds_sample
    -- changing the text of one column leaves the other filters alone
    have ho : ∀ y ∈ fs.zip ls, y ≠ x →
        Function.update ro x.1.column t y.1.column = ro y.1.column := by
      intro y hy hne
      refine update_of_ne (fun heq => hne ?_) ..
      have hc : ((fs.zip ls).map (column ∘ Prod.fst)).Nodup := by
        rw [← List.map_map, map_fst_zip (Nat.le_of_eq hl.symm)]
        exact hn
      exact inj_on_of_nodup_map hc hy hx heq
    have hon := h (Function.update ro x.1.column t)
    constructor
    · intro hpas
      have ha := hon.mp fun y hy => by
        by_cases heq : y = x
        · rw [heq, update_self]
          exact hpas
        · rw [ho y hy heq]
          exact hp y hy
      have hx := ha x hx
      rwa [update_self] at hx
    · intro hh
      have ha := hon.mpr fun y hy => by
        by_cases heq : y = x
        · rw [heq, update_self]
          exact hh
        · rw [ho y hy heq, hs y hy]
          exact y.1.want.holds_sample
      have hx := ha x hx
      rwa [update_self] at hx
  · intro he ro
    exact forall₂_congr fun x hx => he x hx (ro x.1.column)

variable (escapes) in
lemma readFilters_exact_iff (hne : fs ≠ []) (hn : (fs.map column).Nodup) : (∃ ls,
      readFilters escapes (fs.map shape) (" AND ".intercalate (fs.map text)) = some ls ∧
        ∀ ro, allPass (fs.map shape) ls ro = true ↔ ∀ f ∈ fs, f.want.Holds (ro f.column)) ↔
    ∀ f ∈ fs, f.want.Plain escapes := by
  have hr : readFilters escapes (fs.map shape) (" AND ".intercalate (fs.map text)) =
      readFields escapes (fs.map fun f => filterHeader f.shape) (fs.flatMap chars) := by
    rw [readFilters, chars_intercalate hne, List.map_map]
    rfl
  rw [hr]
  constructor
  · rintro ⟨ls, hl, he⟩
    have hlen := length_of_readFields hl
    rw [List.length_map] at hlen
    exact plain_of_readFields hl ((allPass_exact_iff hn hlen).mp he)
  · intro hp
    refine ⟨_, readFields_literal hp, (allPass_exact_iff hn (List.length_map ..)).mpr ?_⟩
    have hz : fs.zip (fs.map fun f => f.want.literal) = fs.map fun f => (f, f.want.literal) := by
      simpa using zip_map' (f := id) (g := fun f : ShowFilter => f.want.literal) (l := fs)
    rw [hz, forall_mem_map]
    exact fun f hf => Want.exact_literal (hp f hf)

end ShowFilter

open ShowFilter

def showFilters (kind : ShowKind) (options : ShowOptions) (reference : FullReference) :
    List ShowFilter :=
  (if kind = .tables then [⟨.tableType, .equals "TABLE".toList⟩] else []) ++
    (match options.startsWith with
      | some (.singleQuotedString value) => [⟨kind.nameColumn, .startsWith value.toList⟩]
      | _ => []) ++
    ((kind.schemaColumn.filter fun _ => reference.schema ≠ "").map fun column =>
      ShowFilter.mk column (.equals reference.schema.toList)).toList ++
    (if kind = .columns ∧ options.showIn.isSome then
      [⟨.tableName, .equals reference.table.toList⟩] else [])

section

variable (kind : ShowKind) (options : ShowOptions) (reference : FullReference)

lemma showFilterTexts_eq : showFilterTexts kind options reference =
    (showFilters kind options reference).map text := by
  have hty : (if kind = .tables then ["table_type = 'TABLE'"] else []) = List.map text
        (if kind = .tables then [⟨.tableType, .equals "TABLE".toList⟩] else []) := by
    rw [apply_ite (List.map text)]
    rfl
  have hp : (buildStartsWithFilter options.startsWith kind.nameColumn.text).toList =
      List.map text (match options.startsWith with
        | some (.singleQuotedString vl) => [⟨kind.nameColumn, .startsWith vl.toList⟩]
        | _ => []) := by
    rcases options.startsWith with _ | (vl | vl | _)
    · rfl
    · simp [buildStartsWithFilter, text, Want.op, Want.raw, FilterOp.text,
        String.append_assoc]
    · rfl
    · rfl
  have hs : ((kind.schemaColumn.filter fun _ => reference.schema ≠ "").map fun c =>
        c.text ++ " = '" ++ reference.schema ++ "'").toList =
      List.map text
        ((kind.schemaColumn.filter fun _ => reference.schema ≠ "").map fun c =>
          ShowFilter.mk c (.equals reference.schema.toList)).toList := by
    rw [← Option.toList_map, Option.map_map]
    simp [comp_def, text, Want.op, Want.raw, FilterOp.text]
  have ht : (if kind = .columns ∧ options.showIn.isSome then
        ["table_name = '" ++ reference.table ++ "'"] else []) =
      List.map text (if kind = .columns ∧ options.showIn.isSome then
        [⟨.tableName, .equals reference.table.toList⟩] else []) := by
    rw [apply_ite (List.map text)]
    simp [text, Want.op, Want.raw, FilterOp.text, InfoColumn.text]
  rw [showFilterTexts, showFilters, hty, hp, hs, ht, map_append, map_append, map_append]

lemma forall_mem_showFilters {P : ShowFilter → Prop} :
    (∀ f ∈ showFilters kind options reference, P f) ↔
      (kind = .tables → P ⟨.tableType, .equals "TABLE".toList⟩) ∧
      (∀ val, options.startsWith = some (.singleQuotedString val) →
        P ⟨kind.nameColumn, .startsWith val.toList⟩) ∧
      (∀ col, kind.schemaColumn = some col → reference.schema ≠ "" →
        P ⟨col, .equals reference.schema.toList⟩) ∧ (kind = .columns → options.showIn.isSome →
        P ⟨.tableName, .equals reference.table.toList⟩) := by
  have hi : ∀ (c : Prop) [Decidable c] (a : ShowFilter),
      (∀ f ∈ if c then [a] else [], P f) ↔ (c → P a) := by
    intro c _ a
    by_cases h : c <;> simp [h]
  simp only [showFilters, forall_mem_append, hi, and_assoc, and_imp]
  refine and_congr_right fun _ => and_congr ?_ (and_congr ?_ Iff.rfl)
  · rcases options.startsWith with _ | (val | val | _) <;> simp
  · rcases kind.schemaColumn with _ | col <;> by_cases h : reference.schema = "" <;> simp [h]

def ShowKind.columnsOf (kind : ShowKind) : List InfoColumn :=
  (if kind = .tables then [.tableType] else []) ++ [kind.nameColumn] ++
    kind.schemaColumn.toList ++ (if kind = .columns then [.tableName] else [])

lemma map_column_sublist :
    ((showFilters kind options reference).map column).Sublist kind.columnsOf := by
  rw [showFilters, map_append, map_append, map_append, ShowKind.columnsOf]
  refine ((List.Sublist.append ?_ ?_).append ?_).append ?_
  · by_cases h : kind = .tables <;> simp [h]
  · rcases options.startsWith with _ | (value | value | _) <;> simp
  · rcases kind.schemaColumn with _ | column <;> by_cases h : reference.schema = "" <;> simp [h]
  · by_cases h : kind = .columns <;> cases options.showIn <;> simp [h]

lemma nodup_map_column : ((showFilters kind options reference).map column).Nodup := by
  refine (map_column_sublist kind options reference).nodup ?_
  cases kind <;> decide

end

def ShowValue.text? : ShowValue → Option String
  | singleQuotedString value => some value
  | otherString value => some value
  | other => none

structure Wanted (kind : ShowKind) (options : ShowOptions) (reference : FullReference)
    (row : InfoRow) : Prop where
  table_type : kind = .tables → row .tableType = "TABLE".toList
  name : ∀ value, options.startsWith.bind ShowValue.text? = some value →
    value.toList <+: row kind.nameColumn
  schema : ∀ column, kind.schemaColumn = some column → reference.schema ≠ "" →
    row column = reference.schema.toList
  table : kind = .columns → options.showIn.isSome → row .tableName = reference.table.toList

lemma wanted_iff {kind : ShowKind} {options : ShowOptions} {reference : FullReference}
    {row : InfoRow} : Wanted kind options reference row ↔
      (∀ f ∈ showFilters kind options reference, f.want.Holds (row f.column)) ∧
        ∀ val, options.startsWith = some (.otherString val) →
          val.toList <+: row kind.nameColumn := by
  rw [forall_mem_showFilters]
  constructor
  · intro h
    exact ⟨⟨h.table_type, fun val hv => h.name val (by rw [hv]; rfl), h.schema, h.table⟩,
      fun val hv => h.name val (by rw [hv]; rfl)⟩
  · rintro ⟨⟨hty, hn, hsc, htab⟩, ho⟩
    refine ⟨hty, fun val hv => ?_, hsc, htab⟩
    rw [Option.bind_eq_some_iff] at hv
    obtain ⟨v, hs, ht⟩ := hv
    rcases v with v | v | _
    · obtain rfl := Option.some.inj ht
      exact hn _ hs
    · obtain rfl := Option.some.inj ht
      exact ho _ hs
    · cases ht

namespace ShowEnv

variable (env : ShowEnv) (kind : ShowKind) (options : ShowOptions) (reference : FullReference)

/-- The prefix and the names can be written into the text as they are. -/
structure Spelled : Prop where
  name : ∀ value, options.startsWith = some (.singleQuotedString value) →
    ∀ c ∈ value.toList, IsLiteral c
  other : ∀ value, options.startsWith = some (.otherString value) → value = ""
  schema : kind.schemaColumn.isSome →
    ∀ c ∈ reference.schema.toList, ¬IsSpecial env.backslashEscapes c
  table : kind = .columns → options.showIn.isSome →
    ∀ c ∈ reference.table.toList, ¬IsSpecial env.backslashEscapes c

def Unread : Prop :=
  showFilters kind options reference ≠ [] ∧
    readFilters env.backslashEscapes ((showFilters kind options reference).map shape)
      (" AND ".intercalate (showFilterTexts kind options reference)) = none

def IsExact (condition : InfoRow → Bool) : Prop :=
  ∀ row, condition row = true ↔ Wanted kind options reference row

/-- The `WHERE` clause is true for exactly the rows asked for. -/
def ShowsExactly : Prop :=
  ∃ c, env.parse (env.selectFrom kind reference.catalog)
        ((showFilters kind options reference).map shape)
        (env.showText kind options reference) = some c ∧
      IsExact kind options reference c

variable {env kind options reference}

lemma spelled_iff : env.Spelled kind options reference ↔
    (∀ f ∈ showFilters kind options reference, f.want.Plain env.backslashEscapes) ∧
      ∀ val, options.startsWith = some (.otherString val) → val = "" := by
  have hty : ∀ c ∈ "TABLE".toList, ¬IsSpecial env.backslashEscapes c := by simp [IsSpecial]
  rw [forall_mem_showFilters]
  constructor
  · intro h
    exact ⟨⟨fun _ => hty, h.name, fun col hc _ => h.schema (by rw [hc]; rfl), h.table⟩, h.other⟩
  · rintro ⟨⟨-, hn, hs, ht⟩, ho⟩
    refine ⟨hn, ho, fun hsom => ?_, ht⟩
    obtain ⟨col, hc⟩ := Option.isSome_iff_exists.mp hsom
    by_cases he : reference.schema = ""
    · simp [he]
    · exact hs col hc he

lemma parse_showText_nil (he : showFilters kind options reference = []) :
    env.parse (env.selectFrom kind reference.catalog)
        ((showFilters kind options reference).map shape)
        (env.showText kind options reference) = some fun _ => true := by
  have ht : showFilterTexts kind options reference = [] := by rw [showFilterTexts_eq, he, map_nil]
  rw [showText, applyShowFilters, ht, parse]
  exact if_pos rfl

lemma parse_showText (hne : showFilters kind options reference ≠ []) :
    env.parse (env.selectFrom kind reference.catalog)
        ((showFilters kind options reference).map shape)
        (env.showText kind options reference) =
      match readFilters env.backslashEscapes
          ((showFilters kind options reference).map shape)
          (" AND ".intercalate (showFilterTexts kind options reference)) with
      | none => env.parseOther (env.showText kind options reference)
      | some ls =>
        some (allPass ((showFilters kind options reference).map shape) ls) := by
  have htex : (showFilterTexts kind options reference).isEmpty = false := by
    rw [showFilterTexts_eq, isEmpty_map, List.isEmpty_eq_false_iff]
    exact hne
  have ht : env.showText kind options reference =
      env.selectFrom kind reference.catalog ++ " WHERE " ++
        " AND ".intercalate (showFilterTexts kind options reference) := by
    rw [showText, applyShowFilters, htex]
    rfl
  have hlon : env.showText kind options reference ≠ env.selectFrom kind reference.catalog := by
    intro heq
    have hl := congrArg String.length (ht.symm.trans heq)
    have hw : " WHERE ".length = 7 := rfl
    rw [String.length_append, String.length_append, hw] at hl
    omega
  have hc : (env.showText kind options reference).toList.dropPrefix?
        (env.selectFrom kind reference.catalog ++ " WHERE ").toList =
      some (" AND ".intercalate (showFilterTexts kind options reference)).toList := by
    rw [ht, toList_append]
    exact dropPrefix?_append_of_beq _ (beq_self_eq_true _)
  rw [parse, if_neg hlon, hc]
  simp only [ofList_toList]

lemma isExact_iff {c : InfoRow → Bool} (hc : ∀ row row' : InfoRow,
    (∀ f ∈ showFilters kind options reference, row' f.column = row f.column) →
      (c row' = true ↔ c row = true)) : IsExact kind options reference c ↔
    (∀ val, options.startsWith = some (.otherString val) → val = "") ∧ ∀ row, c row = true ↔
        ∀ f ∈ showFilters kind options reference, f.want.Holds (row f.column) := by
  constructor
  · intro h
    have he : ∀ val, options.startsWith = some (.otherString val) → val = "" := by
      intro val hv
      have hn : ∀ f ∈ showFilters kind options reference, f.column ≠ kind.nameColumn := by
        rw [forall_mem_showFilters]
        cases kind <;> simp [hv, ShowKind.nameColumn, ShowKind.schemaColumn]
      obtain ⟨row, hr⟩ := exists_row (nodup_map_column kind options reference)
      have ho : ∀ (name : List Char), ∀ f ∈ showFilters kind options reference,
          Function.update row kind.nameColumn name f.column = row f.column :=
        fun name f hf => update_of_ne (hn f hf) ..
      have hw : Wanted kind options reference
          (Function.update row kind.nameColumn val.toList) := by
        refine wanted_iff.mpr ⟨fun f hf => ?_, fun val' hv' => ?_⟩
        · rw [ho _ f hf, hr f hf]
          exact f.want.holds_sample
        · obtain rfl : val = val' := by simpa [hv] using hv'
          rw [update_self]
      -- the condition does not see that the name is cut off
      have hct := (hc row _ (ho [])).mpr ((hc row _ (ho val.toList)).mp ((h _).mpr hw))
      have hp := (wanted_iff.mp ((h _).mp hct)).2 val hv
      rw [update_self, prefix_nil] at hp
      exact toList_eq_nil_iff.mp hp
    refine ⟨he, fun row => (h row).trans (wanted_iff.trans (and_iff_left ?_))⟩
    intro val hv
    rw [he val hv]
    exact nil_prefix
  · rintro ⟨he, h⟩ row
    refine (h row).trans (wanted_iff.trans (and_iff_left ?_)).symm
    intro val hv
    rw [he val hv]
    exact nil_prefix

/-! ### Main result -/

/-- **SHOW filters** are exact exactly when the prefix and the names have no special character. -/
theorem showsExactly_iff :
    env.ShowsExactly kind options reference ↔ env.Spelled kind options reference ∨
        env.Unread kind options reference ∧
          ∃ condition, env.parseOther (env.showText kind options reference) = some condition ∧
            IsExact kind options reference condition := by
  rw [spelled_iff]
  by_cases he : showFilters kind options reference = []
  · have hex : IsExact kind options reference (fun _ => true) ↔
        ∀ value, options.startsWith = some (.otherString value) → value = "" := by
      rw [isExact_iff fun _ _ _ => Iff.rfl]
      simp [he]
    rw [ShowsExactly, parse_showText_nil he, ← hex]
    simp [he, Unread]
  · have hex := readFilters_exact_iff env.backslashEscapes he
      (nodup_map_column kind options reference)
    rw [ShowsExactly, parse_showText he, Unread, ← hex, ← showFilterTexts_eq]
    cases readFilters env.backslashEscapes
        ((showFilters kind options reference).map shape)
        (" AND ".intercalate (showFilterTexts kind options reference)) with
    | none => simp [he]
    | some literals =>
      have hc : IsExact kind options reference
          (allPass ((showFilters kind options reference).map shape) literals) ↔ _ :=
        isExact_iff fun row row' hr => allPass_congr hr
      simp [hc, and_comm]

def publicSession : ShowEnv where
  names := NameContext.printingContext
  hasCatalog := fun _ => true
  hasSchema := fun _ _ => true
  hasTable := fun _ _ _ => true
  selectFrom := fun _ catalog => "SELECT * FROM " ++ catalog ++ ".information_schema.tables"
  backslashEscapes := true
  parseOther := fun _ => none

def underscorePrefix : ShowOptions := ⟨none, some (.singleQuotedString "a_")⟩

def tableAb : InfoRow
  | .tableType => "TABLE".toList
  | .tableName => "ab".toList
  | .tableSchema => "public".toList
  | _ => []

theorem showQuery_underscore :
    publicSession.showQuery .tables underscorePrefix =
        .ok ("SELECT * FROM embucket.information_schema.tables WHERE table_type = 'TABLE'" ++
          " AND table_name LIKE 'a_%' AND table_schema = 'public'") ∧
      (∃ condition, publicSession.parse "SELECT * FROM embucket.information_schema.tables"
            [(.tableType, .equals), (.tableName, .like), (.tableSchema, .equals)]
            ("SELECT * FROM embucket.information_schema.tables WHERE table_type = 'TABLE'" ++
              " AND table_name LIKE 'a_%' AND table_schema = 'public'") =
          some condition ∧ condition tableAb = true) ∧
      ¬"a_".toList <+: tableAb .tableName := by
  refine ⟨rfl, ?_, by decide⟩
  refine (Option.any_eq_true (fun condition : InfoRow → Bool => condition tableAb) _).mp ?_
  decide +kernel

end ShowEnv

end Rustice
