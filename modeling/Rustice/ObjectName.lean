import Rustice.AsciiCase
import Rustice.Fallible
import Rustice.QuotedSplit

/-!
# Object Names

`resolve_table_object_name` completes the name of a table with the current database and schema and
normalises its identifiers.
-/

namespace Rustice

open List

structure Ident where
  value : String
  quoteStyle : Option Char
  deriving DecidableEq

def Ident.new (value : String) : Ident := ⟨value, none⟩

def Ident.withQuote (quote : Char) (value : String) : Ident := ⟨value, some quote⟩

inductive NamePart where
  | identifier (ident : Ident)
  | function (name : Ident)
  deriving DecidableEq

structure NameContext where
  currentDatabase : String
  currentSchema : String
  enableIdentNormalization : Bool
  display : NamePart → String

inductive NameError where
  | invalidTableIdentifier (ident : String)
  deriving DecidableEq

namespace NameContext

variable (ctx : NameContext)

def identNormalizer (ident : Ident) : String :=
  if ctx.enableIdentNormalization then
    match ident.quoteStyle with
    | some _ => ident.value
    | none => toAsciiLowercase ident.value
  else ident.value

def normalizeIdent (ident : Ident) : Ident :=
  match ident.quoteStyle with
  | some quote => .withQuote quote ident.value
  | none => .new (ctx.identNormalizer ident)

def normalizePart : NamePart → Ident
  | .identifier ident => ctx.normalizeIdent ident
  | .function _ => .new ""

def normalizeParts (parts : List NamePart) : List Ident :=
  (parts.map ctx.normalizePart).filter fun ident => ident.value ≠ ""

def resolveTableObjectName (tableIdent : List NamePart) : Except NameError (List Ident) :=
  let database := NamePart.identifier (.new ctx.currentDatabase)
  let schema := NamePart.identifier (.new ctx.currentSchema)
  match tableIdent with
  | [_] => .ok (ctx.normalizeParts (database :: schema :: tableIdent))
  | [_, _] => .ok (ctx.normalizeParts (database :: tableIdent))
  | [_, _, _] => .ok (ctx.normalizeParts tableIdent)
  | _ => .error (.invalidTableIdentifier (".".intercalate (tableIdent.map ctx.display)))

end NameContext

inductive TableReference where
  | bare (table : String)
  | schemaTable (schema table : String)
  | full (catalog schema table : String)
  deriving DecidableEq

def TableReference.parts : TableReference → List String
  | .bare table => [table]
  | .schemaTable schema table => [schema, table]
  | .full catalog schema table => [catalog, schema, table]

structure QuotedParser where
  parse : List Char → Except String (List Char)
  length_lt : ∀ {part value : List Char}, parse part = .ok value → value.length < part.length

def parsePart (quoted : QuotedParser) (part : List Char) : Except String (List Char) :=
  if '"' ∈ part then quoted.parse part else .ok (part.map Char.toLower)

def parseStr (quoted : QuotedParser) (text : String) : TableReference :=
  match (splitOutside '.' '"' false text.toList).mapM (parsePart quoted) with
  | .ok [table] => .bare (.ofList table)
  | .ok [schema, table] => .schemaTable (.ofList schema) (.ofList table)
  | .ok [catalog, schema, table] => .full (.ofList catalog) (.ofList schema) (.ofList table)
  | _ => .bare text

def normalizedIdentText (idents : List Ident) : String := ".".intercalate (idents.map Ident.value)

def tableReference (quoted : QuotedParser) (idents : List Ident) : TableReference :=
  parseStr quoted (normalizedIdentText idents)

/-- A text that `parse_str` leaves alone, as a part of a dotted name. -/
def PlainText (text : List Char) : Prop :=
  text ≠ [] ∧ '.' ∉ text ∧ '"' ∉ text ∧ text.map Char.toLower = text

instance (text : List Char) : Decidable (PlainText text) :=
  inferInstanceAs (Decidable (_ ∧ _ ∧ _ ∧ _))

variable {quoted q : QuotedParser} {values vs : List (List Char)} {ps : List (List Char)}

lemma length_parsePart {p v : List Char} (h : parsePart q p = .ok v) :
    v.length ≤ p.length ∧ ('"' ∈ p → v.length < p.length) := by
  rw [parsePart] at h
  split at h
  case isTrue => exact ⟨Nat.le_of_lt (q.length_lt h), fun _ => q.length_lt h⟩
  case isFalse hq =>
    cases h
    exact ⟨by simp, fun hm => absurd hm hq⟩

lemma length_parseParts (h : List.Forall₂ (fun p value => parsePart q p = .ok value) ps vs) :
    (vs.map List.length).sum ≤ (ps.map List.length).sum ∧
      ((ps.map List.length).sum ≤ (vs.map List.length).sum → ∀ p ∈ ps, '"' ∉ p) := by
  induction h with
  | nil => simp
  | cons hp _ ih =>
    obtain ⟨hle, hlt⟩ := length_parsePart hp
    simp only [map_cons, sum_cons, forall_mem_cons]
    refine ⟨by omega, fun hsum => ⟨fun hm => ?_, ih.2 (by omega)⟩⟩
    have := hlt hm
    omega

lemma plainText_of_parseParts (h : List.Forall₂ (fun p value => parsePart q p = .ok value) ps vs)
    (hq : ∀ p ∈ ps, '"' ∉ p) (hd : ∀ p ∈ ps, '.' ∉ p) :
    ∀ value ∈ vs, '.' ∉ value ∧ '"' ∉ value ∧ value.map Char.toLower = value := by
  induction h with
  | nil => simp
  | cons hp _ ih =>
    simp only [forall_mem_cons] at hq hd ⊢
    refine ⟨?_, ih hq.2 hd.2⟩
    rw [parsePart, if_neg hq.1] at hp
    cases hp
    rw [mem_map_toLower_iff (by decide), mem_map_toLower_iff (by decide)]
    exact ⟨hd.1, hq.1, map_toLower_map_toLower _⟩

lemma sum_length_filter_isEmpty (vs : List (List Char)) :
    ((vs.filter (!·.isEmpty)).map List.length).sum = (vs.map List.length).sum := by
  induction vs with
  | nil => rfl
  | cons v vs ih =>
    cases v with
    | nil => simpa using ih
    | cons c v => simpa using ih

lemma length_of_mapM_parsePart (hlen : 2 ≤ vs.length)
    (h : (splitOutside '.' '"' false (['.'].intercalate (vs.filter (!·.isEmpty)))).mapM
      (parsePart q) = .ok vs) : (vs.filter (!·.isEmpty)).length = vs.length ∧
      ∀ part ∈ splitOutside '.' '"' false (['.'].intercalate (vs.filter (!·.isEmpty))),
        '"' ∉ part := by
  generalize hk : vs.filter (!·.isEmpty) = k at h ⊢
  have ha := mapM_eq_ok_iff.mp h
  obtain ⟨hle, hq⟩ := length_parseParts ha
  have hne : splitOutside '.' '"' false (['.'].intercalate k) ≠ [] := splitOutside_ne_nil _ _
  have hp := length_intercalate_succ '.' hne
  rw [intercalate_splitOutside, ha.length_eq] at hp
  have hsum := sum_length_filter_isEmpty vs
  have hl := length_filter_le (!·.isEmpty) vs
  rw [hk] at hsum hl
  cases k with
  | nil =>
    simp only [intercalate_nil, length_nil] at hp
    omega
  | cons value k =>
    have ht := length_intercalate_succ '.' (cons_ne_nil value k)
    exact ⟨by omega, hq (by omega)⟩

lemma mapM_parsePart_iff (hlen : 2 ≤ values.length) :
    (splitOutside '.' '"' false (['.'].intercalate (values.filter (!·.isEmpty)))).mapM
        (parsePart q) = .ok values ↔ ∀ value ∈ values, PlainText value := by
  constructor
  · intro h
    obtain ⟨hk, hq⟩ := length_of_mapM_parsePart hlen h
    have hd : ∀ part ∈ splitOutside '.' '"' false
        (['.'].intercalate (values.filter (!·.isEmpty))), '.' ∉ part := fun part hpar =>
      separator_notMem_of_mem_splitOutside (quote_notMem_of_splitOutside (by decide) hq) hpar
    have hp := plainText_of_parseParts (mapM_eq_ok_iff.mp h) hq hd
    intro value hv
    refine ⟨?_, hp value hv⟩
    rintro rfl
    simpa using length_filter_eq_length_iff.mp hk [] hv
  · intro hp
    have hf : values.filter (!·.isEmpty) = values :=
      filter_eq_self.mpr fun value hv => by simpa using (hp value hv).1
    have hne : values ≠ [] := by
      rintro rfl
      cases hlen
    rw [hf, splitOutside_intercalate (by decide) hne
      (fun value hv => (hp value hv).2.1)
      (fun value hv => (hp value hv).2.2.1), mapM_eq_ok_iff,
      forall₂_same]
    intro value hv
    obtain ⟨-, -, hq, hl⟩ := hp value hv
    rw [parsePart, if_neg hq, hl]

lemma parts_parseStr_eq_iff {tx : String} (hlen : values.length = 3) :
    (parseStr q tx).parts = values.map String.ofList ↔
      (splitOutside '.' '"' false tx.toList).mapM (parsePart q) = .ok values := by
  obtain ⟨d, s, t, rfl⟩ := length_eq_three.mp hlen
  rw [parseStr]
  split
  case _ h => simp [TableReference.parts, h]
  case _ h => simp [TableReference.parts, h]
  case _ h => simp [TableReference.parts, h, String.ofList_inj]
  case _ h =>
    simp only [TableReference.parts, map_cons, map_nil, cons.injEq,
      nil_eq, reduceCtorEq, and_false, false_iff]
    exact fun ho => h _ _ _ ho

namespace NameContext

variable (ctx : NameContext)

/-- The database, schema and table of a name, normalised. -/
def qualifiedName (idents : List Ident) : List String :=
  ([Ident.new ctx.currentDatabase, Ident.new ctx.currentSchema].take (3 - idents.length) ++
    idents).map fun ident => (ctx.normalizeIdent ident).value

variable {ctx}

lemma resolveTableObjectName_identifiers {ids : List Ident} (hpos : 1 ≤ ids.length)
    (hle : ids.length ≤ 3) : ∃ n, ctx.resolveTableObjectName (ids.map .identifier) = .ok n ∧
      n.map Ident.value = (ctx.qualifiedName ids).filter (· ≠ "") := by
  have hv : ∀ ps : List Ident, (ctx.normalizeParts (ps.map .identifier)).map Ident.value =
        (ps.map fun i => (ctx.normalizeIdent i).value).filter (· ≠ "") := by
    intro ps
    simp only [normalizeParts, filter_map, map_map]
    rfl
  match ids, hpos, hle with
  | [t], _, _ => exact ⟨_, rfl, hv [.new _, .new _, t]⟩
  | [s, t], _, _ => exact ⟨_, rfl, hv [.new _, s, t]⟩
  | [d, s, t], _, _ => exact ⟨_, rfl, hv [d, s, t]⟩

lemma map_toList_filter (vs : List String) :
    (vs.filter (· ≠ "")).map String.toList = (vs.map String.toList).filter (!·.isEmpty) := by
  rw [filter_map]
  congr 2
  funext value
  rw [Bool.eq_iff_iff]
  simp

/-- An identifier that survives being joined, read and lower-cased. -/
def Plain (value : String) : Prop := PlainText value.toList

instance (value : String) : Decidable (Plain value) := inferInstanceAs (Decidable (PlainText _))

/-! ### Main result -/

/-- **Resolved names keep their parts** exactly if these are lower case and have no dot or quote. -/
theorem tableReference_parts_iff (quoted : QuotedParser) {idents : List Ident}
    (hpos : 1 ≤ idents.length) (hle : idents.length ≤ 3) :
    ∃ normalized, ctx.resolveTableObjectName (idents.map .identifier) = .ok normalized ∧
      ((tableReference quoted normalized).parts = ctx.qualifiedName idents ↔
        ∀ value ∈ ctx.qualifiedName idents, Plain value) := by
  obtain ⟨normalized, ho, hv⟩ := @resolveTableObjectName_identifiers ctx _ hpos hle
  refine ⟨normalized, ho, ?_⟩
  have hlen : ((ctx.qualifiedName idents).map String.toList).length = 3 := by
    simp only [qualifiedName, length_map, length_append, length_take, length_cons, length_nil]
    omega
  have ht : (normalizedIdentText normalized).toList =
      ['.'].intercalate (((ctx.qualifiedName idents).map String.toList).filter (!·.isEmpty)) := by
    rw [normalizedIdentText, String.toList_intercalate, hv, map_toList_filter]
    rfl
  have hr : (tableReference quoted normalized).parts =
      ((ctx.qualifiedName idents).map String.toList).map String.ofList ↔ _ :=
    parts_parseStr_eq_iff hlen
  rw [ht, mapM_parsePart_iff (by omega)] at hr
  simpa [Plain, Function.comp_def] using hr

def publicContext : NameContext := ⟨"embucket", "public", true, fun _ => ""⟩

def refuseQuoted : QuotedParser := ⟨fun _ => .error "quote", fun h => nomatch h⟩

theorem tableReference_parts_orders :
    ∃ normalized, publicContext.resolveTableObjectName [.identifier (.new "Orders")] =
        .ok normalized ∧
      (tableReference refuseQuoted normalized).parts = ["embucket", "public", "orders"] := by
  obtain ⟨normalized, ho, hiff⟩ := @tableReference_parts_iff publicContext refuseQuoted
    [.new "Orders"] (by decide) (by decide)
  refine ⟨normalized, ho, (hiff.mpr ?_).trans ?_⟩
  · decide
  · decide

theorem tableReference_parts_quoted :
    (∃ normalized, publicContext.resolveTableObjectName [.identifier (.withQuote '"' "a.b")] =
        .ok normalized ∧
      publicContext.qualifiedName [.withQuote '"' "a.b"] = ["embucket", "public", "a.b"] ∧
      tableReference refuseQuoted normalized = .bare "embucket.public.a.b") ∧
    (∃ normalized, publicContext.resolveTableObjectName [.identifier (.withQuote '"' "Orders")] =
        .ok normalized ∧
      publicContext.qualifiedName [.withQuote '"' "Orders"] = ["embucket", "public", "Orders"] ∧
      tableReference refuseQuoted normalized = .full "embucket" "public" "orders") :=
  ⟨⟨_, rfl, by decide, by decide⟩, _, rfl, by decide, by decide⟩

end NameContext

end Rustice
