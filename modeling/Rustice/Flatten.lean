import Rustice.Fallible
import Rustice.JsonPath

/-!
# FLATTEN

`FLATTEN` turns the items and fields of JSON documents into rows.
-/

namespace Rustice

open List Option

open JsonValue

variable {ν : Type} {k : String} {K : Set String}

inductive FlattenMode where
  | both
  | array
  | object

def FlattenMode.isObject : FlattenMode → Bool
  | object | both => true
  | array => false

def FlattenMode.isArray : FlattenMode → Bool
  | array | both => true
  | object => false

structure FlattenArgs where
  path : List PathToken
  isOuter : Bool
  isRecursive : Bool
  mode : FlattenMode

structure Serde (ν : Type) where
  fromStr : String → Option (JsonDocument ν)
  toStringPretty : JsonValue ν → String

structure FlattenRow where
  seq : ℕ
  key : Option String
  path : Option String
  index : Option ℕ
  value : Option String
  this : Option String
  deriving DecidableEq

structure Out (ν : Type) where
  rows : List FlattenRow
  lastOuter : Option (JsonValue ν)

def Out.new : Out ν := ⟨[], none⟩

def Out.append (out : Out ν) (row : FlattenRow) : Out ν := { out with rows := out.rows ++ [row] }

open Out

def nullRow (rowId : ℕ) : FlattenRow := ⟨rowId, none, none, none, none, none⟩

section Walk

variable (serde : Serde ν) (rowId : ℕ) (recursive : Bool) (mode : FlattenMode)

def itemRow (this : JsonValue ν) (path : List PathToken) (i : ℕ) (v : JsonValue ν) : FlattenRow :=
  ⟨rowId, none, some (pathToString (path ++ [.index i])), some i, some (serde.toStringPretty v),
    some (serde.toStringPretty this)⟩

def fieldRow (this : JsonValue ν) (path : List PathToken) (k : String) (v : JsonValue ν) :
    FlattenRow :=
  ⟨rowId, some k, some (pathToString (path ++ [.key k])), none, some (serde.toStringPretty v),
    some (serde.toStringPretty this)⟩

mutual

def flatten : JsonValue ν → List PathToken → Out ν → Out ν
  | .array items, path, out =>
    if mode.isArray then
      flattenItems (.array items) path 0 items { out with lastOuter := some (.array items) }
    else out
  | .object fields, path, out =>
    if mode.isObject then
      flattenFields (.object fields) path fields { out with lastOuter := some (.object fields) }
    else out
  | _, _, out => out

def flattenItems (this : JsonValue ν) (path : List PathToken) (i : ℕ) :
    List (JsonValue ν) → Out ν → Out ν
  | [], out => out
  | v :: items, out =>
    let out := out.append (itemRow serde rowId this path i v)
    let out := if recursive then flatten v (path ++ [.index i]) out else out
    flattenItems this path (i + 1) items out

def flattenFields (this : JsonValue ν) (path : List PathToken) :
    List (String × JsonValue ν) → Out ν → Out ν
  | [], out => out
  | (k, v) :: fields, out =>
    let out := out.append (fieldRow serde rowId this path k v)
    let out := if recursive then flatten v (path ++ [.key k]) out else out
    flattenFields this path fields out

end

def expansion (value : JsonValue ν) (path : List PathToken) : List FlattenRow :=
  (flatten serde rowId recursive mode value path .new).rows

def expansionBelow (value : JsonValue ν) (path : List PathToken) : List FlattenRow :=
  if recursive then expansion serde rowId recursive mode value path else []

variable {serde rowId recursive mode} {path pt : List PathToken} {value val : JsonValue ν}
  {ts : JsonValue ν}

lemma rows_flattenItems {it : List (JsonValue ν)}
    (hi : ∀ v ∈ it, ∀ pt o, (flatten serde rowId recursive mode v pt o).rows =
      o.rows ++ expansion serde rowId recursive mode v pt) (i : ℕ) (o : Out ν) :
    (flattenItems serde rowId recursive mode ts pt i it o).rows =
      o.rows ++ (it.zipIdx i).flatMap fun e => itemRow serde rowId ts pt e.2 e.1 ::
          expansionBelow serde rowId recursive mode e.1 (pt ++ [.index e.2]) := by
  induction it generalizing i o with
  | nil => simp [flattenItems]
  | cons v it ih =>
    obtain ⟨hv, hi⟩ := forall_mem_cons.mp hi
    rw [flattenItems, ih hi, zipIdx_cons, flatMap_cons, expansionBelow]
    cases recursive with
    | false => simp [append]
    | true => simp [append, hv]

lemma rows_flattenFields {fs : List (String × JsonValue ν)}
    (hf : ∀ f ∈ fs, ∀ pt o, (flatten serde rowId recursive mode f.2 pt o).rows =
        o.rows ++ expansion serde rowId recursive mode f.2 pt) (o : Out ν) :
    (flattenFields serde rowId recursive mode ts pt fs o).rows = o.rows ++ fs.flatMap fun f =>
        fieldRow serde rowId ts pt f.1 f.2 ::
          expansionBelow serde rowId recursive mode f.2 (pt ++ [.key f.1]) := by
  induction fs generalizing o with
  | nil => simp [flattenFields]
  | cons f fs ih =>
    obtain ⟨hv, hf⟩ := forall_mem_cons.mp hf
    rw [flattenFields, ih hf, flatMap_cons, expansionBelow]
    cases recursive with
    | false => simp [append]
    | true => simp [append, hv]

lemma rows_flatten (val : JsonValue ν) (path : List PathToken) (o : Out ν) :
    (flatten serde rowId recursive mode val path o).rows =
      o.rows ++ expansion serde rowId recursive mode val path := by
  induction val using induct generalizing path o with
  | null => simp [expansion, flatten, new]
  | bool b => simp [expansion, flatten, new]
  | number n => simp [expansion, flatten, new]
  | string s => simp [expansion, flatten, new]
  | array items ih =>
    rw [expansion, flatten, flatten]
    split_ifs with hm
    · rw [rows_flattenItems ih, rows_flattenItems ih]
      rfl
    · simp [new]
  | object fields ih =>
    rw [expansion, flatten, flatten]
    split_ifs with hm
    · rw [rows_flattenFields ih, rows_flattenFields ih]
      rfl
    · simp [new]

def PathToken.key? : PathToken → Option String
  | key k => some k
  | index _ => none

def PathToken.index? : PathToken → Option ℕ
  | key _ => none
  | index i => some i

def FlattenMode.allows (mode : FlattenMode) : JsonValue ν → Bool
  | .array _ => mode.isArray
  | .object _ => mode.isObject
  | _ => false

variable (serde rowId) in
def entryRow (this : JsonValue ν) (path : List PathToken) (entry : PathToken × JsonValue ν) :
    FlattenRow where
  seq := rowId
  key := entry.1.key?
  path := some (pathToString (path ++ [entry.1]))
  index := entry.1.index?
  value := some (serde.toStringPretty entry.2)
  this := some (serde.toStringPretty this)

lemma expansion_eq_entries (val : JsonValue ν) (pt : List PathToken) :
    expansion serde rowId recursive mode val pt =
      if mode.allows val then val.entries.flatMap fun e =>
        entryRow serde rowId val pt e :: expansionBelow serde rowId recursive mode e.2 (pt ++ [e.1])
      else [] := by
  cases val with
  | array items =>
    rw [expansion, flatten, entries, flatMap_map]
    cases hm : mode.isArray with
    | false => rw [FlattenMode.allows, hm]; rfl
    | true =>
      rw [FlattenMode.allows, hm, if_pos rfl, rows_flattenItems fun v _ => rows_flatten v]
      rfl
  | object fields =>
    rw [expansion, flatten, entries, flatMap_map]
    cases hm : mode.isObject with
    | false => rw [FlattenMode.allows, hm]; rfl
    | true =>
      rw [FlattenMode.allows, hm, if_pos rfl, rows_flattenFields fun f _ => rows_flatten f.2]
      rfl
  | _ => rfl

lemma forall_mem_expansion {P : JsonValue ν → List PathToken → Prop} {Q : FlattenRow → Prop}
    (h : ∀ val pt, ∀ e ∈ val.entries, P val pt →
      P e.2 (pt ++ [e.1]) ∧ Q (entryRow serde rowId val pt e))
    (hv : P val pt) : ∀ row ∈ expansion serde rowId recursive mode val pt, Q row := by
  induction val using induct_entries generalizing pt with
  | _ val ih =>
    intro row hr
    rw [expansion_eq_entries] at hr
    split_ifs at hr with hm
    · obtain ⟨e, he, hr⟩ := mem_flatMap.mp hr
      obtain ⟨hP, hQ⟩ := h val pt e he hv
      rcases mem_cons.mp hr with rfl | hr
      · exact hQ
      · rw [expansionBelow] at hr
        split_ifs at hr
        · exact ih e he hP row hr
        · cases hr
    · cases hr

lemma seq_of_mem_expansion : ∀ row ∈ expansion serde rowId recursive mode val pt, row.seq = rowId :=
  forall_mem_expansion (P := fun _ _ => True) (fun _ _ _ _ _ => ⟨trivial, rfl⟩) trivial

lemma length_expansion (rowId' : ℕ) (val : JsonValue ν) (pt : List PathToken) :
    (expansion serde rowId recursive mode val pt).length =
      (expansion serde rowId' recursive mode val pt).length := by
  induction val using induct_entries generalizing pt with
  | _ val ih =>
    rw [expansion_eq_entries, expansion_eq_entries]
    split_ifs with hm
    · rw [length_flatMap, length_flatMap]
      refine congrArg sum (map_congr_left fun e he => ?_)
      rw [length_cons, length_cons, expansionBelow, expansionBelow]
      split_ifs
      · rw [ih e he]
      · rfl
    · rfl

def FlattenMode.Expands (mode : FlattenMode) : JsonValue ν → Prop
  | .array items => mode.isArray = true ∧ items ≠ []
  | .object fields => mode.isObject = true ∧ fields ≠ []
  | _ => False

lemma expansion_ne_nil_iff :
    expansion serde rowId recursive mode value pt ≠ [] ↔ mode.Expands value := by
  rw [expansion_eq_entries]
  cases value with
  | array i => cases i <;> simp [FlattenMode.allows, FlattenMode.Expands, entries]
  | object fs => cases fs <;> simp [FlattenMode.allows, FlattenMode.Expands, entries]
  | _ => simp [FlattenMode.allows, FlattenMode.Expands]

end Walk

/-- The body of the loop over the documents of a batch. -/
def flattenDocument (serde : Serde ν) (args : FlattenArgs) (rowId : ℕ) (doc : JsonDocument ν)
    (out : Out ν) : Out ν :=
  match getJsonValue doc.value args.path with
  | some input => flatten serde rowId args.isRecursive args.mode input args.path out
  | none => out

mutual

def jsonText : JsonValue ℕ → String
  | .null => "null"
  | .bool true => "true"
  | .bool false => "false"
  | .number n => toString n
  | .string s => "\"" ++ s ++ "\""
  | .array items => "[" ++ jsonItemsText items ++ "]"
  | .object fields => "\x7b" ++ jsonFieldsText fields ++ "\x7d"

def jsonItemsText : List (JsonValue ℕ) → String
  | [] => ""
  | [v] => jsonText v
  | v :: items => jsonText v ++ "," ++ jsonItemsText items

def jsonFieldsText : List (String × JsonValue ℕ) → String
  | [] => ""
  | [(k, v)] => "\"" ++ k ++ "\":" ++ jsonText v
  | (k, v) :: fields => "\"" ++ k ++ "\":" ++ jsonText v ++ "," ++ jsonFieldsText fields

end

lemma valid_numbers {ns : List ℕ} (h : ns.length < 2 ^ 64) :
    (array (ns.map number)).Valid := by
  refine valid_of_get ?_ ?_
  · rwa [JsonValue.NodeValid, length_map]
  · intro t c hc
    cases t with
    | key k => cases hc
    | index i =>
      obtain ⟨n, -, rfl⟩ := mem_map.mp (mem_of_getElem? hc)
      refine valid_of_get trivial ?_
      intro t c hc
      cases hc

def sampleSerde : Serde ℕ where
  fromStr text :=
    if text = "[]" then some ⟨.array [], @valid_numbers [] (by decide)⟩
    else if text = "[1]" then some ⟨.array [.number 1], @valid_numbers [1] (by decide)⟩
    else none
  toStringPretty := jsonText

section Parts

variable {α β γ : Type} {xs : List α} {ys : List β}

lemma forall₂_of_common {R : α → β → Prop} {S : α → γ → Prop} {T : β → γ → Prop} {zs : List γ}
    (hR : List.Forall₂ R xs ys) (hS : List.Forall₂ S xs zs)
    (h : ∀ x y z, R x y → S x z → T y z) : List.Forall₂ T ys zs := by
  induction hR generalizing zs with
  | nil =>
    cases hS
    exact .nil
  | cons hxy _ ih =>
    cases hS with
    | cons hxz hS => exact .cons (h _ _ _ hxy hxz) (ih hS)

lemma exists_of_forall₂ {R S : α → β → Prop}
    (hR : List.Forall₂ R xs ys) (hS : List.Forall₂ S xs ys) :
    ∀ x ∈ xs, ∃ y ∈ ys, R x y ∧ S x y := by
  induction hR with
  | nil => exact forall_mem_nil _
  | cons hxy _ ih =>
    cases hS with
    | cons hx' hS =>
      refine forall_mem_cons.mpr ⟨⟨_, mem_cons_self, hxy, hx'⟩, fun x hx => ?_⟩
      obtain ⟨y, hy, hxy⟩ := ih hS x hx
      exact ⟨y, mem_cons_of_mem _ hy, hxy⟩

lemma eq_of_flatten_eq {pas pas' : List (List α)}
    (hle : List.Forall₂ (fun p p' => p.length ≤ p'.length) pas pas')
    (h : pas.flatten = pas'.flatten) : pas = pas' := by
  have ht : ∀ {ps qs : List (List α)}, List.Forall₂ (fun p p' => p.length ≤ p'.length) ps qs →
        ps.flatten.length ≤ qs.flatten.length := by
    intro ps qs hle
    induction hle with
    | nil => exact le_refl _
    | cons hp _ ih =>
      rw [flatten_cons, flatten_cons, length_append, length_append]
      exact Nat.add_le_add hp ih
  induction hle with
  | nil => rfl
  | @cons p p' pas pas' hp hpar ih =>
    have hr := ht hpar
    have hl := congrArg List.length h
    rw [flatten_cons, flatten_cons] at h hl
    rw [length_append, length_append] at hl
    obtain ⟨rfl, hf⟩ := append_inj h (by omega)
    rw [ih hf]

lemma length_flatten_of_forall₂ {ps : List (List β)}
    (h : List.Forall₂ (fun _ p => p.length = 1) xs ps) : ps.flatten.length = xs.length := by
  induction h with
  | nil => rfl
  | cons hp _ ih => rw [flatten_cons, length_append, length_cons, hp, ih, add_comm]

lemma pairwise_false_iff : (xs.Pairwise fun _ _ => False) ↔ xs.length ≤ 1 := by
  cases xs with
  | nil => simp
  | cons x xs =>
    cases xs with
    | nil => simp
    | cons y xs =>
      rw [pairwise_cons]
      refine ⟨fun h => (h.1 y mem_cons_self).elim, fun h => ?_⟩
      rw [length_cons, length_cons] at h
      omega

lemma forall_pairwise_congr {p q : α → α → Prop} {xss : List (List α)}
    (h : ∀ x ∈ xss.flatten, ∀ y ∈ xss.flatten, (p x y ↔ q x y)) :
    (∀ xs ∈ xss, xs.Pairwise p) ↔ ∀ xs ∈ xss, xs.Pairwise q := by
  refine forall₂_congr fun xs hxs => List.Pairwise.iff_of_mem ?_
  intro x y hx hy
  exact h x (mem_flatten_of_mem hxs hx) y (mem_flatten_of_mem hxs hy)

end Parts

abbrev InputRow := Option String

inductive FlattenError where
  | failedToDeserializeJson (text : String)

section Run

variable (serde : Serde ν) (args : FlattenArgs)

def flattenInput (rowId : ℕ) (out : Out ν) : InputRow → Except FlattenError (Out ν)
  | none => .ok (out.append (nullRow rowId))
  | some text =>
    match serde.fromStr text with
    | some doc => .ok (flattenDocument serde args rowId doc out)
    | none => .error (.failedToDeserializeJson text)

structure FlattenState (ν : Type) where
  rowId : ℕ
  allBatches : List (List FlattenRow)
  lastOuter : Option (JsonValue ν)

def flattenBatch (state : FlattenState ν) (batch : List InputRow) :
    Except FlattenError (FlattenState ν) := do
  let rowId := state.rowId + 1
  let out ← batch.foldlM (flattenInput serde args rowId) .new
  .ok { rowId := rowId, lastOuter := out.lastOuter,
        allBatches := if out.rows ≠ [] then state.allBatches ++ [out.rows] else state.allBatches }

def emptyRecordBatch (path : List PathToken) (lastOuter : Option (JsonValue ν)) (null : Bool)
    (rowId : ℕ) : List FlattenRow :=
  if null then
    [⟨rowId, none, some (pathToString path), none, none, lastOuter.map serde.toStringPretty⟩]
  else []

def flattenExecute (limit : Option ℕ) (batches : List (List InputRow)) :
    Except FlattenError (List FlattenRow) := do
  let state ← batches.foldlM (flattenBatch serde args) ⟨0, [], none⟩
  if state.allBatches = [] then
    .ok (emptyRecordBatch serde args.path state.lastOuter args.isOuter state.rowId)
  else
    match limit with
    | none => .ok state.allBatches.flatten
    | some n => .ok (state.allBatches.flatten.take n)

/-- The path leads to a value with items or fields for the mode. -/
def RowExpands (row : InputRow) : Prop :=
  ∃ text doc i, row = some text ∧ serde.fromStr text = some doc ∧
    getJsonValue doc.value args.path = some i ∧ args.mode.Expands i

def rowOutput (rowId : ℕ) (row : InputRow) : List FlattenRow :=
  match flattenInput serde args rowId .new row with
  | .ok out => out.rows
  | .error _ => []

def outputsFrom (rowId : ℕ) : List (List InputRow) → List (List FlattenRow)
  | [] => []
  | batch :: batches =>
    batch.map (rowOutput serde args (rowId + 1)) ++ outputsFrom (rowId + 1) batches

/-- The rows of an input row; with `OUTER`, one row of NULL if it has none. -/
def Contributes (row : InputRow) (rows : List FlattenRow) : Prop :=
  (RowExpands serde args row → ∃ rowId, rows = rowOutput serde args rowId row) ∧
  (¬ RowExpands serde args row → if args.isOuter then
      ∃ r, rows = [r] ∧ r.key = none ∧ r.index = none ∧ r.value = none
    else rows = [])

/-- The output is what the input rows are to contribute, in order and told apart by `seq`. -/
def OuterPerRow (batches : List (List InputRow)) (output : List FlattenRow) : Prop :=
  ∃ parts : List (List FlattenRow),
    List.Forall₂ (Contributes serde args) batches.flatten parts ∧ output = parts.flatten ∧
      parts.Pairwise fun rows rows' => ∀ r ∈ rows, ∀ r' ∈ rows', r.seq ≠ r'.seq

end Run

section Run

variable {serde : Serde ν} {args ars : FlattenArgs}
  {rowId : ℕ} {row : InputRow} {batches bs : List (List InputRow)} {o o' : Out ν}

lemma rows_flattenInput (h : flattenInput serde ars rowId o row = .ok o') :
    o'.rows = o.rows ++ rowOutput serde ars rowId row := by
  cases row with
  | none =>
    rw [flattenInput, Except.ok.injEq] at h
    rw [← h]
    rfl
  | some t =>
    rw [rowOutput]
    rw [flattenInput] at h ⊢
    cases hd : serde.fromStr t with
    | none => simp only [hd, reduceCtorEq] at h
    | some d =>
      simp only [hd, Except.ok.injEq, flattenDocument] at h ⊢
      rw [← h]
      cases hi : getJsonValue d.value ars.path with
      | none => simp [new]
      | some i => exact rows_flatten i ars.path o

lemma rows_foldlM_flattenInput {b : List InputRow}
    (h : b.foldlM (flattenInput serde ars rowId) o = .ok o') :
    o'.rows = o.rows ++ (b.map (rowOutput serde ars rowId)).flatten := by
  induction b generalizing o with
  | nil =>
    rw [foldlM_nil, pure_eq_ok] at h
    simp [h]
  | cons row b ih =>
    rw [foldlM_cons, bind_eq_ok] at h
    obtain ⟨mid, hm, h⟩ := h
    rw [ih h, rows_flattenInput hm, map_cons, flatten_cons, append_assoc]

lemma allBatches_foldlM_flattenBatch {s s' : FlattenState ν}
    (h : bs.foldlM (flattenBatch serde ars) s = .ok s') :
    s'.allBatches.flatten = s.allBatches.flatten ++ (outputsFrom serde ars s.rowId bs).flatten ∧
    ([] ∉ s.allBatches → [] ∉ s'.allBatches) := by
  induction bs generalizing s with
  | nil =>
    rw [foldlM_nil, pure_eq_ok] at h
    simp [outputsFrom, h]
  | cons batch bs ih =>
    rw [foldlM_cons, bind_eq_ok] at h
    obtain ⟨mid, hm, h⟩ := h
    rw [flattenBatch, bind_eq_ok] at hm
    obtain ⟨out, ho, hm⟩ := hm
    rw [Except.ok.injEq] at hm
    subst hm
    have hr := rows_foldlM_flattenInput ho
    obtain ⟨hf, hni⟩ := ih h
    rw [hf, outputsFrom, flatten_append, ← append_assoc]
    simp only [new, nil_append] at hr
    rw [← hr]
    split_ifs at hni ⊢ with he
    · refine ⟨by simp, fun hs => hni ?_⟩
      simpa [he, eq_comm] using hs
    · rw [not_not] at he
      exact ⟨by simp [he], hni⟩

lemma rowOutput_some_ne_nil_iff (rowId : ℕ) {t : String} :
    rowOutput serde ars rowId (some t) ≠ [] ↔ RowExpands serde ars (some t) := by
  rw [rowOutput, flattenInput]
  cases hd : serde.fromStr t with
  | none => simp [RowExpands, hd]
  | some d =>
    simp only [flattenDocument]
    cases hi : getJsonValue d.value ars.path with
    | none => simp [RowExpands, hd, hi, new]
    | some input =>
      refine expansion_ne_nil_iff.trans ?_
      simp [RowExpands, hd, hi]

lemma rowOutput_eq_nil_iff (rowId : ℕ) {row : InputRow} :
    rowOutput serde ars rowId row = [] ↔ row ≠ none ∧ ¬ RowExpands serde ars row := by
  cases row with
  | none => simp [rowOutput, flattenInput, append, new]
  | some text =>
    rw [← rowOutput_some_ne_nil_iff rowId, not_not]
    simp

lemma seq_of_mem_rowOutput : ∀ r ∈ rowOutput serde ars rowId row, r.seq = rowId := by
  cases row with
  | none => simp [rowOutput, flattenInput, append, new, nullRow]
  | some text =>
    rw [rowOutput, flattenInput]
    cases hd : serde.fromStr text with
    | none => exact forall_mem_nil _
    | some doc =>
      simp only [flattenDocument]
      cases hi : getJsonValue doc.value ars.path with
      | none => exact forall_mem_nil _
      | some input => exact seq_of_mem_expansion

lemma length_rowOutput (rowId rowId' : ℕ) (row : InputRow) :
    (rowOutput serde ars rowId row).length = (rowOutput serde ars rowId' row).length := by
  cases row with
  | none => rfl
  | some t =>
    rw [rowOutput, rowOutput, flattenInput, flattenInput]
    cases hd : serde.fromStr t with
    | none => rfl
    | some d =>
      simp only [flattenDocument]
      cases hi : getJsonValue d.value ars.path with
      | none => rfl
      | some i => exact length_expansion rowId' i ars.path

lemma lt_seq_of_mem_outputsFrom :
    ∀ rs ∈ outputsFrom serde ars rowId bs, ∀ r ∈ rs, rowId < r.seq := by
  induction bs generalizing rowId with
  | nil => exact forall_mem_nil _
  | cons batch bs ih =>
    intro rs hrow r hr
    rcases mem_append.mp hrow with hrow | hrow
    · obtain ⟨row, -, rfl⟩ := mem_map.mp hrow
      rw [seq_of_mem_rowOutput r hr]
      exact Nat.lt_succ_self rowId
    · exact lt_trans (Nat.lt_succ_self rowId) (ih rs hrow r hr)

lemma pairwise_outputsFrom_iff (rowId : ℕ) : ((outputsFrom serde ars rowId bs).Pairwise
      fun rs rs' => ∀ r ∈ rs, ∀ r' ∈ rs', r.seq ≠ r'.seq) ↔ ∀ b ∈ bs, b.Pairwise fun row row' =>
      rowOutput serde ars 0 row = [] ∨ rowOutput serde ars 0 row' = [] := by
  induction bs generalizing rowId with
  | nil => simp [outputsFrom]
  | cons b bs ih =>
    have hc : ∀ rs ∈ b.map (rowOutput serde ars (rowId + 1)),
        ∀ rs' ∈ outputsFrom serde ars (rowId + 1) bs,
          ∀ r ∈ rs, ∀ r' ∈ rs', r.seq ≠ r'.seq := by
      intro rs hro rs' hro' r hr r' hr'
      obtain ⟨row, -, rfl⟩ := mem_map.mp hro
      rw [seq_of_mem_rowOutput r hr]
      exact ne_of_lt (lt_seq_of_mem_outputsFrom rs' hro' r' hr')
    have hs : ∀ row row', (∀ r ∈ rowOutput serde ars (rowId + 1) row,
        ∀ r' ∈ rowOutput serde ars (rowId + 1) row', r.seq ≠ r'.seq) ↔
          rowOutput serde ars 0 row = [] ∨ rowOutput serde ars 0 row' = [] := by
      intro row row'
      rw [rowOutput_eq_nil_iff, rowOutput_eq_nil_iff, ← rowOutput_eq_nil_iff (rowId + 1),
        ← rowOutput_eq_nil_iff (rowId + 1)]
      constructor
      · intro h
        by_contra hne
        rw [not_or] at hne
        obtain ⟨r, hr⟩ := exists_mem_of_ne_nil _ hne.1
        obtain ⟨r', hr'⟩ := exists_mem_of_ne_nil _ hne.2
        exact h r hr r' hr' (by rw [seq_of_mem_rowOutput r hr, seq_of_mem_rowOutput r' hr'])
      · rintro (h | h) r hr r' hr'
        · rw [h] at hr
          cases hr
        · rw [h] at hr'
          cases hr'
    rw [outputsFrom, pairwise_append, ih, forall_mem_cons, pairwise_map, and_iff_left hc]
    simp only [hs]

lemma flattenExecute_eq_ok {o : List FlattenRow} (h : flattenExecute serde ars none bs = .ok o) :
    ((outputsFrom serde ars 0 bs).flatten ≠ [] ∨ ars.isOuter = false) ∧
        o = (outputsFrom serde ars 0 bs).flatten ∨
      (outputsFrom serde ars 0 bs).flatten = [] ∧ ars.isOuter = true ∧
        ∃ r, o = [r] ∧ r.key = none ∧ r.index = none ∧ r.value = none := by
  rw [flattenExecute, bind_eq_ok] at h
  obtain ⟨state, hs, h⟩ := h
  obtain ⟨hf, hnil⟩ := allBatches_foldlM_flattenBatch hs
  rw [flatten_nil, nil_append] at hf
  split_ifs at h with he
  · rw [he, flatten_nil] at hf
    rw [Except.ok.injEq, emptyRecordBatch] at h
    split_ifs at h with ho
    · exact .inr ⟨hf.symm, ho, _, h.symm, rfl, rfl, rfl⟩
    · exact .inl ⟨.inr (by simpa using ho), by rw [← h, ← hf]⟩
  · rw [Except.ok.injEq] at h
    refine .inl ⟨.inl ?_, by rw [← h, hf]⟩
    rw [← hf]
    intro ha
    obtain ⟨rs, hr⟩ := exists_mem_of_ne_nil _ he
    rw [flatten_eq_nil_iff.mp ha rs hr] at hr
    exact hnil not_mem_nil hr

lemma forall₂_outputsFrom (rowId : ℕ) (bs : List (List InputRow)) :
    List.Forall₂ (fun row rs => ∃ rowId, rs = rowOutput serde ars rowId row)
      bs.flatten (outputsFrom serde ars rowId bs) := by
  induction bs generalizing rowId with
  | nil => exact .nil
  | cons batch bs ih =>
    rw [flatten_cons, outputsFrom]
    refine rel_append ?_ (ih (rowId + 1))
    rw [forall₂_map_right_iff, forall₂_same]
    exact fun row _ => ⟨_, rfl⟩

lemma contributes_rowOutput_iff : Contributes serde ars row (rowOutput serde ars rowId row) ↔
    if ars.isOuter then row = none ∨ RowExpands serde ars row else row ≠ none := by
  by_cases hrw : RowExpands serde ars row
  · have hne : row ≠ none := by
      rintro rfl
      obtain ⟨text, doc, input, hn, -⟩ := hrw
      cases hn
    simp only [Contributes, hrw, true_imp_iff, not_true, false_imp_iff, and_true, or_true, hne,
      ne_eq, not_false_eq_true, ite_self, iff_true]
    exact ⟨rowId, rfl⟩
  · have hnil := @rowOutput_eq_nil_iff ν serde ars rowId row
    simp only [Contributes, hrw, false_imp_iff, not_false_eq_true, true_imp_iff, true_and, or_false,
      and_true] at hnil ⊢
    split_ifs with ho
    · constructor
      · rintro ⟨r, hr, -⟩
        by_contra hne
        rw [hnil.mpr hne] at hr
        cases hr
      · rintro rfl
        exact ⟨nullRow rowId, rfl, rfl, rfl, rfl⟩
    · exact hnil

lemma length_of_contributes (rowId : ℕ) {rs : List FlattenRow} (h : Contributes serde ars row rs) :
    if ars.isOuter then (rowOutput serde ars rowId row).length ≤ rs.length
    else rs.length ≤ (rowOutput serde ars rowId row).length := by
  by_cases hrw : RowExpands serde ars row
  · obtain ⟨rowId', rfl⟩ := h.1 hrw
    rw [length_rowOutput rowId rowId', ite_self]
  · have hr := h.2 hrw
    split_ifs at hr ⊢ with ho
    · obtain ⟨r, rfl, -⟩ := hr
      cases row with
      | none => exact le_refl 1
      | some t =>
        rw [(rowOutput_eq_nil_iff rowId).mpr ⟨some_ne_none t, hrw⟩]
        exact Nat.zero_le 1
    · rw [hr]
      exact Nat.zero_le _

lemma outerPerRow_outputs_iff :
    OuterPerRow serde ars batches (outputsFrom serde ars 0 batches).flatten ↔
      (∀ row ∈ batches.flatten,
        if ars.isOuter then row = none ∨ RowExpands serde ars row else row ≠ none) ∧
      ∀ b ∈ batches, b.Pairwise fun row row' =>
        rowOutput serde ars 0 row = [] ∨ rowOutput serde ars 0 row' = [] := by
  have ho := @forall₂_outputsFrom ν serde ars 0 batches
  rw [← pairwise_outputsFrom_iff 0]
  constructor
  · rintro ⟨parts, hpar, hf, hp⟩
    -- the cut into contributions is the cut into outputs
    have hc : parts = outputsFrom serde ars 0 batches := by
      by_cases hout : ars.isOuter = true
      · refine (eq_of_flatten_eq (forall₂_of_common ho hpar ?_) hf).symm
        rintro row rows rows' ⟨rowId, rfl⟩ hr'
        have hl := length_of_contributes rowId hr'
        rwa [if_pos hout] at hl
      · refine eq_of_flatten_eq (forall₂_of_common hpar ho ?_) hf.symm
        rintro row rows rows' hr ⟨rowId, rfl⟩
        have hl := length_of_contributes rowId hr
        rwa [if_neg hout] at hl
    subst hc
    refine ⟨fun row hrw => ?_, hp⟩
    obtain ⟨rows, -, hr, rowId, rfl⟩ := exists_of_forall₂ hpar ho row hrw
    exact contributes_rowOutput_iff.mp hr
  · rintro ⟨hr, hp⟩
    refine ⟨_, ((forall₂_and_left _ _).mpr ⟨hr, ho⟩).imp ?_, rfl, hp⟩
    rintro row rows ⟨hrw, rowId, rfl⟩
    exact contributes_rowOutput_iff.mpr hrw

def DecidedPerRow (serde : Serde ν) (args : FlattenArgs) (batches : List (List InputRow)) : Prop :=
  if args.isOuter then
    batches.flatten.length = 1 ∨ batches.flatten ≠ [] ∧
        (∀ row ∈ batches.flatten, row = none ∨ RowExpands serde args row) ∧
          ∀ b ∈ batches, b.length ≤ 1
  else
    (∀ row ∈ batches.flatten, row ≠ none) ∧ ∀ b ∈ batches, b.Pairwise fun row row' =>
        ¬ (RowExpands serde args row ∧ RowExpands serde args row')

lemma silent_of_outputsFrom_eq_nil (h : (outputsFrom serde ars rowId bs).flatten = []) :
    ∀ row ∈ bs.flatten, row ≠ none ∧ ¬ RowExpands serde ars row := by
  intro row hrw
  have ho := @forall₂_outputsFrom ν serde ars rowId bs
  obtain ⟨rows, hr, ⟨rowId', rfl⟩, -⟩ := exists_of_forall₂ ho ho row hrw
  exact (rowOutput_eq_nil_iff rowId').mp (flatten_eq_nil_iff.mp h _ hr)

lemma contributes_of_length_eq_one
    (hon : bs.flatten.length = 1) (h : (outputsFrom serde ars rowId bs).flatten ≠ []) :
    ∀ row ∈ bs.flatten, row = none ∨ RowExpands serde ars row := by
  obtain ⟨row, hrw⟩ := length_eq_one_iff.mp hon
  have ho := @forall₂_outputsFrom ν serde ars rowId bs
  rw [hrw, forall₂_cons_left_iff] at ho
  obtain ⟨rows, rest, ⟨rowId', rfl⟩, hr, hc⟩ := ho
  rw [forall₂_nil_left_iff] at hr
  rw [hrw, forall_mem_singleton]
  by_contra hs
  rw [hc, hr, (rowOutput_eq_nil_iff rowId').mpr (not_or.mp hs)] at h
  exact h rfl

lemma outerPerRow_outputs_outer_iff (hout : ars.isOuter = true)
    (h : (outputsFrom serde ars 0 batches).flatten ≠ []) :
    OuterPerRow serde ars batches (outputsFrom serde ars 0 batches).flatten ↔
      DecidedPerRow serde ars batches := by
  have hr : batches.flatten ≠ [] := by
    intro hr
    have ho := @forall₂_outputsFrom ν serde ars 0 batches
    rw [hr, forall₂_nil_left_iff] at ho
    exact h (by rw [ho, flatten_nil])
  have hb : (∀ row ∈ batches.flatten, row = none ∨ RowExpands serde ars row) →
      ((∀ b ∈ batches, b.Pairwise fun row row' =>
        rowOutput serde ars 0 row = [] ∨ rowOutput serde ars 0 row' = []) ↔
          ∀ b ∈ batches, b.length ≤ 1) := by
    intro ha
    simp only [← pairwise_false_iff]
    refine forall_pairwise_congr fun row hrw row' hr' => iff_false_intro ?_
    have hrw := ha row hrw
    have hr' := ha row' hr'
    simp only [rowOutput_eq_nil_iff]
    tauto
  rw [outerPerRow_outputs_iff, DecidedPerRow, if_pos hout]
  simp only [if_pos hout]
  constructor
  · rintro ⟨ha, hp⟩
    exact .inr ⟨hr, ha, (hb ha).mp hp⟩
  · rintro (hon | ⟨-, ha, hl⟩)
    · have ha := contributes_of_length_eq_one hon h
      refine ⟨ha, (hb ha).mpr fun b hbat => ?_⟩
      rw [← hon]
      exact (sublist_flatten_of_mem hbat).length_le
    · exact ⟨ha, (hb ha).mpr hl⟩

lemma outerPerRow_singleton_iff (ho : ars.isOuter = true)
    (h : (outputsFrom serde ars 0 batches).flatten = []) {r : FlattenRow}
    (hr : r.key = none ∧ r.index = none ∧ r.value = none) :
    OuterPerRow serde ars batches [r] ↔ DecidedPerRow serde ars batches := by
  have hs := silent_of_outputsFrom_eq_nil h
  rw [DecidedPerRow, if_pos ho]
  constructor
  · rintro ⟨parts, hpar, hf, -⟩
    have hon : List.Forall₂ (fun _ p => p.length = 1) batches.flatten parts := by
      refine ((forall₂_and_left _ _).mpr ⟨hs, hpar⟩).imp ?_
      rintro row p ⟨hrw, hp⟩
      have hp := hp.2 hrw.2
      rw [if_pos ho] at hp
      obtain ⟨r, rfl, -⟩ := hp
      rfl
    rw [← length_flatten_of_forall₂ hon, ← hf]
    exact .inl rfl
  · rintro (hon | ⟨hrws, ha, -⟩)
    · obtain ⟨row, hrw⟩ := length_eq_one_iff.mp hon
      rw [hrw, forall_mem_singleton] at hs
      refine ⟨[[r]], ?_, rfl, pairwise_singleton _ _⟩
      rw [hrw]
      refine .cons ⟨fun h => absurd h hs.2, fun _ => ?_⟩ .nil
      rw [if_pos ho]
      exact ⟨r, rfl, hr⟩
    · obtain ⟨row, hrw⟩ := exists_mem_of_ne_nil _ hrws
      rcases ha row hrw with hn | he
      · exact absurd hn (hs row hrw).1
      · exact absurd he (hs row hrw).2

/-! ### Main result -/

/-- **`OUTER` is decided per input row** exactly under `DecidedPerRow`. -/
theorem flattenExecute_outer_iff {batches : List (List InputRow)} {output : List FlattenRow}
    (h : flattenExecute serde args none batches = .ok output) :
    OuterPerRow serde args batches output ↔ DecidedPerRow serde args batches := by
  rcases flattenExecute_eq_ok h with ⟨hne, rfl⟩ | ⟨hnil, ho, r, rfl, hr⟩
  · by_cases ho : args.isOuter = true
    · have hout : (outputsFrom serde args 0 batches).flatten ≠ [] := by
        simpa [ho] using hne
      exact outerPerRow_outputs_outer_iff ho hout
    · rw [outerPerRow_outputs_iff, DecidedPerRow, if_neg ho]
      simp only [if_neg ho]
      refine and_congr_right fun hrw => forall_pairwise_congr ?_
      intro row hrow row' hr'
      rw [rowOutput_eq_nil_iff, rowOutput_eq_nil_iff, and_iff_right (hrw row hrow),
        and_iff_right (hrw row' hr'), not_and_or]
  · exact outerPerRow_singleton_iff ho hnil hr

theorem flattenExecute_outer_batches :
    ∃ output, flattenExecute sampleSerde ⟨[], true, false, .both⟩ none [[some "[1]"], [none]] =
        .ok output ∧
      OuterPerRow sampleSerde ⟨[], true, false, .both⟩ [[some "[1]"], [none]] output := by
  refine ⟨_, rfl, (flattenExecute_outer_iff rfl).mpr ?_⟩
  rw [DecidedPerRow, if_pos rfl]
  refine .inr ⟨cons_ne_nil _ _, ?_, by decide⟩
  rw [flatten_cons, flatten_cons, flatten_nil, singleton_append,
    singleton_append, forall_mem_cons, forall_mem_singleton]
  exact ⟨.inr ⟨_, _, _, rfl, rfl, rfl, rfl, cons_ne_nil _ _⟩, .inl rfl⟩

theorem flattenExecute_not_per_row :
    (∃ output, flattenExecute sampleSerde ⟨[], false, false, .both⟩ none [[none]] = .ok output ∧
        output = [⟨1, none, none, none, none, none⟩] ∧
        ¬ OuterPerRow sampleSerde ⟨[], false, false, .both⟩ [[none]] output) ∧
      (∃ output, flattenExecute sampleSerde ⟨[], true, false, .both⟩ none
            [[some "[]", some "[1]"]] = .ok output ∧
        output = [⟨1, none, some "[0]", some 0, some "1", some "[1]"⟩] ∧
        ¬ OuterPerRow sampleSerde ⟨[], true, false, .both⟩ [[some "[]", some "[1]"]] output) ∧
      ∃ output, flattenExecute sampleSerde ⟨[], true, false, .both⟩ none
            [[some "[1]", some "[1]"]] = .ok output ∧
        output = [⟨1, none, some "[0]", some 0, some "1", some "[1]"⟩,
          ⟨1, none, some "[0]", some 0, some "1", some "[1]"⟩] ∧
        ¬ OuterPerRow sampleSerde ⟨[], true, false, .both⟩ [[some "[1]", some "[1]"]] output := by
  refine ⟨⟨_, rfl, rfl, fun h => ?_⟩, ⟨_, rfl, rfl, fun h => ?_⟩, ⟨_, rfl, rfl, fun h => ?_⟩⟩
  · exact (outerPerRow_outputs_iff.mp h).1 none mem_cons_self rfl
  · have hr := (outerPerRow_outputs_iff.mp h).1 (some "[]") mem_cons_self
    rw [if_pos rfl, or_iff_right (some_ne_none _)] at hr
    exact (rowOutput_some_ne_nil_iff 1).mpr hr rfl
  · have hp := (outerPerRow_outputs_iff.mp h).2 _ mem_cons_self
    rcases (pairwise_pair.mp hp) with hr | hr
    · cases hr
    · cases hr

end Run

end Rustice
