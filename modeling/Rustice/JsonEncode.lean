import Rustice.Fallible
import Rustice.JsonPath

/-!
# Arrow Arrays as JSON

`encode_array` encodes an array by its type, and calls itself on the arrays in it.
-/

namespace Rustice

namespace JsonEncoder

open List

variable {ν : Type} [IntCast ν]

/-- A value of a type without children. A float is a number if JSON has it, and a binary value is
its base64 text. -/
inductive FlatValue (ν : Type) where
  | boolean (b : Bool)
  | number (n : ν)
  | float (n : Option ν)
  | text (s : String)
  | decimal256 (low high : String)
  | interval (fields : List (String × String))

/-- An array by its rows. A row of a list or a map is the array of its items or entries, and a row
of a run-end encoded array the array of its value. A row of a union is its type id, the row of the
child at the index of the row, if there is one, and the row of the child at its offset. -/
inductive ArrowArray (ν : Type) where
  | null (len : ℕ)
  | flat (rows : List (Option (FlatValue ν)))
  | list (rows : List (Option (ArrowArray ν)))
  | struct (valid : List Bool) (columns : List (String × ArrowArray ν))
  | dictionary (keys : List (Option ℕ)) (values : ArrowArray ν)
  | union (rows : List (ℕ × Option (ArrowArray ν) × ArrowArray ν))
  | runEndEncoded (rows : List (ArrowArray ν))
  | map (rows : List (Option (ArrowArray ν)))

inductive EncodeError where
  | invalidFloatValue
  | panicked
  | outOfFuel

abbrev Encoding := Except EncodeError

/-- The members of a `Map` after the insertions. -/
def lastOf {α : Type} : List (String × α) → List (String × α)
  | [] => []
  | p :: ps => if p.1 ∈ ps.map Prod.fst then lastOf ps else p :: lastOf ps

def encodeValue : FlatValue ν → Encoding (JsonValue ν)
  | .boolean b => .ok (.bool b)
  | .number n => .ok (.number n)
  | .float (some n) => .ok (.number n)
  | .float none => .error .invalidFloatValue
  | .text s => .ok (.string s)
  | .decimal256 low high => .ok (.array [.string low, .string high])
  | .interval fields => .ok (.object (fields.map fun f => (f.1, .string f.2)))

/-- The loop of the encoders. -/
def encodeRows {α : Type} (row : α → Encoding (JsonValue ν)) (rows : List α) :
    Encoding (JsonValue ν) :=
  .array <$> rows.mapM row

/-- The loop over the rows that are not NULL. -/
def encodeNullable {α : Type} (row : α → Encoding (JsonValue ν)) :
    List (Option α) → Encoding (JsonValue ν) :=
  encodeRows fun
    | none => .ok .null
    | some value => row value

section Encoders

variable (encode : ArrowArray ν → Encoding (JsonValue ν))

def fieldAt (i : ℕ) (column : String × JsonValue ν) : Encoding (String × JsonValue ν) :=
  match column.2.get (.index i) with
  | some value => .ok (column.1, value)
  | none => .error .panicked

def structRow (encoded : List (String × JsonValue ν)) (i : ℕ) : Encoding (JsonValue ν) := do
  let fields ← encoded.mapM (fieldAt i)
  return .object (lastOf fields)

def encodeStructArray (valid : List Bool) (columns : List (String × ArrowArray ν)) :
    Encoding (JsonValue ν) := do
  let encoded ← columns.mapM fun column => (column.1, ·) <$> encode column.2
  encodeRows (fun row => if row.1 then structRow encoded row.2 else .ok .null) valid.zipIdx

def encodeDictionaryArray (keys : List (Option ℕ)) (values : ArrowArray ν) :
    Encoding (JsonValue ν) := do
  let encoded ← encode values
  return .object [("keys", .array (keys.map fun
    | none => .null
    | some key => .number (key : ℤ))), ("values", encoded)]

def encodeUnionArray : List (ℕ × Option (ArrowArray ν) × ArrowArray ν) → Encoding (JsonValue ν) :=
  encodeRows fun row =>
    match row.2.1 with
    | none => .error .panicked
    | some child => do
      let value ← encode child
      return .object [("type_id", .number (row.1 : ℤ)), ("value", value)]

def encodeRunEndEncodedArray : List (ArrowArray ν) → Encoding (JsonValue ν) :=
  encodeRows fun row => do
    let value ← encode (.runEndEncoded [row])
    return .object [("value", value)]

def encodeMapArray : List (Option (ArrowArray ν)) → Encoding (JsonValue ν) :=
  encodeNullable fun entries => do
    let value ← encode (.map [some entries])
    return .array [.object [("entries", value)]]

end Encoders

def encodeArray : ℕ → ArrowArray ν → Encoding (JsonValue ν)
  | 0, _ => .error .outOfFuel
  | fuel + 1, array =>
    match array with
    | .null len => .ok (.array (replicate len .null))
    | .flat rows => encodeNullable encodeValue rows
    | .list rows => encodeNullable (encodeArray fuel) rows
    | .struct valid columns => encodeStructArray (encodeArray fuel) valid columns
    | .dictionary keys values => encodeDictionaryArray (encodeArray fuel) keys values
    | .union rows => encodeUnionArray (encodeArray fuel) rows
    | .runEndEncoded rows => encodeRunEndEncodedArray (encodeArray fuel) rows
    | .map rows => encodeMapArray (encodeArray fuel) rows

namespace ArrowArray

def len : ArrowArray ν → ℕ
  | null len => len
  | flat rows => rows.length
  | list rows => rows.length
  | struct valid _ => valid.length
  | dictionary keys _ => keys.length
  | union rows => rows.length
  | runEndEncoded rows => rows.length
  | map rows => rows.length

/-- The call on an array calls the encoder again on another. -/
inductive Calls : ArrowArray ν → ArrowArray ν → Prop where
  | list {rows items} : some items ∈ rows → Calls (list rows) items
  | struct {valid columns column} : column ∈ columns → Calls (struct valid columns) column.2
  | dictionary {keys values} : Calls (dictionary keys values) values
  | union {rows id child row} : (id, some child, row) ∈ rows → Calls (union rows) child
  | runEndEncoded {rows row} : row ∈ rows → Calls (runEndEncoded rows) (runEndEncoded [row])
  | map {rows entries} : some entries ∈ rows → Calls (map rows) (map [some entries])

/-- The JSON form of a row. A row of a union that is not NULL has its type id and its value. -/
inductive RowForm : ArrowArray ν → ℕ → JsonValue ν → Prop where
  | null {n i} : i < n → RowForm (null n) i .null
  | flatNull {rows i} : rows[i]? = some none → RowForm (flat rows) i .null
  | flat {rows i v j} : rows[i]? = some (some v) → encodeValue v = .ok j → RowForm (flat rows) i j
  | listNull {rows i} : rows[i]? = some none → RowForm (list rows) i .null
  | list {rows i b items} : rows[i]? = some (some b) → items.length = b.len →
      (∀ k j, items[k]? = some j → RowForm b k j) → RowForm (list rows) i (.array items)
  | structNull {valid columns i} : valid[i]? = some false → RowForm (struct valid columns) i .null
  | struct {valid i} {columns : List (String × ArrowArray ν)}
      {fields : List (String × JsonValue ν)} : valid[i]? = some true →
      fields.map Prod.fst = columns.map Prod.fst →
      (∀ (k : ℕ) (column : String × ArrowArray ν) (field : String × JsonValue ν),
        columns[k]? = some column → fields[k]? = some field → RowForm column.2 i field.2) →
      RowForm (struct valid columns) i (.object (lastOf fields))
  | dictionaryNull {keys values i} : keys[i]? = some none → RowForm (dictionary keys values) i .null
  | dictionary {keys values i k j} : keys[i]? = some (some k) → RowForm values k j →
      RowForm (dictionary keys values) i j
  | unionNull {rows i id read row} : rows[i]? = some (id, read, row) → RowForm row 0 .null →
      RowForm (union rows) i .null
  | union {rows i id read row j} : rows[i]? = some (id, read, row) → j ≠ .null → RowForm row 0 j →
      RowForm (union rows) i
        (.object [("type_id", .number ((id : ℕ) : ℤ)), ("value", .array [j])])
  | runEndEncoded {rows i row j} : rows[i]? = some row → RowForm row 0 j →
      RowForm (runEndEncoded rows) i j
  | mapNull {rows i} : rows[i]? = some none → RowForm (map rows) i .null
  | map {rows i b items} : rows[i]? = some (some b) → items.length = b.len →
      (∀ k j, items[k]? = some j → RowForm b k j) → RowForm (map rows) i (.array items)

/-- A JSON array with the form of each row. -/
def Pointwise (array : ArrowArray ν) (r : JsonValue ν) : Prop :=
  ∃ items, r = .array items ∧ items.length = array.len ∧
    ∀ i j, items[i]? = some j → RowForm array i j

/-- Not a dictionary, and if it is a union, each row is not NULL and has the form of the row of the
child at its own index. -/
def Sound : ArrowArray ν → Prop
  | dictionary _ _ => False
  | union rows => ∀ id child row, (id, some child, row) ∈ rows →
    child.len = 1 ∧ ∃ j, j ≠ .null ∧ RowForm child 0 j ∧ RowForm row 0 j
  | _ => True

def Encodes (array : ArrowArray ν) (r : JsonValue ν) : Prop :=
  ∃ fuel, encodeArray fuel array = .ok r

variable {array a : ArrowArray ν} {r : JsonValue ν} {fuel fl : ℕ} {α : Type} {i : ℕ} {rs : List α}

lemma pointwise_of_encodeRows {row : α → Encoding (JsonValue ν)}
    (h : encodeRows row rs = .ok r) (hlen : rs.length = a.len)
    (hr : ∀ i x j, rs[i]? = some x → row x = .ok j → RowForm a i j) : a.Pointwise r := by
  obtain ⟨xs, hi, rfl⟩ := map_eq_ok.mp h
  refine ⟨xs, rfl, (length_of_mapM_eq_ok hi).trans hlen, fun i j hj => ?_⟩
  have hlt : i < rs.length := by
    rw [← length_of_mapM_eq_ok hi]
    exact (List.getElem?_eq_some_iff.mp hj).1
  obtain ⟨j', hj', hx⟩ := getElem?_of_mapM_eq_ok hi (getElem?_eq_getElem hlt)
  rw [hj, Option.some.injEq] at hj'
  exact hr i _ j (getElem?_eq_getElem hlt) (hj' ▸ hx)

omit [IntCast ν] in
lemma fieldAt_eq_ok_iff {c f : String × JsonValue ν} : fieldAt i c = .ok f ↔
    c.2.get (.index i) = some f.2 ∧ f.1 = c.1 := by
  rw [fieldAt]
  cases c.2.get (.index i) with
  | none => simp
  | some value => simp [Prod.ext_iff, eq_comm, and_comm]

omit [IntCast ν] in
lemma map_fst_of_mapM {α β : Type} {f : String × α → Encoding (String × β)}
    {xs : List (String × α)} {ys : List (String × β)} (hf : ∀ x y, f x = .ok y → y.1 = x.1)
    (h : xs.mapM f = .ok ys) : ys.map Prod.fst = xs.map Prod.fst := by
  have ha := mapM_eq_ok_iff.mp h
  clear h
  induction ha with
  | nil => rfl
  | cons hx _ ih => rw [map_cons, map_cons, hf _ _ hx, ih]

/-- The first row calls the encoder on an array of the same type with this row, and so on. -/
lemma encodeArray_runEndEncoded (fl : ℕ) (ro : ArrowArray ν) (rs : List (ArrowArray ν)) :
    encodeArray fl (.runEndEncoded (ro :: rs)) = .error .outOfFuel := by
  induction fl generalizing rs with
  | zero => rfl
  | succ fl ih =>
    rw [encodeArray, encodeRunEndEncodedArray, encodeRows, mapM_cons, ih]
    rfl

lemma encodeArray_map (fl : ℕ) (es : ArrowArray ν) (rs : List (Option (ArrowArray ν))) :
    encodeArray fl (.map (some es :: rs)) = .error .outOfFuel := by
  induction fl generalizing rs with
  | zero => rfl
  | succ fl ih =>
    rw [encodeArray, encodeMapArray, encodeNullable, encodeRows, mapM_cons]
    simp only [ih]
    rfl

lemma RowForm.unique {j j' : JsonValue ν} (h : RowForm a i j) (h' : RowForm a i j') : j = j' := by
  have hlist : ∀ {b : ArrowArray ν} {items items' : List (JsonValue ν)}, items.length = b.len →
      items'.length = b.len → (∀ k j, items[k]? = some j → ∀ j', RowForm b k j' → j = j') →
      (∀ k j, items'[k]? = some j → RowForm b k j) → items = items' := by
    intro b items items' hl hl' hf hf'
    refine ext_getElem (hl.trans hl'.symm) fun k hk hk' => ?_
    exact hf k _ (getElem?_eq_getElem hk) _ (hf' k _ (getElem?_eq_getElem hk'))
  induction h generalizing j' with
  | null =>
    cases h'
    rfl
  | flatNull hi => cases h' <;> grind
  | flat hi hj => cases h' <;> grind
  | listNull hi => cases h' <;> grind
  | list hi hl hf ih =>
    cases h' with
    | listNull hi' => grind
    | list hi' hl' hf' =>
      rw [hi] at hi'
      cases hi'
      rw [hlist hl hl' (fun k j hk j' hj' => ih k j hk hj') hf']
  | structNull hi => cases h' <;> grind
  | @struct valid i cs fs hi hn hf ih =>
    cases h' with
    | structNull hi' => grind
    | @struct _ _ _ fs' hi' hn' hf' =>
      have hm := hn.trans hn'.symm
      refine congrArg (JsonValue.object ∘ lastOf) (ext_getElem ?_ fun k hk hk' => ?_)
      · simpa using congrArg length hm
      · have hkc : k < cs.length := by
          have hl := congrArg length hn'
          rw [length_map, length_map] at hl
          omega
        refine Prod.ext ?_ (ih k cs[k] _ (getElem?_eq_getElem hkc) (getElem?_eq_getElem hk)
          (hf' k cs[k] _ (getElem?_eq_getElem hkc) (getElem?_eq_getElem hk')))
        simpa [hk, hk'] using congrArg (·[k]?) hm
  | dictionaryNull hi => cases h' <;> grind
  | dictionary hi hj ih => cases h' <;> grind
  | unionNull hi hj ih => cases h' <;> grind
  | union hi hne hj ih => cases h' <;> grind
  | runEndEncoded hi hj ih =>
    cases h'
    grind
  | mapNull hi => cases h' <;> grind
  | map hi hl hf ih =>
    cases h' with
    | mapNull hi' => grind
    | map hi' hl' hf' =>
      rw [hi] at hi'
      cases hi'
      rw [hlist hl hl' (fun k j hk j' hj' => ih k j hk hj') hf']

open Relation

/-- The induction is on the fuel: the calls that an array makes have less. -/
lemma pointwise_of_sound (h : encodeArray fl a = .ok r)
    (hs : ∀ b, ReflTransGen Calls a b → b.Sound) : a.Pointwise r := by
  induction fl generalizing a r with
  | zero => cases h
  | succ fl ih =>
    have hc : ∀ {b}, Calls a b → ∀ {v}, encodeArray fl b = .ok v → b.Pointwise v :=
      fun hb _ hv => ih hv fun c hc => hs c (hc.head hb)
    cases a with
    | null n =>
      cases h
      refine ⟨_, rfl, length_replicate, fun i j hj => ?_⟩
      rw [getElem?_replicate] at hj
      split at hj
      case isTrue hi =>
        cases hj
        exact .null hi
      case isFalse => cases hj
    | flat rs =>
      refine pointwise_of_encodeRows h rfl fun i x j hx hj => ?_
      cases x with
      | none =>
        cases hj
        exact .flatNull hx
      | some v => exact .flat hx hj
    | list rs =>
      refine pointwise_of_encodeRows h rfl fun i x j hx hj => ?_
      cases x with
      | none =>
        cases hj
        exact .listNull hx
      | some b =>
        obtain ⟨xs, rfl, hl, hf⟩ := hc (.list (mem_of_getElem? hx)) hj
        exact .list hx hl hf
    | struct valid columns =>
      obtain ⟨encoded, he, h⟩ := bind_eq_ok.mp h
      refine pointwise_of_encodeRows h length_zipIdx fun i x j hx hj => ?_
      rw [getElem?_zipIdx, Nat.zero_add] at hx
      obtain ⟨v, hv, rfl⟩ := Option.map_eq_some_iff.mp hx
      cases v with
      | false =>
        cases hj
        exact .structNull hv
      | true =>
        obtain ⟨fields, hf, hj⟩ := bind_eq_ok.mp hj
        cases hj
        refine .struct hv ?_ fun k column fd hk hfk => ?_
        · rw [map_fst_of_mapM (fun x y hy => (fieldAt_eq_ok_iff.mp hy).2) hf]
          refine map_fst_of_mapM (fun x y hy => ?_) he
          obtain ⟨_, -, rfl⟩ := map_eq_ok.mp hy
          rfl
        · obtain ⟨e, hek, hen⟩ := getElem?_of_mapM_eq_ok he hk
          obtain ⟨val, hev, rfl⟩ := map_eq_ok.mp hen
          obtain ⟨f, hfk', hff⟩ := getElem?_of_mapM_eq_ok hf hek
          rw [hfk, Option.some.injEq] at hfk'
          obtain ⟨xs, rfl, -, hi⟩ := hc (.struct (mem_of_getElem? hk)) hev
          exact hi i fd.2 (hfk' ▸ (fieldAt_eq_ok_iff.mp hff).1)
    | dictionary keys values => exact (hs _ .refl).elim
    | union rs =>
      refine pointwise_of_encodeRows h rfl fun i x j hx hj => ?_
      obtain ⟨id, _ | ch, row⟩ := x
      · cases hj
      · obtain ⟨val, hv, hj⟩ := bind_eq_ok.mp hj
        cases hj
        obtain ⟨xs, rfl, hl, hf⟩ := hc (.union (mem_of_getElem? hx)) hv
        obtain ⟨hone, j, hne, hc, hr⟩ := hs _ .refl id ch row (mem_of_getElem? hx)
        obtain ⟨x, rfl⟩ := length_eq_one_iff.mp (hl.trans hone)
        rw [(hf 0 x rfl).unique hc]
        exact .union hx hne hr
    | runEndEncoded rs =>
      refine pointwise_of_encodeRows h rfl fun i x j hx hj => ?_
      obtain ⟨val, hv, -⟩ := bind_eq_ok.mp hj
      cases (encodeArray_runEndEncoded fl x []).symm.trans hv
    | map rs =>
      refine pointwise_of_encodeRows h rfl fun i x j hx hj => ?_
      cases x with
      | none =>
        cases hj
        exact .mapNull hx
      | some es =>
        obtain ⟨val, hv, -⟩ := bind_eq_ok.mp hj
        cases (encodeArray_map fl es []).symm.trans hv

lemma RowForm.of_union {rs : List (ℕ × Option (ArrowArray ν) × ArrowArray ν)} {i id : ℕ}
    {rd : Option (ArrowArray ν)} {ro : ArrowArray ν} {fs : List (String × JsonValue ν)}
    (h : RowForm (.union rs) i (.object fs)) (hx : rs[i]? = some (id, rd, ro)) :
    ∃ x, x ≠ .null ∧ RowForm ro 0 x ∧
      fs = [("type_id", .number (id : ℤ)), ("value", .array [x])] := by
  generalize hj : JsonValue.object fs = j at h
  cases h with
  | unionNull => cases hj
  | union hx' hne hr =>
    rw [hx] at hx'
    cases hx'
    exact ⟨_, hne, hr, JsonValue.object.inj hj⟩

omit [IntCast ν] in
lemma exists_of_encodeRows {rw : α → Encoding (JsonValue ν)} {x : α}
    (h : encodeRows rw rs = .ok r) (hx : x ∈ rs) : ∃ j, rw x = .ok j := by
  obtain ⟨_, hi, -⟩ := map_eq_ok.mp h
  exact exists_of_mapM_eq_ok hi hx

lemma Encodes.exists_of_calls {b : ArrowArray ν} (h : a.Encodes r) (hb : Calls a b) :
    ∃ v, b.Encodes v := by
  obtain ⟨_ | fl, h⟩ := h
  · cases h
  suffices hv : ∃ v, encodeArray fl b = .ok v from hv.imp fun _ hv => ⟨fl, hv⟩
  cases hb with
  | list hm =>
    obtain ⟨v, hv⟩ := exists_of_encodeRows h hm
    exact ⟨v, hv⟩
  | struct hm =>
    obtain ⟨_, he, -⟩ := bind_eq_ok.mp h
    obtain ⟨_, hv⟩ := exists_of_mapM_eq_ok he hm
    exact (map_eq_ok.mp hv).imp fun _ hv => hv.1
  | dictionary => exact (bind_eq_ok.mp h).imp fun _ hv => hv.1
  | union hm =>
    obtain ⟨_, hj⟩ := exists_of_encodeRows h hm
    exact (bind_eq_ok.mp hj).imp fun _ hv => hv.1
  | runEndEncoded hm =>
    obtain ⟨_, hj⟩ := exists_of_encodeRows h hm
    exact (bind_eq_ok.mp hj).imp fun _ hv => hv.1
  | map hm =>
    obtain ⟨_, hj⟩ := exists_of_encodeRows h hm
    exact (bind_eq_ok.mp hj).imp fun _ hv => hv.1

lemma sound_of_pointwise (h : a.Encodes r) (hp : a.Pointwise r)
    (hc : ∀ b v, Calls a b → b.Encodes v → b.Pointwise v) : a.Sound := by
  obtain ⟨_ | fl, h⟩ := h
  · cases h
  cases a with
  | dictionary keys values =>
    obtain ⟨xs, rfl, -⟩ := hp
    obtain ⟨_, -, hr⟩ := bind_eq_ok.mp h
    cases hr
  | union rows =>
    intro id c row hm
    obtain ⟨xs, rfl, -, hf⟩ := hp
    obtain ⟨_, hi, hj⟩ := map_eq_ok.mp h
    cases hj
    obtain ⟨i, hx⟩ := List.mem_iff_getElem?.mp hm
    obtain ⟨j, hj, hu⟩ := getElem?_of_mapM_eq_ok hi hx
    obtain ⟨val, hv, hr⟩ := bind_eq_ok.mp hu
    cases hr
    obtain ⟨xs', rfl, hl, hf'⟩ := hc c val (.union hm) ⟨fl, hv⟩
    obtain ⟨x, hne, hr, hx'⟩ := (hf i _ hj).of_union hx
    obtain rfl : xs' = [x] := by simpa using hx'
    exact ⟨hl.symm, x, hne, hf' 0 x rfl, hr⟩
  | _ => trivial

/-! ### Main result -/

def nestedList : ArrowArray ℤ := list [some (flat [some (.number 1), none]), none]

def unionOf (read row : ℤ) : ArrowArray ℤ :=
  union [(0, some (flat [some (.number read)]), flat [some (.number row)])]

end ArrowArray

end JsonEncoder

end Rustice
