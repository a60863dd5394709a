import Rustice.JsonEncode

/-!
# The Calls of `encode_array`

An array of a type calls the encoder on arrays of its child types, but a map and a run-end encoded
array call it on slices of themselves.
-/

namespace Rustice

namespace JsonEncoder

open List

variable {ν : Type} [IntCast ν]

/-- The types of arrays; a list is of any kind. -/
inductive ArrowType where
  | null
  | flat
  | list (item : ArrowType)
  | struct (fields : List (String × ArrowType))
  | dictionary (value : ArrowType)
  | union (first : ArrowType) (rest : List ArrowType)
  | runEndEncoded (value : ArrowType)
  | map (entries : ArrowType)

namespace ArrowType

@[elab_as_elim] lemma induct {P : ArrowType → Prop} (null : P null) (flat : P flat)
    (list : ∀ t, P t → P (list t)) (struct : ∀ fs, (∀ f ∈ fs, P f.2) → P (struct fs))
    (dictionary : ∀ t, P t → P (dictionary t))
    (union : ∀ t ts, (∀ u ∈ t :: ts, P u) → P (union t ts))
    (runEndEncoded : ∀ t, P t → P (runEndEncoded t)) (map : ∀ t, P t → P (map t))
    (t : ArrowType) : P t :=
  @ArrowType.rec P (fun fs => ∀ f ∈ fs, P f.2) (fun ts => ∀ u ∈ ts, P u) (fun f => P f.2)
    null flat list struct dictionary
    (fun t ts ht hts => union t ts (forall_mem_cons.mpr ⟨ht, hts⟩)) runEndEncoded map
    (forall_mem_nil _) (fun _ _ hf hfs => forall_mem_cons.mpr ⟨hf, hfs⟩)
    (forall_mem_nil _) (fun _ _ ht hts => forall_mem_cons.mpr ⟨ht, hts⟩) (fun _ _ ht => ht) t

inductive ArrayOf : ArrowType → ArrowArray ν → Prop where
  | null {n} : ArrayOf null (.null n)
  | flat {rows} : ArrayOf flat (.flat rows)
  | list {item rows} : (∀ b, some b ∈ rows → ArrayOf item b) → ArrayOf (list item) (.list rows)
  | struct {fields valid} {columns : List (String × ArrowArray ν)} :
      columns.map Prod.fst = fields.map Prod.fst → (∀ c ∈ columns, c.2.len = valid.length) →
      (∀ f c, (f, c) ∈ fields.zip columns → ArrayOf f.2 c.2) →
      ArrayOf (struct fields) (.struct valid columns)
  | dictionary {value keys values} : ArrayOf value values →
      ArrayOf (dictionary value) (.dictionary keys values)
  | union {first rest} {rows : List (ℕ × Option (ArrowArray ν) × ArrowArray ν)} :
      (∀ row ∈ rows, row.1 < (first :: rest).length) →
      (∀ row ∈ rows, ∀ t, (first :: rest)[row.1]? = some t → ∀ b, row.2.1 = some b → ArrayOf t b) →
      (∀ row ∈ rows, ∀ t, (first :: rest)[row.1]? = some t → ArrayOf t row.2.2) →
      ArrayOf (union first rest) (.union rows)
  | runEndEncoded {value rows} : (∀ b ∈ rows, ArrayOf value b) →
      ArrayOf (runEndEncoded value) (.runEndEncoded rows)
  | map {entries rows} : (∀ b, some b ∈ rows → ArrayOf entries b) →
    ArrayOf (map entries) (.map rows)

/-- A type without maps and run-end encoded types. -/
inductive Plain : ArrowType → Prop where
  | null : Plain null
  | flat : Plain flat
  | list {item} : Plain item → Plain (list item)
  | struct {fields} : (∀ f ∈ fields, Plain f.2) → Plain (struct fields)
  | dictionary {value} : Plain value → Plain (dictionary value)
  | union {first rest} : (∀ t ∈ first :: rest, Plain t) → Plain (union first rest)

variable (ν) in
/-- On each array of the type the encoder returns, and calls itself on arrays of smaller types. -/
def Returns (t : ArrowType) : Prop :=
  ∀ array : ArrowArray ν, ArrayOf t array → (∃ f, encodeArray f array ≠ .error .outOfFuel) ∧
    ∀ b, ArrowArray.Calls array b → ∃ u, ArrayOf u b ∧ sizeOf u < sizeOf t

variable {t : ArrowType} {array a : ArrowArray ν} {α β : Type} {b : ArrowArray ν} {e : EncodeError}
  {f : ℕ} {y : β}

lemma exists_of_zip_snd {xs : List α} {ys : List β} (h : ys.length ≤ xs.length) (hy : y ∈ ys) :
    ∃ x, (x, y) ∈ xs.zip ys := by
  obtain ⟨i, hi⟩ := List.mem_iff_getElem?.mp hy
  have hlt := (List.getElem?_eq_some_iff.mp hi).1
  refine ⟨xs[i], List.mem_iff_getElem?.mpr ⟨i, ?_⟩⟩
  rw [getElem?_zip_eq_some]
  exact ⟨getElem?_eq_getElem (by omega), hi⟩

omit [IntCast ν] in
/-- A call of an array of a plain type is on an array of a child type. -/
lemma exists_of_calls (ht : Plain t) (ha : ArrayOf t a)
    (hb : ArrowArray.Calls a b) : ∃ u, ArrayOf u b ∧ sizeOf u < sizeOf t ∧ Plain u := by
  cases hb with
  | list hm =>
    cases ha with
    | list ha =>
      cases ht with
      | list ht => exact ⟨_, ha _ hm, by simp, ht⟩
  | @struct valid columns c hm =>
    cases ha with
    | @struct fields _ _ hn _ ha =>
      cases ht with
      | struct ht =>
        have hl := congrArg length hn
        rw [length_map, length_map] at hl
        obtain ⟨f, hf⟩ := exists_of_zip_snd hl.le hm
        have hfm := (of_mem_zip hf).1
        refine ⟨_, ha f c hf, ?_, ht f hfm⟩
        have hs := sizeOf_lt_of_mem hfm
        have hp : sizeOf f = 1 + sizeOf f.1 + sizeOf f.2 := rfl
        simp only [struct.sizeOf_spec]
        omega
  | dictionary =>
    cases ha with
    | dictionary ha =>
      cases ht with
      | dictionary ht => exact ⟨_, ha, by simp, ht⟩
  | @union rows id child row hm =>
    cases ha with
    | @union first rest _ hid hc _ =>
      cases ht with
      | union ht =>
        have hg := getElem?_eq_getElem (hid _ hm)
        have hgm := mem_of_getElem? hg
        refine ⟨_, hc _ hm _ hg _ rfl, ?_, ht _ hgm⟩
        have hs := sizeOf_lt_of_mem hgm
        simp only [union.sizeOf_spec, cons.sizeOf_spec] at hs ⊢
        omega
  | runEndEncoded =>
    cases ha
    cases ht
  | map =>
    cases ha
    cases ht

omit [IntCast ν] in
lemma exists_of_encodeRows_eq_error {r : β → Encoding (JsonValue ν)} {rs : List β}
    (h : encodeRows r rs = .error e) : ∃ x ∈ rs, r x = .error e := by
  cases hm : rs.mapM r with
  | ok items =>
    rw [encodeRows, hm] at h
    cases h
  | error e' =>
    rw [encodeRows, hm] at h
    cases h
    exact exists_of_mapM_eq_error hm

omit [IntCast ν] in
lemma eq_error_of_bind_pure {x : Encoding β} {f : β → JsonValue ν}
    (h : (x >>= fun a => pure (f a)) = .error e) : x = .error e := by
  obtain h | ⟨_, _, h⟩ := bind_eq_error.mp h
  · exact h
  · cases h

/-- The encoder itself does not run out of fuel, only a call does. -/
lemma exists_calls_of_outOfFuel (h : encodeArray (f + 1) a = .error .outOfFuel) :
    ∃ b, ArrowArray.Calls a b ∧ encodeArray f b = .error .outOfFuel := by
  cases a with
  | null n => cases h
  | flat rs =>
    obtain ⟨_ | v, _, he⟩ := exists_of_encodeRows_eq_error h
    · cases he
    · rcases v with _ | _ | (_ | _) | _ | _ | _ <;> cases he
  | list rs =>
    obtain ⟨_ | b, hm, he⟩ := exists_of_encodeRows_eq_error h
    · cases he
    · exact ⟨b, .list hm, he⟩
  | struct vl columns =>
    obtain h | ⟨encoded, _, h⟩ := bind_eq_error.mp h
    · obtain ⟨c, hm, he⟩ := exists_of_mapM_eq_error h
      refine ⟨c.2, .struct hm, ?_⟩
      cases hc : encodeArray f c.2 with
      | error e =>
        rw [hc] at he
        cases he
        rfl
      | ok v =>
        rw [hc] at he
        cases he
    · obtain ⟨⟨vl, i⟩, _, he⟩ := exists_of_encodeRows_eq_error h
      cases vl with
      | false => cases he
      | true =>
        obtain ⟨c, _, he⟩ := exists_of_mapM_eq_error (eq_error_of_bind_pure he)
        rw [fieldAt] at he
        split at he <;> cases he
  | dictionary keys vs => exact ⟨vs, .dictionary, eq_error_of_bind_pure h⟩
  | union rs =>
    obtain ⟨⟨id, _ | ch, r⟩, hm, he⟩ := exists_of_encodeRows_eq_error h
    · cases he
    · exact ⟨ch, .union hm, eq_error_of_bind_pure he⟩
  | runEndEncoded rs =>
    obtain ⟨r, hm, he⟩ := exists_of_encodeRows_eq_error h
    exact ⟨_, .runEndEncoded hm, eq_error_of_bind_pure he⟩
  | map rs =>
    obtain ⟨_ | entries, hm, he⟩ := exists_of_encodeRows_eq_error h
    · cases he
    · exact ⟨_, .map hm, eq_error_of_bind_pure he⟩

lemma encodeArray_ne_outOfFuel (hf : sizeOf t ≤ f) (ht : Plain t)
    (ha : ArrayOf t a) : encodeArray f a ≠ .error .outOfFuel := by
  induction f generalizing t a with
  | zero => cases t <;> simp at hf
  | succ f ih =>
    intro h
    obtain ⟨b, hb, he⟩ := exists_calls_of_outOfFuel h
    obtain ⟨u, hu, hs, hp⟩ := exists_of_calls ht ha hb
    exact ih (by omega) hp hu he

omit [IntCast ν] in
lemma encodeRows_singleton (r : β → Encoding (JsonValue ν)) (x : β) :
    encodeRows r [x] = (r x).map fun j => .array [j] := by
  rw [encodeRows, mapM_cons]
  cases r x <;> rfl

/-- A row of the type on which the encoder does what it can do: it returns a value if the type is
plain, and runs out of fuel if it is not. -/
def Sample (t : ArrowType) (array : ArrowArray ν) : Prop :=
  ArrayOf t array ∧ array.len = 1 ∧ ∀ f,
    (encodeArray f array = .error .outOfFuel ∨ ∃ r, encodeArray f array = .ok r) ∧
      (¬Plain t → encodeArray f array = .error .outOfFuel)

omit [IntCast ν] in
lemma mapM_outOfFuel {f : α → Encoding β} {xs : List α}
    (h : ∀ x ∈ xs, f x = .error .outOfFuel ∨ ∃ r, f x = .ok r) :
    (xs.mapM f = .error .outOfFuel ∨ ∃ ys, xs.mapM f = .ok ys) ∧
      ((∃ x ∈ xs, f x = .error .outOfFuel) → xs.mapM f = .error .outOfFuel) := by
  cases hm : xs.mapM f with
  | error e =>
    obtain ⟨x, hx, he⟩ := exists_of_mapM_eq_error hm
    obtain he' | ⟨_, he'⟩ := h x hx
    · cases he.symm.trans he'
      exact ⟨.inl rfl, fun _ => rfl⟩
    · cases he.symm.trans he'
  | ok ys =>
    refine ⟨.inr ⟨ys, rfl⟩, fun ⟨x, hx, he⟩ => ?_⟩
    obtain ⟨y, hy⟩ := exists_of_mapM_eq_ok hm hx
    cases he.symm.trans hy

lemma Sample.of_map {u : ArrowType} {g : JsonValue ν → JsonValue ν}
    (hs : Sample t a) (hb : ArrayOf u b) (hl : b.len = 1) (hp : Plain t → Plain u)
    (hg : ∀ f, encodeArray (f + 1) b = (encodeArray f a).map g) : Sample u b := by
  refine ⟨hb, hl, fun f => ?_⟩
  cases f with
  | zero => exact ⟨.inl rfl, fun _ => rfl⟩
  | succ f =>
    obtain ⟨ho, hn⟩ := hs.2.2 f
    rw [hg]
    refine ⟨?_, fun hu => by rw [hn (mt hp hu)]; rfl⟩
    obtain ho | ⟨r, ho⟩ := ho
    · exact .inl (by rw [ho]; rfl)
    · exact .inr ⟨g r, by rw [ho]; rfl⟩

lemma zip_map_self {xs : List α} {f : α → β} {x : α}
    (h : (x, y) ∈ xs.zip (xs.map f)) : x ∈ xs ∧ y = f x := by
  induction xs with
  | nil => cases h
  | cons a xs ih =>
    obtain h | h := mem_cons.mp h
    · cases h
      exact ⟨mem_cons_self, rfl⟩
    · exact (ih h).imp_left (mem_cons_of_mem a)

/-- The row of a struct is NULL, but its columns are encoded. -/
lemma sample_struct {fs : List (String × ArrowType)} {g : String × ArrowType → ArrowArray ν}
    (h : ∀ f ∈ fs, Sample f.2 (g f)) :
    Sample (struct fs) (.struct [false] (fs.map fun f => (f.1, g f))) := by
  refine ⟨.struct (by simp) (forall_mem_map.mpr fun f hf => (h f hf).2.1) fun f c hc => ?_, rfl,
    fun fl => ?_⟩
  · obtain ⟨hf, rfl⟩ := zip_map_self hc
    exact (h f hf).1
  cases fl with
  | zero => exact ⟨.inl rfl, fun _ => rfl⟩
  | succ fl =>
    have hm :=
      @mapM_outOfFuel _ _ (fun c : String × ArrowArray ν => (c.1, ·) <$> encodeArray fl c.2)
      (fs.map fun f => (f.1, g f)) (forall_mem_map.mpr fun f hf => by
        obtain he | ⟨r, he⟩ := ((h f hf).2.2 fl).1
        · exact .inl (by rw [he]; rfl)
        · exact .inr ⟨(f.1, r), by rw [he]; rfl⟩)
    rw [encodeArray, encodeStructArray]
    refine ⟨?_, fun hp => ?_⟩
    · obtain he | ⟨ys, he⟩ := hm.1
      · exact .inl (by rw [he]; rfl)
      · exact .inr ⟨.array [.null], by rw [he]; rfl⟩
    · obtain ⟨f, hf, hpf⟩ : ∃ f ∈ fs, ¬Plain f.2 := by
        by_contra hno
        exact hp (.struct fun f hf => by_contra fun hpf => hno ⟨f, hf, hpf⟩)
      rw [hm.2 ⟨_, mem_map_of_mem hf, by rw [((h f hf).2.2 fl).2 hpf]; rfl⟩]
      rfl

variable (ν) in
lemma exists_sample (t : ArrowType) : ∃ array : ArrowArray ν, Sample t array := by
  induction t using ArrowType.induct with
  | null =>
    refine ⟨.null 1, .null, rfl, fun f => ⟨?_, fun h => absurd .null h⟩⟩
    cases f with
    | zero => exact .inl rfl
    | succ f => exact .inr ⟨_, rfl⟩
  | flat =>
    refine ⟨.flat [none], .flat, rfl, fun f => ⟨?_, fun h => absurd .flat h⟩⟩
    cases f with
    | zero => exact .inl rfl
    | succ f => exact .inr ⟨_, rfl⟩
  | list t ih =>
    obtain ⟨a, ha⟩ := ih
    refine ⟨.list [some a], ha.of_map (g := fun j => .array [j]) (.list fun b hb => ?_) rfl .list
      fun f => ?_⟩
    · obtain rfl := by simpa using hb
      exact ha.1
    · exact encodeRows_singleton _ (some a)
  | struct fields ih =>
    have : Nonempty (ArrowArray ν) := ⟨.null 0⟩
    choose! g hg using ih
    exact ⟨_, sample_struct hg⟩
  | dictionary t ih =>
    obtain ⟨a, ha⟩ := ih
    exact ⟨.dictionary [none] a, ha.of_map (.dictionary ha.1) rfl .dictionary fun f => rfl⟩
  | union t ts ih =>
    obtain ⟨u, hm, hu⟩ : ∃ u ∈ t :: ts, Plain u → Plain (union t ts) := by
      by_cases h : ∀ u ∈ t :: ts, Plain u
      · exact ⟨t, mem_cons_self, fun _ => .union h⟩
      · push Not at h
        exact h.imp fun u hu => ⟨hu.1, fun hp => absurd hp hu.2⟩
    obtain ⟨a, ha⟩ := ih u hm
    obtain ⟨k, hk⟩ := List.mem_iff_getElem?.mp hm
    refine ⟨.union [(k, some a, a)], ha.of_map (.union ?_ ?_ ?_) rfl hu
      (g := fun v => .array [.object [("type_id", .number (k : ℤ)), ("value", v)]]) fun f => ?_⟩
    · exact forall_mem_singleton.mpr (List.getElem?_eq_some_iff.mp hk).1
    · refine forall_mem_singleton.mpr fun u' hu' b hb => ?_
      cases hk.symm.trans hu'
      cases hb
      exact ha.1
    · refine forall_mem_singleton.mpr fun u' hu' => ?_
      cases hk.symm.trans hu'
      exact ha.1
    · refine (encodeRows_singleton _ (k, some a, a)).trans ?_
      simp only
      cases encodeArray f a <;> rfl
  | runEndEncoded t ih =>
    obtain ⟨a, ha⟩ := ih
    refine ⟨.runEndEncoded [a], .runEndEncoded ?_, rfl, fun f => ?_⟩
    · exact forall_mem_singleton.mpr ha.1
    · exact ⟨.inl (ArrowArray.encodeArray_runEndEncoded f a []), fun _ =>
        ArrowArray.encodeArray_runEndEncoded f a []⟩
  | map t ih =>
    obtain ⟨a, ha⟩ := ih
    refine ⟨.map [some a], .map fun b hb => ?_, rfl, fun f => ?_⟩
    · obtain rfl := by simpa using hb
      exact ha.1
    · exact ⟨.inl (ArrowArray.encodeArray_map f a []), fun _ =>
        ArrowArray.encodeArray_map f a []⟩

/-! ### Main result -/

/-- **The encoder returns on all arrays of a type exactly if the type has no map and no run-end
encoded type in it.** -/
theorem returns_iff_plain (t : ArrowType) : Returns ν t ↔ Plain t := by
  constructor
  · intro h
    obtain ⟨array, ha, -, hs⟩ := exists_sample ν t
    obtain ⟨⟨f, hf⟩, -⟩ := h array ha
    by_contra hp
    exact hf ((hs f).2 hp)
  · intro hp array ha
    refine ⟨⟨_, encodeArray_ne_outOfFuel le_rfl hp ha⟩, fun b hb => ?_⟩
    obtain ⟨u, hu, hs, -⟩ := exists_of_calls hp ha hb
    exact ⟨u, hu, hs⟩

/-- A map with one row, which is empty. -/
theorem encodeArray_never_returns :
    ArrayOf (map (struct [])) (.map [some (.struct [] [])] : ArrowArray ℤ) ∧
      ∀ fuel, encodeArray fuel (.map [some (.struct [] [])] : ArrowArray ℤ) =
        .error .outOfFuel := by
  refine ⟨.map fun b hb => ?_, fun fuel => ArrowArray.encodeArray_map fuel _ []⟩
  obtain rfl := by simpa using hb
  exact .struct rfl (forall_mem_nil _) fun f c hf => by cases hf

end ArrowType

end JsonEncoder

end Rustice
