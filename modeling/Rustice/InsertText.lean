import Rustice.Columnar
import Rustice.Utf8

/-!
# `INSERT`

The bounds are checked against the number of bytes and the text is cut by characters; a scalar is an
array of one row, and the rows end with the shortest array.
-/

namespace Rustice

open List

structure Units (α : Type) where
  size : List α → ℕ
  length_le : ∀ base, base.length ≤ size base

def charUnits : Units Char := ⟨byteLen, length_le_byteLen⟩

def byteUnits : Units UInt8 := ⟨List.length, fun _ => Nat.le_refl _⟩

inductive InsertError where
  | invalidPosition
  | invalidLength

variable {α : Type}

/-- `insert_string`, and for bytes `insert_binary`. -/
def insertUnits (units : Units α) (base : List α) (pos len : ℤ) (insert : List α) :
    Except InsertError (List α) :=
  if pos < 1 ∨ units.size base + 1 < pos then .error .invalidPosition
  else if len < 0 ∨ units.size base - pos + 1 < len then .error .invalidLength
  else .ok (base.take (pos - 1).toNat ++ insert ++ (base.drop (pos - 1).toNat).drop len.toNat)

abbrev InsertRow (α : Type) := Option (List α) × Option ℤ × Option ℤ × Option (List α)

def insertRow (units : Units α) : InsertRow α → Except InsertError (Option (List α))
  | (some base, some pos, some len, some insert) => (insertUnits units base pos len insert).map some
  | _ => .ok none

structure InsertArgs (α : Type) (n : ℕ) where
  base : Columnar (Option (List α))
  pos : Columnar (Option ℤ)
  len : Columnar (Option ℤ)
  insert : Columnar (Option (List α))
  hasRows : base.HasRows n ∧ pos.HasRows n ∧ len.HasRows n ∧ insert.HasRows n

namespace InsertArgs

variable {n : ℕ} (args : InsertArgs α n)

def zipped : List (InsertRow α) :=
  args.base.toArray.zip (args.pos.toArray.zip (args.len.toArray.zip args.insert.toArray))

def invoke (units : Units α) : Except InsertError (List (Option (List α))) :=
  args.zipped.mapM (insertRow units)

/-- The rows of the batch, in which a scalar is in every row. -/
def rows : List (InsertRow α) :=
  (args.base.intoArray n).zip
    ((args.pos.intoArray n).zip ((args.len.intoArray n).zip (args.insert.intoArray n)))

end InsertArgs

/-- The position and the length are within a value of this size. -/
def Within (size : List α → ℕ) : InsertRow α → Prop
  | (some base, some pos, some len, some _) =>
    1 ≤ pos ∧ pos ≤ size base + 1 ∧ 0 ≤ len ∧ len ≤ size base - pos + 1
  | _ => True

def spliced : InsertRow α → Option (List α)
  | (some base, some pos, some len, some insert) =>
    some (base.take (pos - 1).toNat ++ insert ++ base.drop (pos - 1 + len).toNat)
  | _ => none

/-- All rows are spliced if they can be, and otherwise the call fails. -/
def InsertArgs.Splices {n : ℕ} (units : Units α) (args : InsertArgs α n) : Prop :=
  ((∀ row ∈ args.rows, Within List.length row) → args.invoke units = .ok (args.rows.map spliced)) ∧
  ((∃ row ∈ args.rows, ¬ Within List.length row) → ∃ e, args.invoke units = .error e)

variable {units us : Units α} {row : InsertRow α} {n : ℕ} {args ar : InsertArgs α n}

lemma Within.mono (us : Units α) (h : Within List.length row) : Within us.size row := by
  obtain ⟨_ | b, _ | pos, _ | len, _ | insert⟩ := row
  case some.some.some.some =>
    have := us.length_le b
    simp only [Within] at h ⊢
    omega
  all_goals trivial

lemma insertRow_of_within (h : Within us.size row) : insertRow us row = .ok (spliced row) := by
  obtain ⟨_ | base, _ | p, _ | l, _ | insert⟩ := row
  case some.some.some.some =>
    simp only [Within] at h
    have hd : (p - 1).toNat + l.toNat = (p - 1 + l).toNat := by omega
    rw [insertRow, insertUnits, if_neg (by omega), if_neg (by omega), drop_drop, hd]
    rfl
  all_goals rfl

lemma within_of_insertRow {o : Option (List α)} (h : insertRow us row = .ok o) :
    Within us.size row := by
  obtain ⟨_ | base, _ | pos, _ | len, _ | insert⟩ := row
  case some.some.some.some =>
    rw [insertRow, insertUnits] at h
    split_ifs at h with hpos hlen
    · cases h
    · cases h
    · simp only [Within]
      omega
  all_goals trivial

namespace InsertArgs

lemma zipped_isPrefix (hn : 1 ≤ n) : ar.zipped <+: ar.rows := by
  obtain ⟨hb, hpos, hlen, hi⟩ := ar.hasRows
  exact zip_isPrefix (Columnar.toArray_isPrefix hb hn)
    (zip_isPrefix (Columnar.toArray_isPrefix hpos hn)
      (zip_isPrefix (Columnar.toArray_isPrefix hlen hn) (Columnar.toArray_isPrefix hi hn)))

lemma length_rows : ar.rows.length = n := by
  obtain ⟨hb, hpos, hlen, hi⟩ := ar.hasRows
  simp only [rows, length_zip, Columnar.length_intoArray hb, Columnar.length_intoArray hpos,
    Columnar.length_intoArray hlen, Columnar.length_intoArray hi, Nat.min_self]

lemma zipped_eq (h : ar.zipped.length = n) : ar.zipped = ar.rows := by
  rcases Nat.eq_zero_or_pos n with rfl | hn
  · rw [length_eq_zero_iff.mp h, length_eq_zero_iff.mp ar.length_rows]
  · exact (zipped_isPrefix hn).eq_of_length (h.trans ar.length_rows.symm)

/-! ### Main result -/

/-- **The rows are spliced exactly if a row that is visited is refused, or all rows are visited and
within the bounds by characters.** -/
theorem splices_iff : args.Splices units ↔
    (∃ row ∈ args.zipped, row ∈ args.rows ∧ ¬ Within units.size row) ∨
    args.zipped.length = n ∧ ∀ row ∈ args.rows, Within List.length row := by
  constructor
  · rintro ⟨hok, hf⟩
    by_cases ha : ∀ row ∈ args.rows, Within List.length row
    · have hl := length_of_mapM_eq_ok (hok ha)
      rw [length_map, length_rows] at hl
      exact .inr ⟨hl.symm, ha⟩
    · push Not at ha
      obtain ⟨e, he⟩ := hf ha
      obtain ⟨row, hr, her⟩ := exists_of_mapM_eq_error he
      obtain ⟨_, hm, -⟩ := ha
      refine .inl ⟨row, hr, (zipped_isPrefix ?_).subset hr, fun h => ?_⟩
      · rw [← args.length_rows]
        exact length_pos_of_mem hm
      · rw [insertRow_of_within h] at her
        cases her
  · rintro (⟨row, hr, hm, href⟩ | ⟨hl, ha⟩)
    · refine ⟨fun ha => absurd ((ha row hm).mono units) href, fun _ => ?_⟩
      cases ho : args.invoke units with
      | error e => exact ⟨e, rfl⟩
      | ok out =>
        obtain ⟨_, ho⟩ := exists_of_mapM_eq_ok ho hr
        exact absurd (within_of_insertRow ho) href
    · refine ⟨fun _ => ?_, fun ⟨row, hr, ho⟩ => absurd (ha row hr) ho⟩
      rw [invoke, zipped_eq hl]
      exact mapM_eq_ok_map fun row hr => insertRow_of_within ((ha row hr).mono units)

end InsertArgs

def twoBytes : InsertArgs Char 1 :=
  ⟨.scalar (some ['é']), .scalar (some 3), .scalar (some 0), .scalar (some ['x']),
    trivial, trivial, trivial, trivial⟩

theorem not_splices_twoBytes : ¬ twoBytes.Splices charUnits := by
  rintro ⟨-, h⟩
  obtain ⟨e, he⟩ := h ⟨_, mem_cons_self, fun hw => absurd hw.2.1 (by decide)⟩
  cases he

end Rustice
