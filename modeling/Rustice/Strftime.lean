import Mathlib.Data.List.DropRight
import Rustice.Calendar
import Rustice.DecimalText

/-!
# Format Strings for Dates and Times

A format string of `chrono` is a sequence of characters and of directives, a percent sign with a
letter.
-/

namespace Rustice

open List Option

def isWhitespace (c : Char) : Bool :=
  (9 ≤ c.toNat && c.toNat ≤ 13) || c.toNat == 32 || c.toNat == 133 || c.toNat == 160 ||
    c.toNat == 5760 || (8192 ≤ c.toNat && c.toNat ≤ 8202) || c.toNat == 8232 ||
    c.toNat == 8233 || c.toNat == 8239 || c.toNat == 8287 || c.toNat == 12288

def trimText (s : String) : String :=
  .ofList ((s.toList.dropWhile isWhitespace).rdropWhile isWhitespace)

lemma trimText_eq_self {s : String} (h : ∀ c ∈ s.toList, isWhitespace c = false) :
    trimText s = s := by
  have hd : s.toList.dropWhile isWhitespace = s.toList :=
    dropWhile_eq_self_iff.mpr fun hpos => by
      rw [h _ (getElem_mem hpos)]
      exact Bool.false_ne_true
  have hr : s.toList.rdropWhile isWhitespace = s.toList :=
    rdropWhile_eq_self_iff.mpr fun hne => by
      rw [h _ (getLast_mem hne)]
      exact Bool.false_ne_true
  rw [trimText, hd, hr, String.ofList_toList]

inductive Directive where
  | year
  | century
  | yearOfCentury
  | month
  | day
  | hour
  | minute
  | monthName
  | shortMonthName
  | other (name : List Char)
  deriving DecidableEq

inductive FormatItem where
  | literal (c : Char)
  | space (c : Char)
  | directive (d : Directive)
  deriving DecidableEq

structure FormatFields where
  date : CivilDate
  secondOfDay : Option (Fin 86400)
  nanos : ℕ

structure ParsedFields where
  year : Option ℤ
  century : Option ℕ
  yearOfCentury : Option ℕ
  month : Option ℕ
  day : Option ℕ

/-- The directives that are not modelled. -/
structure Chrono where
  otherLength : List Char → Option ℕ
  printOther : List Char → FormatFields → Option (List Char)
  parseOther : List Char → List Char → ParsedFields → Option (ParsedFields × List Char)
  otherLength_le : ∀ cs n, otherLength cs = some n → n ≤ cs.length
  notMem_of_otherLength : ∀ cs n, otherLength cs = some n → '%' ∉ cs.take n
  letters_of_otherLength : ∀ cs n, otherLength cs = some n → (cs.take n).countP Char.isAlpha ≤ 1
  notMem_printOther : ∀ name fields text, printOther name fields = some text → '%' ∉ text
  suffix_of_parseOther : ∀ name text fields fields' rest,
    parseOther name text fields = some (fields', rest) → rest <:+ text

def twoDigits (n : ℕ) : List Char := [Nat.digitChar (n / 10), Nat.digitChar (n % 10)]

def yearText (y : ℤ) : List Char :=
  if 0 ≤ y ∧ y ≤ 9999 then twoDigits (y.toNat / 100) ++ twoDigits (y.toNat % 100)
  else (if y < 0 then '-' else '+') :: (Nat.toDigits 10 y.natAbs).leftpad 4 '0'

def monthNames : List String :=
  ["January", "February", "March", "April", "May", "June", "July", "August", "September",
    "October", "November", "December"]

def shortMonthText (month : ℕ) : List Char :=
  (((monthNames[month - 1]?).map String.toList).getD []).take 3

namespace Chrono

variable (chrono : Chrono)

def directive : List Char → Option (FormatItem × ℕ)
  | '%' :: _ => some (.literal '%', 1)
  | 'Y' :: _ => some (.directive .year, 1)
  | 'C' :: _ => some (.directive .century, 1)
  | 'y' :: _ => some (.directive .yearOfCentury, 1)
  | 'm' :: _ => some (.directive .month, 1)
  | 'd' :: _ => some (.directive .day, 1)
  | 'H' :: _ => some (.directive .hour, 1)
  | 'M' :: _ => some (.directive .minute, 1)
  | 'B' :: _ => some (.directive .monthName, 1)
  | 'b' :: _ => some (.directive .shortMonthName, 1)
  | cs => (chrono.otherLength cs).map fun n => (.directive (.other (cs.take n)), n)

def plainItem (c : Char) : FormatItem := if isWhitespace c then .space c else .literal c

def itemsFrom : ℕ → List Char → Option (List FormatItem)
  | _, [] => some []
  | skip + 1, _ :: cs => itemsFrom skip cs
  | 0, c :: cs =>
    if c = '%' then
      match chrono.directive cs with
      | none => none
      | some (item, n) => (itemsFrom n cs).map (item :: ·)
    else (itemsFrom 0 cs).map (plainItem c :: ·)

def items (cs : List Char) : Option (List FormatItem) := chrono.itemsFrom 0 cs

def printDirective (fields : FormatFields) : Directive → Option (List Char)
  | .year => some (yearText fields.date.year)
  | .month => some (twoDigits fields.date.month)
  | .day => some (twoDigits fields.date.day)
  | .hour => fields.secondOfDay.map fun s => twoDigits (s.val / 3600)
  | .minute => fields.secondOfDay.map fun s => twoDigits (s.val / 60 % 60)
  | .shortMonthName => some (shortMonthText fields.date.month)
  | .century => chrono.printOther ['C'] fields
  | .yearOfCentury => chrono.printOther ['y'] fields
  | .monthName => chrono.printOther ['B'] fields
  | .other name => chrono.printOther name fields

def printItem (fields : FormatFields) : FormatItem → Option (List Char)
  | .literal c => some [c]
  | .space c => some [c]
  | .directive d => chrono.printDirective fields d

def printItems (fields : FormatFields) : List FormatItem → Option (List Char)
  | [] => some []
  | item :: items => do
    let text ← chrono.printItem fields item
    let rest ← printItems fields items
    return text ++ rest

def format (cs : List Char) (fields : FormatFields) : Option (List Char) :=
  (chrono.items cs).bind (chrono.printItems fields)

def parseNumber (width : ℕ) (text : List Char) : Option (ℕ × List Char) :=
  let digits := (text.takeWhile Char.isDigit).take width
  (readDigits digits).map fun n => (n, text.drop digits.length)

def parseYear : List Char → Option (ℤ × List Char)
  | '-' :: text => (parseNumber text.length text).map fun p => (-(p.1 : ℤ), p.2)
  | '+' :: text => (parseNumber text.length text).map fun p => ((p.1 : ℤ), p.2)
  | text => (parseNumber 4 text).map fun p => ((p.1 : ℤ), p.2)

def parseMonthName (text : List Char) : Option (ℕ × List Char) :=
  let lower := text.map Char.toLower
  let index := monthNames.findIdx fun name => (name.toList.map Char.toLower).take 3 <+: lower
  (monthNames[index]?).map fun name =>
    if name.toList.map Char.toLower <+: lower then (index + 1, text.drop name.length)
    else (index + 1, text.drop 3)

def setIfConsistent {α : Type} [DecidableEq α] (field : Option α) (value : α) :
    Option (Option α) :=
  match field with
  | none => some (some value)
  | some old => if old = value then some (some old) else none

def parseField {α : Type} [DecidableEq α] (parsed : Option (α × List Char)) (field : Option α)
    (set : Option α → ParsedFields) : Option (ParsedFields × List Char) := do
  let (value, rest) ← parsed
  let field ← setIfConsistent field value
  return (set field, rest)

def parseDirective (d : Directive) (text : List Char) (fields : ParsedFields) :
    Option (ParsedFields × List Char) :=
  match d with
  | .year =>
    parseField (parseYear (text.dropWhile isWhitespace)) fields.year
      fun year => { fields with year }
  | .century =>
    parseField (parseNumber 2 (text.dropWhile isWhitespace)) fields.century
      fun century => { fields with century }
  | .yearOfCentury =>
    parseField (parseNumber 2 (text.dropWhile isWhitespace)) fields.yearOfCentury
      fun yearOfCentury => { fields with yearOfCentury }
  | .month =>
    parseField (parseNumber 2 (text.dropWhile isWhitespace)) fields.month
      fun month => { fields with month }
  | .day =>
    parseField (parseNumber 2 (text.dropWhile isWhitespace)) fields.day
      fun day => { fields with day }
  | .monthName => parseField (parseMonthName text) fields.month fun month => { fields with month }
  | .hour => chrono.parseOther ['H'] text fields
  | .minute => chrono.parseOther ['M'] text fields
  | .shortMonthName => chrono.parseOther ['b'] text fields
  | .other name => chrono.parseOther name text fields

def parseItem (item : FormatItem) (text : List Char) (fields : ParsedFields) :
    Option (ParsedFields × List Char) :=
  match item with
  | .literal c =>
    match text with
    | [] => none
    | d :: rest => if c = d then some (fields, rest) else none
  | .space _ => some (fields, text.dropWhile isWhitespace)
  | .directive d => chrono.parseDirective d text fields

def parseItems : List FormatItem → List Char → ParsedFields → Option ParsedFields
  | [], text, fields => if text = [] then some fields else none
  | item :: items, text, fields => do
    let (fields', rest) ← chrono.parseItem item text fields
    parseItems items rest fields'

def resolveYear (fields : ParsedFields) : Option ℤ :=
  match fields.year, fields.century, fields.yearOfCentury with
  | none, some q, some r => some (q * 100 + r)
  | none, none, some r => some (if r < 70 then r + 2000 else r + 1900)
  | none, _, none => none
  | some y, none, none => some y
  | some y, q, r =>
    if 0 ≤ y ∧ (∀ q' ∈ q, y / 100 = q') ∧ (∀ r' ∈ r, y % 100 = r') then some y else none

def toNaiveDate (fields : ParsedFields) : Option CivilDate := do
  let year ← resolveYear fields
  let month ← fields.month
  let day ← fields.day
  CivilDate.ofYmd? year month day

def parseFromStr (text format : List Char) : Option CivilDate := do
  let items ← chrono.items format
  let fields ← chrono.parseItems items text ⟨none, none, none, none, none⟩
  toNaiveDate fields

variable {chrono} {c : Char} {cs : List Char} {it : FormatItem} {n : ℕ}

lemma itemsFrom_eq (s : ℕ) (cs : List Char) : chrono.itemsFrom s cs = chrono.items (cs.drop s) := by
  induction s generalizing cs with
  | zero => rfl
  | succ s ih =>
    cases cs with
    | nil => rfl
    | cons c cs => exact ih cs

@[simp] lemma items_nil : chrono.items [] = some [] := rfl

lemma items_cons (hc : c ≠ '%') (cs : List Char) :
    chrono.items (c :: cs) = (chrono.items cs).map (plainItem c :: ·) := by
  rw [items, itemsFrom, if_neg hc]
  rfl

lemma items_percent (h : chrono.directive cs = some (it, n)) :
    chrono.items ('%' :: cs) = (chrono.items (cs.drop n)).map (it :: ·) := by
  rw [items, itemsFrom, if_pos rfl, h, ← itemsFrom_eq]

lemma items_letter (h : chrono.directive (c :: cs) = some (it, 1)) :
    chrono.items ('%' :: c :: cs) = (chrono.items cs).map (it :: ·) :=
  items_percent h

lemma items_percent_none (h : chrono.directive cs = none) : chrono.items ('%' :: cs) = none := by
  rw [items, itemsFrom, if_pos rfl, h]

lemma directive_cases (h : chrono.directive cs = some (it, n)) :
    n ≤ cs.length ∧ ((it = .literal '%' ∧ cs.take n = ['%']) ∨
      ∃ d, it = .directive d ∧ '%' ∉ cs.take n ∧ (cs.take n).countP Char.isAlpha ≤ 1) := by
  rw [directive.eq_def] at h
  split at h
  all_goals try (cases h; exact ⟨Nat.le_add_left 1 _, by simp⟩)
  obtain ⟨m, hm, heq⟩ := map_eq_some_iff.mp h
  cases heq
  exact ⟨chrono.otherLength_le cs n hm, .inr ⟨_, rfl, chrono.notMem_of_otherLength cs n hm,
    chrono.letters_of_otherLength cs n hm⟩⟩

variable {fields fs : FormatFields} {text t : List Char} {i : List FormatItem} {d : Directive}
  {y : ℤ}

lemma isDigit_of_mem_twoDigits (hn : n < 100) (hc : c ∈ twoDigits n) : c.isDigit = true := by
  have hd : ∀ d < 10, (Nat.digitChar d).isDigit = true := by decide
  simp only [twoDigits, mem_cons, not_mem_nil, or_false] at hc
  rcases hc with rfl | rfl
  · exact hd _ (by omega)
  · exact hd _ (by omega)

lemma percent_notMem_twoDigits (hn : n < 100) : '%' ∉ twoDigits n := fun hm =>
  absurd (isDigit_of_mem_twoDigits hn hm) (by decide)

lemma mem_yearText (hc : c ∈ yearText y) : c.isDigit = true ∨ c = '-' ∨ c = '+' := by
  rw [yearText] at hc
  split at hc
  · next hy =>
      left
      rcases mem_append.mp hc with hc | hc
      · exact isDigit_of_mem_twoDigits (by omega) hc
      · exact isDigit_of_mem_twoDigits (by omega) hc
  · rcases mem_cons.mp hc with rfl | hc
    · split <;> simp
    · left
      rw [List.leftpad, mem_append, mem_replicate] at hc
      rcases hc with ⟨-, rfl⟩ | hc
      · rfl
      · exact Nat.isDigit_of_mem_toDigits (by decide) (by decide) hc

lemma month_lt (d : CivilDate) : d.month < 100 := by
  have hm := month_mem_of_daysInMonth (le_trans d.one_le_day d.day_le)
  omega

lemma day_lt (d : CivilDate) : d.day < 100 := by
  have hd := le_trans d.day_le (daysInMonth_le d.year d.month)
  omega

lemma percent_notMem_printDirective (h : chrono.printDirective fs d = some text) : '%' ∉ text := by
  cases d with
  | year =>
    cases h
    intro hmm
    rcases mem_yearText hmm with hd | hs | hs
    · exact absurd hd (by decide)
    · exact absurd hs (by decide)
    · exact absurd hs (by decide)
  | month =>
    cases h
    exact percent_notMem_twoDigits (month_lt fs.date)
  | day =>
    cases h
    exact percent_notMem_twoDigits (day_lt fs.date)
  | hour =>
    obtain ⟨s, -, rfl⟩ := map_eq_some_iff.mp h
    exact percent_notMem_twoDigits (by omega)
  | minute =>
    obtain ⟨s, -, rfl⟩ := map_eq_some_iff.mp h
    exact percent_notMem_twoDigits (by omega)
  | shortMonthName =>
    cases h
    have hm := month_mem_of_daysInMonth (le_trans fs.date.one_le_day fs.date.day_le)
    have hn : ∀ m ≤ 12, '%' ∉ shortMonthText m := by decide
    exact hn _ hm.2
  | century => exact chrono.notMem_printOther _ _ _ h
  | yearOfCentury => exact chrono.notMem_printOther _ _ _ h
  | monthName => exact chrono.notMem_printOther _ _ _ h
  | other name => exact chrono.notMem_printOther _ _ _ h

lemma printItems_cons_eq_some : chrono.printItems fs (it :: i) = some text ↔
    ∃ a r, chrono.printItem fs it = some a ∧ chrono.printItems fs i = some r ∧ a ++ r = text := by
  simp [printItems, bind_eq_some_iff]

@[simp] lemma format_nil (fs : FormatFields) : chrono.format [] fs = some [] := rfl

lemma format_cons (hc : c ≠ '%') (cs : List Char) (fs : FormatFields) :
    chrono.format (c :: cs) fs = (chrono.format cs fs).map (c :: ·) := by
  have hp : chrono.printItem fs (plainItem c) = some [c] := by
    rw [plainItem]
    split <;> rfl
  rw [format, format, items_cons hc]
  cases chrono.items cs with
  | none => rfl
  | some i =>
    simp only [map_some, bind_some, printItems, hp, bind_eq_bind]
    cases chrono.printItems fs i <;> rfl

lemma format_percent (cs : List Char) (fs : FormatFields) :
    chrono.format ('%' :: '%' :: cs) fs = (chrono.format cs fs).map ('%' :: ·) := by
  rw [format, format, items_percent rfl, drop_one, tail_cons]
  cases chrono.items cs with
  | none => rfl
  | some i =>
    simp only [map_some, bind_some, printItems, printItem, bind_eq_bind]
    cases chrono.printItems fs i <;> rfl

lemma format_directive (hd : chrono.directive cs = some (.directive d, n))
    (ht : chrono.printDirective fs d = some t) :
    chrono.format ('%' :: cs) fs = (chrono.format (cs.drop n) fs).map (t ++ ·) := by
  rw [format, format, items_percent hd]
  cases chrono.items (cs.drop n) with
  | none => rfl
  | some i =>
    simp only [map_some, bind_some, printItems, printItem, ht, bind_eq_bind]
    cases chrono.printItems fs i <;> rfl

lemma format_cons_eq_some (h : chrono.format (c :: cs) fs = some t) :
    ∃ n a rest, chrono.format (cs.drop n) fs = some rest ∧ a ++ rest = t ∧ n ≤ cs.length ∧
      ((c ≠ '%' ∧ n = 0 ∧ a = [c]) ∨ (c = '%' ∧ cs.take n = ['%'] ∧ a = ['%']) ∨
        (c = '%' ∧ '%' ∉ cs.take n ∧ (cs.take n).countP Char.isAlpha ≤ 1 ∧ '%' ∉ a)) := by
  obtain ⟨its, hit, hp⟩ := bind_eq_some_iff.mp h
  by_cases hc : c = '%'
  · subst hc
    cases hd : chrono.directive cs with
    | none =>
      rw [items_percent_none hd] at hit
      cases hit
    | some f =>
      obtain ⟨it, n⟩ := f
      rw [items_percent hd] at hit
      obtain ⟨its', hi', rfl⟩ := map_eq_some_iff.mp hit
      obtain ⟨a, rest, hf, hr, rfl⟩ := printItems_cons_eq_some.mp hp
      have hfor : chrono.format (cs.drop n) fs = some rest :=
        bind_eq_some_iff.mpr ⟨its', hi', hr⟩
      obtain ⟨hn, ⟨rfl, ht⟩ | ⟨d, rfl, hnon, hl⟩⟩ := directive_cases hd
      · cases hf
        exact ⟨n, _, rest, hfor, rfl, hn, .inr (.inl ⟨rfl, ht, rfl⟩)⟩
      · exact ⟨n, a, rest, hfor, rfl, hn,
          .inr (.inr ⟨rfl, hnon, hl, percent_notMem_printDirective hf⟩)⟩
  · rw [items_cons hc] at hit
    obtain ⟨its', hi', rfl⟩ := map_eq_some_iff.mp hit
    obtain ⟨a, rest, hf, hr, rfl⟩ := printItems_cons_eq_some.mp hp
    have hpl : a = [c] := by
      rw [plainItem] at hf
      split at hf <;> (cases hf; rfl)
    exact ⟨0, a, rest, bind_eq_some_iff.mpr ⟨its', hi', hr⟩, rfl,
      Nat.zero_le _, .inl ⟨hc, rfl, hpl⟩⟩

lemma count_of_format (h : chrono.format cs fs = some t) :
    ∃ directives, cs.count '%' = 2 * t.count '%' + directives ∧
      cs.countP Char.isAlpha ≤ t.countP Char.isAlpha + directives := by
  -- By induction on the length: a directive may have several characters.
  induction hlen : cs.length using Nat.strong_induction_on generalizing cs t with
  | _ len ih =>
    subst hlen
    cases cs with
    | nil =>
      cases h
      exact ⟨0, rfl, le_rfl⟩
    | cons c cs =>
      obtain ⟨n, first, r, hr, rfl, hn, hcas⟩ := format_cons_eq_some h
      have hlt : (cs.drop n).length < (c :: cs).length := by
        rw [length_drop, length_cons]
        omega
      obtain ⟨directives, hco, hl⟩ := ih _ hlt hr rfl
      have hs : c :: cs = c :: (cs.take n ++ cs.drop n) := by rw [take_append_drop]
      have hp : ¬ Char.isAlpha '%' = true := by decide
      rw [hs]
      rcases hcas with ⟨hc, rfl, rfl⟩ | ⟨rfl, ht, rfl⟩ | ⟨rfl, hnon, ho, hf⟩
      · refine ⟨directives, ?_, ?_⟩
        · rw [take_zero, nil_append, count_cons_of_ne hc,
            cons_append, nil_append, count_cons_of_ne hc, hco]
        · rw [take_zero, nil_append, cons_append, nil_append, countP_cons, countP_cons]
          omega
      · refine ⟨directives, ?_, ?_⟩
        · rw [ht, count_cons_self, count_append, count_append, hco, count_singleton_self]
          omega
        · rw [ht, countP_cons_of_neg hp, countP_append, countP_append]
          omega
      · refine ⟨directives + 1, ?_, ?_⟩
        · rw [count_cons_self, count_append, count_append, hco,
            count_eq_zero_of_not_mem hnon, count_eq_zero_of_not_mem hf]
          omega
        · rw [countP_cons_of_neg hp, countP_append, countP_append]
          omega

variable {rest r : List Char}

lemma readDigits_twoDigits (hn : n < 100) : readDigits (twoDigits n) = some n := by
  revert n
  decide

lemma dropWhile_twoDigits (hn : n < 100) (rest : List Char) :
    (twoDigits n ++ rest).dropWhile isWhitespace = twoDigits n ++ rest := by
  have hd : ∀ d < 10, isWhitespace (Nat.digitChar d) = false := by decide
  rw [twoDigits, cons_append, dropWhile_cons_of_neg]
  rw [hd _ (by omega)]
  exact Bool.false_ne_true

lemma parseNumber_twoDigits (hn : n < 100) (r : List Char) :
    parseNumber 2 (twoDigits n ++ r) = some (n, r) := by
  have ht : ((twoDigits n ++ r).takeWhile Char.isDigit).take 2 = twoDigits n := by
    rw [takeWhile_append_of_pos fun c hc => isDigit_of_mem_twoDigits hn hc]
    rfl
  rw [parseNumber, ht, readDigits_twoDigits hn]
  rfl

lemma parseField_twoDigits (hn : n < 100) (r : List Char) (s : Option ℕ → ParsedFields) :
    parseField (parseNumber 2 ((twoDigits n ++ r).dropWhile isWhitespace)) none s =
      some (s (some n), r) := by
  rw [dropWhile_twoDigits hn, parseNumber_twoDigits hn]
  rfl

lemma suffix_of_parseNumber {w : ℕ} (h : parseNumber w text = some (n, r)) : r <:+ text := by
  obtain ⟨m, -, heq⟩ := map_eq_some_iff.mp h
  cases heq
  exact drop_suffix _ text

lemma suffix_of_parseYear (h : parseYear text = some (y, r)) : r <:+ text := by
  rw [parseYear.eq_def] at h
  split at h
  all_goals
    obtain ⟨⟨m, tail⟩, hn, heq⟩ := map_eq_some_iff.mp h
    cases heq
    have ht := suffix_of_parseNumber hn
  · exact ht.trans (suffix_cons '-' _)
  · exact ht.trans (suffix_cons '+' _)
  · exact ht

lemma suffix_of_parseMonthName (h : parseMonthName text = some (n, r)) : r <:+ text := by
  obtain ⟨name, -, heq⟩ := map_eq_some_iff.mp h
  split at heq
  all_goals
    cases heq
    exact drop_suffix _ text

lemma exists_of_parseField {α : Type} [DecidableEq α] {p : Option (α × List Char)}
    {f : Option α} {s : Option α → ParsedFields} {fields : ParsedFields}
    (h : parseField p f s = some (fields, r)) : ∃ v f', p = some (v, r) ∧ s f' = fields := by
  obtain ⟨⟨v, rest'⟩, hp, h⟩ := bind_eq_some_iff.mp h
  obtain ⟨f', -, h⟩ := bind_eq_some_iff.mp h
  cases h
  exact ⟨v, f', hp, rfl⟩

lemma suffix_of_parseDirective {fs fields' : ParsedFields}
    (h : chrono.parseDirective d text fs = some (fields', r)) : r <:+ text := by
  have hs : text.dropWhile isWhitespace <:+ text := dropWhile_suffix _
  cases d with
  | year =>
    obtain ⟨v, -, hv, -⟩ := exists_of_parseField h
    exact (suffix_of_parseYear hv).trans hs
  | century | yearOfCentury | month | day =>
    obtain ⟨v, -, hv, -⟩ := exists_of_parseField h
    exact (suffix_of_parseNumber hv).trans hs
  | monthName =>
    obtain ⟨v, -, hv, -⟩ := exists_of_parseField h
    exact suffix_of_parseMonthName hv
  | hour | minute | shortMonthName | other name => exact chrono.suffix_of_parseOther _ _ _ _ _ h

lemma suffix_of_parseItem {fs fields' : ParsedFields}
    (h : chrono.parseItem it text fs = some (fields', r)) : r <:+ text := by
  cases it with
  | literal c =>
    cases text with
    | nil => cases h
    | cons d text =>
      rw [parseItem] at h
      split at h
      · cases h
        exact suffix_cons d _
      · cases h
  | space c =>
    cases h
    exact dropWhile_suffix _
  | directive d => exact suffix_of_parseDirective h

lemma count_literal_le {fs fields' : ParsedFields}
    (h : chrono.parseItems i t fs = some fields') : i.count (.literal c) ≤ t.count c := by
  induction i generalizing t fs with
  | nil => exact Nat.zero_le _
  | cons it i ih =>
    obtain ⟨⟨fields₁, r⟩, hi, h⟩ := bind_eq_some_iff.mp h
    have hr := ih h
    by_cases hc : it = .literal c
    · subst hc
      cases t with
      | nil => cases hi
      | cons d t =>
        rw [parseItem] at hi
        split_ifs at hi with hd
        cases hi
        rw [hd, count_cons_self, count_cons_self]
        exact Nat.succ_le_succ (hd ▸ hr)
    · rw [count_cons_of_ne hc]
      exact hr.trans ((suffix_of_parseItem hi).sublist.count_le c)

lemma parseItems_eq_none_of_literal
    {fs : ParsedFields} (hm : FormatItem.literal c ∈ i) (ht : c ∉ t) :
    chrono.parseItems i t fs = none := by
  rw [eq_none_iff_forall_ne_some]
  intro fields' h
  have hle := count_literal_le (c := c) h
  rw [count_eq_zero_of_not_mem ht] at hle
  exact absurd (count_pos_iff.mpr hm) (Nat.not_lt.mpr hle)

end Chrono

end Rustice
