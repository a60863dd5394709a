import Rustice.ToDate

/-!
# `TO_DATE` of Padded Texts

`format_date_str` looks for a `T` in the trimmed text, and cuts the text itself there.
-/

namespace Rustice

open List Option CivilDate

open String (toList_ofList)

namespace Chrono

lemma isWhitespace_of_isDigit {c : Char} (hc : c.isDigit = true) : isWhitespace c = false := by
  rw [Char.isDigit, Bool.and_eq_true, decide_eq_true_eq, decide_eq_true_eq] at hc
  have hl : 48 ≤ c.toNat := UInt32.le_iff_toNat_le.mp hc.1
  have hh : c.toNat ≤ 57 := UInt32.le_iff_toNat_le.mp hc.2
  simp only [isWhitespace, Bool.or_eq_false_iff, Bool.and_eq_false_iff, decide_eq_false_iff_not,
    beq_eq_false_iff_ne]
  omega

lemma readDigits_fourDigits {a b : ℕ} (ha : a < 100) (hb : b < 100) :
    readDigits (twoDigits a ++ twoDigits b) = some (a * 100 + b) := by
  have hd : ∀ d < 10, (Nat.digitChar d).toNat - '0'.toNat = d := by decide
  have hal : (twoDigits a ++ twoDigits b).all Char.isDigit = true :=
    List.all_eq_true.mpr fun c hc => (mem_append.mp hc).elim
      (isDigit_of_mem_twoDigits ha) (isDigit_of_mem_twoDigits hb)
  rw [readDigits, if_pos ⟨cons_ne_nil _ _, hal⟩]
  simp only [twoDigits, cons_append, nil_append, Nat.ofDigitChars_cons,
    Nat.ofDigitChars_nil, hd _ (Nat.mod_lt _ (by decide : 0 < 10)), hd (a / 10) (by omega),
    hd (b / 10) (by omega), some.injEq]
  omega

variable {ch : Chrono} {y : ℤ} {m : ℕ} (k : ℕ)

lemma parseNumber_digits {w : ℕ} {ds r : List Char} (hds : ∀ c ∈ ds, c.isDigit = true)
    (hlen : ds.length ≤ w) (hr : ∀ c ∈ r.head?, c.isDigit = false) :
    parseNumber w (ds ++ r) = (readDigits ds).map fun n => (n, r) := by
  have ht : (ds ++ r).takeWhile Char.isDigit = ds := by
    rw [takeWhile_append_of_pos hds]
    cases r with
    | nil => simp
    | cons c r => simp [hr c rfl]
  rw [parseNumber, ht, take_of_length_le hlen, drop_left]

lemma parseYear_yearText (hy : 0 ≤ y ∧ y ≤ 9999) (rest : List Char) :
    parseYear (yearText y ++ '-' :: rest) = some (y, '-' :: rest) := by
  have hs : ∀ d < 10, Nat.digitChar d ≠ '-' ∧ Nat.digitChar d ≠ '+' := by decide
  obtain ⟨hm, hp⟩ := hs (y.toNat / 100 / 10) (by omega)
  have hd : ∀ c ∈ twoDigits (y.toNat / 100) ++ twoDigits (y.toNat % 100),
      c.isDigit = true := fun c hc => (mem_append.mp hc).elim
    (isDigit_of_mem_twoDigits (by omega)) (isDigit_of_mem_twoDigits (by omega))
  rw [yearText, if_pos hy, parseYear, parseNumber_digits hd (le_refl 4) (by rintro c ⟨⟩; rfl),
    readDigits_fourDigits (by omega) (by omega)]
  · simp only [map_some, some.injEq, Prod.mk.injEq, and_true]
    omega
  · exact fun text h => hm (cons.inj h).1
  · exact fun text h => hp (cons.inj h).1

lemma dropWhile_blanks (hy : 0 ≤ y ∧ y ≤ 9999) (rest : List Char) :
    (List.replicate k ' ' ++ (yearText y ++ rest)).dropWhile isWhitespace = yearText y ++ rest := by
  have hb : ∀ c ∈ List.replicate k ' ', isWhitespace c = true := fun c hc => by
    rw [eq_of_mem_replicate hc]
    rfl
  rw [dropWhile_append_of_pos hb, yearText, if_pos hy, List.append_assoc,
    dropWhile_twoDigits (by omega)]

lemma parseFromStr_iso (hy : 0 ≤ y ∧ y ≤ 9999) (hm : m < 100) {ds : List Char}
    (hds : ∀ c ∈ ds, c.isDigit = true) (hlen : ds.length ≤ 2) : ch.parseFromStr
        (List.replicate k ' ' ++ (yearText y ++ '-' :: (twoDigits m ++ '-' :: ds)))
        "%Y-%m-%d".toList = (readDigits ds).bind (ofYmd? y m) := by
  have hi : ch.items "%Y-%m-%d".toList = some [.directive .year, .literal '-',
      .directive .month, .literal '-', .directive .day] := rfl
  have hd : parseNumber 2 (ds.dropWhile isWhitespace) = (readDigits ds).map fun n => (n, []) := by
    have hs : ds.dropWhile isWhitespace = ds := dropWhile_eq_self_iff.mpr fun hpos => by
      rw [isWhitespace_of_isDigit (hds _ (getElem_mem hpos))]
      exact Bool.false_ne_true
    have hn := @parseNumber_digits 2 ds [] hds hlen nofun
    rw [append_nil] at hn
    rwa [hs]
  rw [parseFromStr, hi]
  simp only [bind_eq_bind, bind_some, parseItems, parseItem, parseDirective,
    dropWhile_blanks k hy, parseYear_yearText hy, dropWhile_twoDigits hm,
    parseNumber_twoDigits hm, hd, parseField, setIfConsistent, Option.pure_def, if_true]
  cases readDigits ds with
  | none => rfl
  | some n => rfl

lemma parseFromStr_monthName (hy : 0 ≤ y ∧ y ≤ 9999) (r : List Char) :
    ch.parseFromStr (List.replicate k ' ' ++ (yearText y ++ r)) "%d-%B-%Y".toList = none := by
  have hi : ch.items "%d-%B-%Y".toList = some [.directive .day, .literal '-',
      .directive .monthName, .literal '-', .directive .year] := rfl
  have hne : ∀ d < 10, '-' ≠ Nat.digitChar d := by decide
  rw [parseFromStr, hi]
  simp only [bind_eq_bind, bind_some, parseItems, parseItem, parseDirective, dropWhile_blanks k hy]
  rw [yearText, if_pos hy, List.append_assoc, parseNumber_twoDigits (by omega)]
  simp only [parseField, setIfConsistent, bind_eq_bind, bind_some, twoDigits,
    cons_append, pure, if_neg (hne (y.toNat % 100 / 10) (by omega)), bind_none]

lemma parseFromStr_eq_none {t f : List Char} {i : List FormatItem} {c : Char}
    (hits : ch.items f = some i) (hlt : t.count c < i.count (.literal c)) :
    ch.parseFromStr t f = none := by
  have hn : ch.parseItems i t ⟨none, none, none, none, none⟩ = none :=
    eq_none_iff_forall_ne_some.mpr fun _ h => Nat.not_lt.mpr (count_literal_le h) hlt
  rw [parseFromStr, hits, bind_eq_bind, bind_some, hn]
  rfl

lemma parseFromStr_slash {cs : List Char} (hcs : '/' ∉ cs) :
    ch.parseFromStr cs "%m/%d/%Y".toList = none :=
  @parseFromStr_eq_none ch _ _ [.directive .month, .literal '/', .directive .day, .literal '/',
    .directive .year] '/' rfl (by rw [count_eq_zero_of_not_mem hcs]; decide)

end Chrono

inductive TimeSuffix where
  | none
  | afterT (time : List Char)
  | afterBlank (time : List Char) (h : 'T' ∉ time)

def TimeSuffix.text : TimeSuffix → List Char
  | .none => []
  | .afterT time => 'T' :: time
  | .afterBlank time _ => ' ' :: time

def isoText (d : CivilDate) : List Char :=
  yearText d.year ++ '-' :: (twoDigits d.month ++ '-' :: twoDigits d.day)

structure PaddedDate where
  date : CivilDate
  leading : ℕ
  suffix : TimeSuffix
  trailing : ℕ
  year_mem : 1000 ≤ date.year ∧ date.year ≤ 9999

open Chrono ToDateFunc

namespace PaddedDate

variable (p : PaddedDate)

def rest : List Char := p.suffix.text ++ replicate p.trailing ' '

def padded (rest : List Char) : List Char :=
  replicate p.leading ' ' ++ (isoText p.date ++ rest)

def text : String := .ofList (p.padded p.rest)

def DateOrFailure (env : DateEnv) (func : ToDateFunc) : Prop :=
  func.toDate env none [some p.text] = .ok [some p.date.dayNumber] ∨
    func.tryMode = true ∧ func.toDate env none [some p.text] = .ok [none] ∨
    func.tryMode = false ∧ ∃ e ≠ DateError.panicked, func.toDate env none [some p.text] = .error e

def cut : List Char :=
  match p.suffix with
  | .afterT _ => (replicate p.leading ' ' ++ isoText p.date).take 10
  | _ => if p.leading = 0 then isoText p.date else []

variable {p} {c : Char}

lemma year_mem' : 0 ≤ p.date.year ∧ p.date.year ≤ 9999 := by
  have hy := p.year_mem
  omega

lemma length_isoText : (isoText p.date).length = 10 := by
  rw [isoText, yearText, if_pos year_mem']
  rfl

lemma mem_isoText (hc : c ∈ isoText p.date) : c.isDigit = true ∨ c = '-' := by
  rw [isoText, yearText, if_pos year_mem'] at hc
  have hy := @year_mem' p
  simp only [mem_append, mem_cons] at hc
  rcases hc with (hc | hc) | rfl | hc | rfl | hc
  · exact .inl (isDigit_of_mem_twoDigits (by omega) hc)
  · exact .inl (isDigit_of_mem_twoDigits (by omega) hc)
  · exact .inr rfl
  · exact .inl (isDigit_of_mem_twoDigits (month_lt _) hc)
  · exact .inr rfl
  · exact .inl (isDigit_of_mem_twoDigits (day_lt _) hc)

lemma notMem_isoText (hc : c.isDigit = false) (hdas : c ≠ '-') : c ∉ isoText p.date := fun hm => by
  rcases mem_isoText hm with hd | rfl
  · rw [hc] at hd
    cases hd
  · exact hdas rfl

lemma utf8Size_of_mem (hc : c ∈ replicate p.leading ' ' ++ isoText p.date) : c.utf8Size = 1 := by
  rcases mem_append.mp hc with hc | hc
  · rw [eq_of_mem_replicate hc]
    rfl
  · rcases mem_isoText hc with hd | rfl
    · exact utf8Size_of_isDigit hd
    · rfl

lemma byteLen_isoText : byteLen (isoText p.date) = 10 :=
  (byteLen_of_single fun _ hc => utf8Size_of_mem (mem_append_right _ hc)).trans
    length_isoText

lemma findByte_append {l r : List Char} (h : c ∉ l) :
    findByte c (l ++ c :: r) = some (byteLen l) := by
  have hne : ∀ x ∈ l, decide (x ≠ c) = true := fun x hx =>
    decide_eq_true fun heq => h (heq ▸ hx)
  rw [findByte, if_pos (mem_append_right _ mem_cons_self),
    takeWhile_append_of_pos hne, takeWhile_cons_of_neg (by simp), append_nil]

lemma findByte_trimText {time : List Char} :
    findByte 'T' (trimText (.ofList (p.padded ('T' :: time)))).toList = some 10 := by
  have hd : (p.padded ('T' :: time)).dropWhile isWhitespace = isoText p.date ++ 'T' :: time := by
    rw [padded, isoText, List.append_assoc, dropWhile_blanks _ year_mem']
  have hr : (isoText p.date ++ 'T' :: time).rdropWhile isWhitespace =
      isoText p.date ++ 'T' :: time.rdropWhile isWhitespace := by
    rw [List.rdropWhile, reverse_append, reverse_cons, List.append_assoc, dropWhile_append]
    split_ifs with he
    · rw [List.isEmpty_iff] at he
      simp [List.rdropWhile, he, isWhitespace]
    · simp [List.rdropWhile]
  rw [trimText, toList_ofList, toList_ofList, hd, hr,
    findByte_append (notMem_isoText rfl (by decide)), byteLen_isoText]

lemma formatDateStr_of_notMem {rest : List Char} (hT : 'T' ∉ rest)
    (hr : rest = [] ∨ ∃ r, rest = ' ' :: r) : formatDateStr (.ofList (p.padded rest)) =
      some (.ofList (if p.leading = 0 then isoText p.date else [])) := by
  have ht : 'T' ∉ p.padded rest := by
    simp only [padded, mem_append, mem_replicate, not_or]
    exact ⟨fun h => absurd h.2 (by decide), notMem_isoText rfl (by decide), hT⟩
  have htr : 'T' ∉ (trimText (.ofList (p.padded rest))).toList := by
    rw [trimText, toList_ofList, toList_ofList]
    exact fun hm => ht ((dropWhile_suffix _).subset
      (( rdropWhile_prefix _ _).subset hm))
  rw [formatDateStr, findByte, if_neg htr, none_or, toList_ofList, padded]
  cases p.leading with
  | zero =>
    rcases hr with rfl | ⟨r, rfl⟩
    · rw [append_nil, replicate_zero, nil_append, findByte, if_neg (notMem_isoText rfl (by decide))]
      rfl
    · rw [replicate_zero, nil_append, findByte_append (notMem_isoText rfl (by decide))]
      simp [takeBytes_byteLen]
  | succ k =>
    have hz := @findByte_append ' ' [] (replicate k ' ' ++ (isoText p.date ++ rest))
      not_mem_nil
    rw [nil_append] at hz
    rw [replicate_succ, cons_append, hz]
    rfl

lemma formatDateStr_text : formatDateStr p.text = some (.ofList p.cut) := by
  rw [text, cut, rest]
  cases p.suffix with
  | none =>
    refine formatDateStr_of_notMem (by simp [TimeSuffix.text]) ?_
    cases p.trailing with
    | zero => exact .inl rfl
    | succ l => exact .inr ⟨replicate l ' ', rfl⟩
  | afterBlank time htim =>
    exact formatDateStr_of_notMem (by simp [TimeSuffix.text, htim]) (.inr ⟨_, rfl⟩)
  | afterT time =>
    have hs : ∀ c ∈ (replicate p.leading ' ' ++ isoText p.date).take 10,
        c.utf8Size = 1 := fun c hc => utf8Size_of_mem (mem_of_mem_take hc)
    have hlen : ((replicate p.leading ' ' ++ isoText p.date).take 10).length = 10 := by
      rw [length_take, List.length_append, length_isoText]
      omega
    have ht : ∀ rest, takeBytes 10 (p.padded rest) =
        some ((replicate p.leading ' ' ++ isoText p.date).take 10) := fun rest => by
      rw [takeBytes_eq_some_iff, padded]
      exact ⟨(replicate p.leading ' ' ++ isoText p.date).drop 10 ++ rest,
        by rw [← List.append_assoc, ← List.append_assoc, take_append_drop],
        (byteLen_of_single hs).trans hlen⟩
    rw [formatDateStr]
    simp only [TimeSuffix.text, cons_append, findByte_trimText, some_or,
      toList_ofList, ht, map_some]

variable (p) in
def CutsDay : Prop := (∃ time, p.suffix = .afterT time) ∧ p.leading = 1

lemma mem_cut (hc : c ∈ p.cut) : c = ' ' ∨ c ∈ isoText p.date := by
  rw [cut] at hc
  split at hc
  · exact (mem_append.mp (mem_of_mem_take hc)).imp_left eq_of_mem_replicate
  · split_ifs at hc
    · exact .inr hc
    · cases hc

lemma slash_notMem_cut : '/' ∉ p.cut := fun hm =>
  (mem_cut hm).elim (by decide) (notMem_isoText rfl (by decide))

variable {env : DateEnv} (f : ToDateFunc)

lemma parseKnownFormats_of_cut {k : ℕ} {ds : List Char} (hc : p.cut = replicate k ' ' ++
      (yearText p.date.year ++ '-' :: (twoDigits p.date.month ++ '-' :: ds)))
    (hds : ∀ c ∈ ds, c.isDigit = true) (hlen : ds.length ≤ 2) :
    parseKnownFormats env (.ofList p.cut) =
      (readDigits ds).bind (ofYmd? p.date.year p.date.month) := by
  rw [parseKnownFormats, toList_ofList, parseFromStr_slash slash_notMem_cut, hc,
    parseFromStr_iso k year_mem' (month_lt _) hds hlen,
    parseFromStr_monthName k year_mem', or_none, or_none]

lemma parseKnownFormats_of_count (h : p.cut.count '-' < 2) :
    parseKnownFormats env (.ofList p.cut) = none := by
  rw [parseKnownFormats, toList_ofList, parseFromStr_slash slash_notMem_cut,
    @parseFromStr_eq_none env.chrono _ _ [.directive .year, .literal '-',
      .directive .month, .literal '-', .directive .day] '-' rfl h,
    @parseFromStr_eq_none env.chrono _ _ [.directive .day, .literal '-',
      .directive .monthName, .literal '-', .directive .year] '-' rfl h]
  rfl

lemma parseKnownFormats_of_unpadded (h : p.leading = 0) :
    parseKnownFormats env (.ofList p.cut) = some p.date := by
  have hc : p.cut = isoText p.date := by
    rw [cut, h]
    split
    · exact take_of_length_le length_isoText.le
    · rfl
  rw [parseKnownFormats_of_cut (k := 0) hc
    (fun c => isDigit_of_mem_twoDigits (day_lt _)) le_rfl,
    readDigits_twoDigits (day_lt _)]
  exact ofYmd?_eq_some_iff.mpr ⟨rfl, rfl, rfl⟩

lemma parseKnownFormats_of_cutsDay (h : p.CutsDay) : parseKnownFormats env (.ofList p.cut) =
    ofYmd? p.date.year p.date.month (p.date.day / 10) := by
  obtain ⟨⟨time, ht⟩, hl⟩ := h
  have hd : ∀ d < 10, readDigits [Nat.digitChar d] = some d := by decide
  have hdy := day_lt p.date
  rw [@parseKnownFormats_of_cut p env 1 [Nat.digitChar (p.date.day / 10)], hd _ (by omega)]
  · rfl
  · rw [cut, ht, hl, isoText, yearText, if_pos year_mem']
    rfl
  · exact fun c hc => isDigit_of_mem_twoDigits hdy
      (mem_of_mem_take (i := 1) hc)
  · exact Nat.le_succ 1

lemma parseKnownFormats_of_shifted (h : p.leading ≠ 0) (hdy : ¬p.CutsDay) :
    parseKnownFormats env (.ofList p.cut) = none := by
  cases hs : p.suffix with
  | none | afterBlank time ht =>
    refine parseKnownFormats_of_count ?_
    rw [cut, hs]
    simp [h]
  | afterT time =>
    have ho : p.leading ≠ 1 := fun ho => hdy ⟨⟨time, hs⟩, ho⟩
    rcases Nat.lt_or_ge 2 p.leading with hl | htwo
    · -- Only the first seven characters of the date can be left.
      refine parseKnownFormats_of_count ?_
      have hy := @year_mem' p
      have hd : ∀ n < 100, (twoDigits n).count '-' = 0 := by decide
      have hsev : ((isoText p.date).take 7).count '-' = 1 := by
        rw [isoText, yearText, if_pos hy]
        change (twoDigits _ ++ (twoDigits _ ++ '-' :: twoDigits _)).count '-' = 1
        rw [count_append, count_append, count_cons_self, hd _ (by omega),
          hd _ (by omega), hd _ (month_lt _)]
      have hle : ((isoText p.date).take (10 - p.leading)).count '-' ≤ 1 :=
        hsev ▸ (take_prefix_take_left (by omega)).sublist.count_le '-'
      have hb : '-' ∉ (replicate p.leading ' ').take 10 := fun hm =>
        absurd (eq_of_mem_replicate (mem_of_mem_take hm)) (by decide)
      rw [cut, hs]
      simp only [take_append, List.length_replicate, count_append, count_eq_zero_of_not_mem hb]
      omega
    · have htwo : p.leading = 2 := by omega
      rw [@parseKnownFormats_of_cut p env 2 []]
      · rfl
      · rw [cut, hs, htwo, isoText, yearText, if_pos year_mem']
        rfl
      · exact forall_mem_nil _
      · exact Nat.zero_le 2

lemma parseTruncated_cut (h : p.leading ≠ 0) : f.parseTruncated env (.ofList p.cut) =
    f.unsupported (.ofList p.cut) "%Y-%m-%d, %d-%B-%Y & %m/%d/%Y" := by
  have hct : p.cut = [] ∨ ∃ cs, p.cut = ' ' :: cs := by
    obtain ⟨k, hk⟩ := Nat.exists_eq_succ_of_ne_zero h
    rw [cut, hk]
    split
    · exact .inr ⟨_, rfl⟩
    · exact .inl rfl
  have hp : parseI64 p.cut = none := by
    rcases hct with hct | ⟨cs, hct⟩
    · rw [hct]
      rfl
    · simp [hct, parseI64, readDigits]
  have hlen : ¬10 < byteLen p.cut := by
    have hs : ∀ c ∈ p.cut, c.utf8Size = 1 := fun c hc => by
      rcases mem_cut hc with rfl | hm
      · rfl
      · exact utf8Size_of_mem (mem_append_right _ hm)
    rw [byteLen_of_single hs, Nat.not_lt, cut]
    split
    · exact length_take_le 10 _
    · simp [h]
  rw [parseTruncated, truncatedText, toList_ofList]
  simp only [if_neg hlen, if_neg (fun h19 : 19 < byteLen p.cut => hlen (by omega)), hp]

lemma toDate_text : f.toDate env none [some p.text] =
    (match parseKnownFormats env (.ofList p.cut) with
      | some d => Except.ok (some d.dayNumber)
      | none => f.parseTruncated env (.ofList p.cut)).map fun v => [v] := by
  have hr : f.toDateRow env none (some p.text) = f.toDateAuto env p.text := rfl
  have ha : f.toDateAuto env p.text = match parseKnownFormats env (.ofList p.cut) with
      | some d => .ok (some d.dayNumber)
      | none => f.parseTruncated env (.ofList p.cut) := by
    rewrite [toDateAuto, formatDateStr_text]
    rfl
  rw [← ha, toDate, mapM_cons, mapM_nil, hr]
  cases f.toDateAuto env p.text <;> rfl

/-! ### Main result -/

/-- **A padded text** gives its date or a failure exactly when the cut leaves the day whole. -/
theorem dateOrFailure_iff {func : ToDateFunc} :
    p.DateOrFailure env func ↔ ¬(p.CutsDay ∧ 10 ≤ p.date.day) := by
  have hf : p.leading ≠ 0 → parseKnownFormats env (.ofList p.cut) = none →
      p.DateOrFailure env func := fun hl hn => by
    rw [DateOrFailure, toDate_text, hn, parseTruncated_cut func hl, unsupported]
    cases func.tryMode <;> simp [Except.map]
  by_cases hl : p.leading = 0
  · refine iff_of_true (.inl ?_) fun h => by rw [h.1.2] at hl; cases hl
    rw [toDate_text, parseKnownFormats_of_unpadded hl]
    rfl
  by_cases hc : p.CutsDay
  · have hp := @parseKnownFormats_of_cutsDay p env hc
    rcases Nat.lt_or_ge p.date.day 10 with hd | hd
    · rw [ofYmd?, dif_neg (by omega)] at hp
      exact iff_of_true (hf hl hp) fun h => Nat.not_lt.mpr h.2 hd
    · refine iff_of_false ?_ fun h => h ⟨hc, hd⟩
      have hle := p.date.day_le
      rw [ofYmd?, dif_pos (by omega)] at hp
      rw [DateOrFailure, toDate_text, hp]
      simp only [Except.map, Except.ok.injEq, cons.injEq, some.injEq, and_true,
        reduceCtorEq, and_false, exists_false, or_false]
      intro heq
      have hs := congrArg (fun n => (ofDayNumber n).day) heq
      simp only [ofDayNumber_dayNumber] at hs
      omega
  · exact iff_of_true (hf hl (parseKnownFormats_of_shifted hl hc)) fun h => hc h.1

theorem not_dateOrFailure :
    (ToDateFunc.mk false).toDate sampleDateEnv none [some " 2024-01-31T10:00"] =
        .ok [some (dayNumber ⟨2024, 1, 3, by decide, by decide⟩)] ∧
      ¬PaddedDate.DateOrFailure ⟨⟨2024, 1, 31, by decide, by decide⟩, 1, .afterT "10:00".toList,
        0, by decide⟩ sampleDateEnv ⟨false⟩ :=
  ⟨by decide +kernel, by
    rintro (h | ⟨⟨⟩, -⟩ | ⟨-, e, -, h⟩)
    · exact absurd h (by decide +kernel)
    · have ho : ((ToDateFunc.mk false).toDate sampleDateEnv none
          [some " 2024-01-31T10:00"]).isOk = true := by decide +kernel
      exact Bool.false_ne_true ((congrArg Except.isOk h).symm.trans ho)⟩

end PaddedDate

end Rustice
