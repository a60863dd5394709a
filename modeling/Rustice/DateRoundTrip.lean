import Rustice.ToVarchar

/-!
# Dates That Are Printed and Parsed

`TO_VARCHAR` and `TO_DATE` translate a format for `chrono` with different tables.
-/

namespace Rustice

open List Option

inductive DateField where
  | year
  | month
  | day
  deriving DecidableEq

def DateField.token : DateField → DateToken
  | year => .yyyy
  | month => .mm
  | day => .dd

structure DateEnv.Punctuation (env : DateEnv) (c : Char) : Prop where
  fixed : env.lowercaseFixed c = true
  not_alphanum : c.isAlphanum = false
  not_space : isWhitespace c = false

lemma DateEnv.Punctuation.not_alpha {env : DateEnv} {c : Char} (h : env.Punctuation c) :
    c.isAlpha = false := by
  have ha := h.not_alphanum
  rw [Char.isAlphanum, Bool.or_eq_false_iff] at ha
  exact ha.1

structure DateFormat (env : DateEnv) where
  first : DateField
  second : DateField
  third : DateField
  separator : Char
  separator' : Char
  first_ne_second : first ≠ second
  first_ne_third : first ≠ third
  second_ne_third : second ≠ third
  punctuation : env.Punctuation separator
  punctuation' : env.Punctuation separator'

open FormatPiece

namespace DateFormat

variable {env : DateEnv} (fmt : DateFormat env)

def pieces : List FormatPiece :=
  [.token fmt.first.token, .separator fmt.separator fmt.punctuation.not_alpha,
    .token fmt.second.token, .separator fmt.separator' fmt.punctuation'.not_alpha,
    .token fmt.third.token]

def text : String := .ofList (formatText fmt.pieces)

end DateFormat

open Chrono CivilDate

namespace DateEnv

variable {env : DateEnv}

def RoundTrips (env : DateEnv) (tryVarchar : Bool) (toDate : ToDateFunc) (fmt : DateFormat env)
    (d : CivilDate) : Prop :=
  ∃ text, env.convertDateToString (.date32 d.dayNumber) (some fmt.text) tryVarchar =
      .ok (some text) ∧
    toDate.toDate env (some fmt.text) [some text] = .ok [some d.dayNumber]

variable {text t : List Char}

def varcharText (f : DateField) : List Char := dateText f.token

def letter : DateField → Char
  | .year => 'Y'
  | .month => 'm'
  | .day => 'd'

def printed (d : CivilDate) (f : DateField) : List Char := fieldText d 0 f.token

def printedAfter (d : CivilDate) (c : Char) (f : DateField) : List Char :=
  if c = '%' then ['%', letter f] else c :: printed d f

def printedText (d : CivilDate) (fmt : DateFormat env) : List Char :=
  printed d fmt.first ++ (printedAfter d fmt.separator fmt.second ++
    (printedAfter d fmt.separator' fmt.third ++ []))

lemma format_varcharText (ch : Chrono) (d : CivilDate) (f : DateField) (cs : List Char) :
    ch.format (varcharText f ++ cs) ⟨d, none, 0⟩ =
      (ch.format cs ⟨d, none, 0⟩).map (printed d f ++ ·) := by
  cases f with
  | year => exact format_directive (d := .year) (n := 1) rfl rfl
  | month => exact format_directive (d := .month) (n := 1) rfl rfl
  | day => exact format_directive (d := .day) (n := 1) rfl rfl

lemma format_separator (ch : Chrono) (d : CivilDate) (c : Char) (f : DateField) (cs : List Char) :
    ch.format (c :: (varcharText f ++ cs)) ⟨d, none, 0⟩ =
      (ch.format cs ⟨d, none, 0⟩).map (printedAfter d c f ++ ·) := by
  by_cases hc : c = '%'
  · subst hc
    have hl : letter f ≠ '%' := by cases f <;> decide
    have ht : varcharText f = ['%', letter f] := by cases f <;> rfl
    rw [ht, cons_append, singleton_append, format_percent,
      format_cons hl, printedAfter, if_pos rfl, Option.map_map]
    rfl
  · rw [format_cons hc, format_varcharText, printedAfter, if_neg hc, Option.map_map]
    rfl

lemma replace_varchar (fmt : DateFormat env) :
    replaceText ['m', 'o', 'n'] ['%', 'b'] (replaceText ['d', 'd'] ['%', 'd']
      (replaceText ['m', 'm'] ['%', 'm']
        (replaceText ['y', 'y', 'y', 'y'] ['%', 'Y'] (formatText fmt.pieces)))) =
    varcharText fmt.first ++ fmt.separator :: (varcharText fmt.second ++
      fmt.separator' :: (varcharText fmt.third ++ [])) := by
  have hd : Function.update dateText .yyyy ['%', 'Y'] = dateText := by
    funext t
    cases t <;> rfl
  rw [replace_yyyy, replace_mm_dd (by decide) (by decide), hd, replaceText_other rfl]
  · rfl
  · rintro t qs
    cases t with
    | mm =>
      refine noStart_month (fun t => ?_) rfl (fun t => ?_) qs
      · cases t <;> exact cons_ne_nil _ _
      · cases t <;> decide
    | mi => exact ⟨by simp, by simp, trivial⟩
    | yyyy | dd | hh24 | ss => exact noStart_of_notMem (by decide) _

lemma print_of_format {fr : String} {fs : FormatFields}
    (h : env.chrono.format fr.toList fs = some t) : env.print fr fs = .ok (.ofList t) := by
  rw [print, h]

lemma applyDateFormat_eq (fmt : DateFormat env) (d : CivilDate) : env.applyDateFormat d fmt.text =
    .ok (.ofList (printedText d fmt)) := by
  have hf : env.chrono.format (varcharText fmt.first ++ fmt.separator ::
      (varcharText fmt.second ++ fmt.separator' :: (varcharText fmt.third ++ []))) ⟨d, none, 0⟩ =
      some (printedText d fmt) := by
    rw [format_varcharText, format_separator, format_separator, format_nil]
    rfl
  rw [← replace_varchar fmt] at hf
  refine print_of_format ?_
  rw [toList_foldl_replace, DateFormat.text, String.toList_ofList]
  exact hf

variable {c : Char} {fmt : DateFormat env}

def toDateText (f : DateField) : List Char :=
  Function.update dateText .yyyy ['%', 'C', '%', 'y'] f.token

def fieldItems : DateField → List FormatItem
  | .year => [.directive .century, .directive .yearOfCentury]
  | .month => [.directive .month]
  | .day => [.directive .day]

def lostItems : DateField → List FormatItem
  | .year => [.literal '%', .literal 'C', .directive .yearOfCentury]
  | .month => [.literal '%', .literal 'm']
  | .day => [.literal '%', .literal 'd']

def itemsAfter (c : Char) (f : DateField) : List FormatItem :=
  if c = '%' then lostItems f else .literal c :: fieldItems f

lemma items_toDateText (ch : Chrono) (f : DateField) (cs : List Char) :
    ch.items (toDateText f ++ cs) = (ch.items cs).map (fieldItems f ++ ·) := by
  cases f with
  | year =>
    calc ch.items ('%' :: 'C' :: '%' :: 'y' :: cs)
        = (ch.items ('%' :: 'y' :: cs)).map (.directive .century :: ·) :=
          items_letter rfl
      _ = ((ch.items cs).map (.directive .yearOfCentury :: ·)).map
            (.directive .century :: ·) := congrArg _ (items_letter rfl)
      _ = (ch.items cs).map (fieldItems .year ++ ·) := Option.map_map ..
  | month => exact items_letter rfl
  | day => exact items_letter rfl

lemma items_percent_toDateText (ch : Chrono) (f : DateField) (cs : List Char) :
    ch.items ('%' :: (toDateText f ++ cs)) = (ch.items cs).map (lostItems f ++ ·) := by
  have hp : ∀ {c : Char} (_ : c ≠ '%') (_ : plainItem c = .literal c) (r : List Char),
      ch.items ('%' :: '%' :: c :: r) =
        ((ch.items r).map (.literal c :: ·)).map (.literal '%' :: ·) := by
    intro c hc hi r
    rw [← hi, ← items_cons hc]
    exact items_letter rfl
  cases f with
  | year =>
    calc ch.items ('%' :: '%' :: 'C' :: '%' :: 'y' :: cs)
        = ((ch.items ('%' :: 'y' :: cs)).map (.literal 'C' :: ·)).map (.literal '%' :: ·) :=
          hp (by decide) rfl _
      _ = (ch.items ('%' :: 'y' :: cs)).map ([.literal '%', .literal 'C'] ++ ·) :=
          Option.map_map ..
      _ = ((ch.items cs).map (.directive .yearOfCentury :: ·)).map
            ([.literal '%', .literal 'C'] ++ ·) := congrArg _ (items_letter rfl)
      _ = (ch.items cs).map (lostItems .year ++ ·) := Option.map_map ..
  | month => exact (hp (by decide) rfl cs).trans (Option.map_map ..)
  | day => exact (hp (by decide) rfl cs).trans (Option.map_map ..)

lemma items_separator (ch : Chrono) (hc : isWhitespace c = false) (f : DateField) (cs : List Char) :
    ch.items (c :: (toDateText f ++ cs)) = (ch.items cs).map (itemsAfter c f ++ ·) := by
  by_cases hp : c = '%'
  · subst hp
    exact items_percent_toDateText ch f cs
  · have hi : plainItem c = .literal c := by
      rw [plainItem, hc]
      rfl
    rw [items_cons hp, items_toDateText, hi, itemsAfter, if_neg hp, Option.map_map]
    rfl

def toDateFormatText (fmt : DateFormat env) : List Char :=
  toDateText fmt.first ++ fmt.separator :: (toDateText fmt.second ++
    fmt.separator' :: (toDateText fmt.third ++ []))

def yearReplaced : DateToken → List Char :=
  Function.update DateToken.text .yyyy ['%', 'C', '%', 'y']

lemma noStart_mmmm (hc : c ≠ 'm') (f : DateField) {cs : List Char}
    (h : NoStart ['m', 'm', 'm', 'm'] cs []) :
    NoStart ['m', 'm', 'm', 'm'] (yearReplaced f.token ++ c :: cs) [] := by
  have hf : ¬ ['m', 'm', 'm', 'm'] <+: c :: (cs ++ []) := by simp [hc.symm]
  cases f with
  | year => exact ⟨by simp, by simp, by simp, by simp, hf, h⟩
  | month => exact ⟨by simp [hc.symm], by simp [hc.symm], hf, h⟩
  | day => exact ⟨by simp, by simp, hf, h⟩

lemma replace_other (fmt : DateFormat env) :
    replaceText ['m', 'm', 'm', 'm'] ['%', 'B'] (replaceText ['m', 'o', 'n'] ['%', 'B']
      (replaceText ['y', 'y'] ['%', 'Y'] (fmt.pieces.flatMap (render yearReplaced)))) =
    fmt.pieces.flatMap (render yearReplaced) := by
  have hne : ∀ t, yearReplaced t ≠ [] := fun t => by cases t <;> exact cons_ne_nil _ _
  rw [replaceText_other rfl, replaceText_other rfl]
  · have hl : ∀ {c : Char}, c.isAlpha = false → c ≠ 'm' := by
      rintro c hc rfl
      cases hc
    have hlas : NoStart ['m', 'm', 'm', 'm'] (yearReplaced fmt.third.token ++ []) [] := by
      cases fmt.third <;> simp [NoStart, yearReplaced, DateField.token, DateToken.text]
    exact replaceText_of_noStart (noStart_mmmm (hl fmt.punctuation.not_alpha) fmt.first
      (noStart_mmmm (hl fmt.punctuation'.not_alpha) fmt.second hlas))
  · rintro t qs
    have hh := head?_render_ne (b := 'o') rfl hne
      (fun t => by cases t <;> decide) qs
    cases t with
    | mm => exact ⟨by simp, not_prefix_of_head? hh, trivial⟩
    | mi => exact ⟨by simp, by simp, trivial⟩
    | yyyy | dd | hh24 | ss => exact noStart_of_notMem (by decide) _
  · rintro t qs
    have hh := head?_render_ne (b := 'y') rfl hne
      (fun t => by cases t <;> decide) qs
    cases t with
    | yyyy => exact ⟨by simp, by simp, by simp, not_prefix_of_head? hh, trivial⟩
    | mm | dd | hh24 | mi | ss => exact noStart_of_notMem (by decide) _

lemma toList_parseToChronoFormat (fmt : DateFormat env) :
    (parseToChronoFormat fmt.text).toList = toDateFormatText fmt := by
  have hy := @FormatPiece.replace_yyyy fmt.pieces ['%', 'C', '%', 'y']
  have ho := replace_other fmt
  have hr := @FormatPiece.replace_mm_dd fmt.pieces ['%', 'C', '%', 'y'] (by decide) (by decide)
  rw [← yearReplaced, ← ho, yearReplaced, ← hy] at hr
  rw [parseToChronoFormat, toList_foldl_replace, DateFormat.text, String.toList_ofList]
  exact hr

lemma field_cases (fmt : DateFormat env) (f : DateField) :
    f = fmt.first ∨ f = fmt.second ∨ f = fmt.third := by
  have hfir := fmt.first_ne_second
  have hth := fmt.first_ne_third
  have hsec := fmt.second_ne_third
  cases f <;> cases hf : fmt.first <;> cases hs : fmt.second <;> cases ht : fmt.third <;> simp_all

lemma toDateText_infix_format (fmt : DateFormat env) (f : DateField) :
    toDateText f <:+: toDateFormatText fmt := by
  rcases field_cases fmt f with rfl | rfl | rfl
  · exact ⟨[], _, rfl⟩
  · exact ⟨toDateText fmt.first ++ [fmt.separator], fmt.separator' :: (toDateText fmt.third ++ []),
      by simp [toDateFormatText]⟩
  · exact ⟨toDateText fmt.first ++ fmt.separator :: (toDateText fmt.second ++ [fmt.separator']), [],
      by simp [toDateFormatText]⟩

lemma formatMissingChronoFormat_eq (fmt : DateFormat env) :
    formatMissingChronoFormat (parseToChronoFormat fmt.text) =
      (parseToChronoFormat fmt.text, "") := by
  have hc : ∀ (f : DateField) (p : String), p.toList <:+: toDateText f →
      containsText (parseToChronoFormat fmt.text) p = true := by
    intro f p hp
    rw [containsText, toList_parseToChronoFormat, decide_eq_true_eq]
    exact hp.trans (toDateText_infix_format fmt f)
  rw [formatMissingChronoFormat, hc .year "%y" (by decide),
    hc .month "%m" (by decide), hc .day "%d" (by decide)]
  simp

lemma mem_text (hc : c ∈ fmt.text.toList) : (c = 'y' ∨ c = 'm' ∨ c = 'd') ∨ env.Punctuation c := by
  have ht : ∀ f : DateField, c ∈ f.token.text → c = 'y' ∨ c = 'm' ∨ c = 'd' := by
    intro f hm
    cases f <;> simp_all [DateField.token, DateToken.text]
  rw [DateFormat.text, String.toList_ofList] at hc
  simp only [formatText, DateFormat.pieces, flatMap_cons, flatMap_nil,
    render, mem_append, mem_singleton, not_mem_nil, or_false] at hc
  rcases hc with hc | rfl | hc | rfl | hc
  · exact .inl (ht _ hc)
  · exact .inr fmt.punctuation
  · exact .inl (ht _ hc)
  · exact .inr fmt.punctuation'
  · exact .inl (ht _ hc)

lemma extractFormatArg_eq (fmt : DateFormat env) :
    env.extractFormatArg (some fmt.text) = some fmt.text := by
  have ht : trimText fmt.text = fmt.text := trimText_eq_self fun c hc => by
    rcases mem_text hc with (rfl | rfl | rfl) | hp
    · rfl
    · rfl
    · rfl
    · exact hp.not_space
  have hl : env.toLowercase fmt.text = fmt.text := env.toLowercase_of_fixed _ fun c hc => by
    rcases mem_text hc with (rfl | rfl | rfl) | hp
    · exact env.fixed_of_ascii 'y' (by decide) rfl
    · exact env.fixed_of_ascii 'm' (by decide) rfl
    · exact env.fixed_of_ascii 'd' (by decide) rfl
    · exact hp.fixed
  -- A format has a separator, and this is not a letter.
  have haut : fmt.text ≠ "auto" := fun heq => by
    have hm : fmt.separator ∈ fmt.text.toList := by
      rw [DateFormat.text, String.toList_ofList]
      exact mem_append_right _ mem_cons_self
    have ha : ∀ x ∈ "auto".toList, x.isAlpha = true := List.all_eq_true.mp rfl
    rw [heq] at hm
    exact Bool.false_ne_true (fmt.punctuation.not_alpha.symm.trans (ha _ hm))
  rw [extractFormatArg, map_some, ht, hl]
  exact filter_some_pos (decide_eq_true haut)

variable {d : CivilDate} {f : DateField} {fields fs : ParsedFields}

def setField (d : CivilDate) (f : DateField) (fields : ParsedFields) : ParsedFields :=
  match f with
  | .year => { fields with century := some (d.year.toNat / 100),
                           yearOfCentury := some (d.year.toNat % 100) }
  | .month => { fields with month := some d.month }
  | .day => { fields with day := some d.day }

def Unset (f : DateField) (fields : ParsedFields) : Prop :=
  match f with
  | .year => fields.century = none ∧ fields.yearOfCentury = none
  | .month => fields.month = none
  | .day => fields.day = none

lemma parseItems_field (ch : Chrono) (hd : 0 ≤ d.year ∧ d.year ≤ 9999)
    (h : Unset f fs) (i : List FormatItem) (r : List Char) :
    ch.parseItems (fieldItems f ++ i) (printed d f ++ r) fs =
      ch.parseItems i r (setField d f fs) := by
  cases f with
  | year =>
    obtain ⟨hc, hy⟩ := h
    have ht : printed d .year ++ r =
        twoDigits (d.year.toNat / 100) ++ (twoDigits (d.year.toNat % 100) ++ r) := by
      rw [← append_assoc]
      exact congrArg (· ++ r) (if_pos hd)
    rw [ht]
    simp only [fieldItems, cons_append, nil_append, parseItems, parseItem, parseDirective, hc,
      parseField_twoDigits (n := d.year.toNat / 100) (by omega), bind_eq_bind, bind_some, hy,
      parseField_twoDigits (n := d.year.toNat % 100) (by omega)]
    rfl
  | month =>
    have hm : fs.month = none := h
    simp only [fieldItems, cons_append, nil_append, parseItems, parseItem, parseDirective, hm,
      printed, DateField.token, fieldText, parseField_twoDigits (month_lt d), bind_eq_bind,
      bind_some]
    rfl
  | day =>
    have hdy : fs.day = none := h
    simp only [fieldItems, cons_append, nil_append, parseItems, parseItem, parseDirective, hdy,
      printed, DateField.token, fieldText, parseField_twoDigits (day_lt d), bind_eq_bind, bind_some]
    rfl

lemma parseItems_literal (ch : Chrono) (c : Char) (i : List FormatItem) (r : List Char)
    (fields : ParsedFields) :
    ch.parseItems (.literal c :: i) (c :: r) fields = ch.parseItems i r fields := by
  rw [parseItems, parseItem, if_pos rfl]
  rfl

lemma unset_setField {d : CivilDate} {f g : DateField} (hne : f ≠ g) {fs : ParsedFields}
    (h : Unset g fs) : Unset g (setField d f fs) := by
  cases f <;> cases g <;> first | exact absurd rfl hne | exact h

lemma toNaiveDate_setField (hd : 0 ≤ d.year) {g h : DateField} (hfg : f ≠ g)
    (hfh : f ≠ h) (hg : g ≠ h) :
    toNaiveDate (setField d h (setField d g (setField d f ⟨none, none, none, none, none⟩))) =
      some d := by
  have hf : setField d h (setField d g (setField d f ⟨none, none, none, none, none⟩)) =
      ⟨none, some (d.year.toNat / 100), some (d.year.toNat % 100), some d.month, some d.day⟩ := by
    cases f <;> cases g <;> cases h <;>
      first | exact absurd rfl hfg | exact absurd rfl hfh | exact absurd rfl hg | rfl
  have hy : ((d.year.toNat / 100 : ℕ) : ℤ) * 100 + (d.year.toNat % 100 : ℕ) = d.year := by omega
  have hr : resolveYear ⟨none, some (d.year.toNat / 100), some (d.year.toNat % 100),
      some d.month, some d.day⟩ = some d.year := congrArg some hy
  rw [hf, toNaiveDate, hr]
  exact ofYmd?_eq_some_iff.mpr ⟨rfl, rfl, rfl⟩

def formatItems (fmt : DateFormat env) : List FormatItem :=
  fieldItems fmt.first ++ (itemsAfter fmt.separator fmt.second ++
    (itemsAfter fmt.separator' fmt.third ++ []))

lemma items_format (fmt : DateFormat env) :
    env.chrono.items (toDateFormatText fmt) = some (formatItems fmt) := by
  rw [toDateFormatText, items_toDateText, items_separator _ fmt.punctuation.not_space,
    items_separator _ fmt.punctuation'.not_space, items_nil]
  rfl

lemma parseFromStr_printedText
    (hd : 0 ≤ d.year ∧ d.year ≤ 9999) (hsp : fmt.separator ≠ '%') (hs' : fmt.separator' ≠ '%') :
    env.chrono.parseFromStr (printedText d fmt) (toDateFormatText fmt) = some d := by
  have he : ∀ f, Unset f ⟨none, none, none, none, none⟩ := fun f => by
    cases f <;> first | exact ⟨rfl, rfl⟩ | rfl
  have hs := @unset_setField d _ _ fmt.first_ne_second _ (he _)
  have ht := @unset_setField d _ _ fmt.second_ne_third _
    (@unset_setField d _ _ fmt.first_ne_third _ (he _))
  have hp : env.chrono.parseItems (formatItems fmt) (printedText d fmt)
      ⟨none, none, none, none, none⟩ =
      some (setField d fmt.third (setField d fmt.second (setField d fmt.first
        ⟨none, none, none, none, none⟩))) := by
    rw [formatItems, printedText, parseItems_field _ hd (he _), itemsAfter, if_neg hsp,
      printedAfter, if_neg hsp, cons_append, cons_append, parseItems_literal,
      parseItems_field _ hd hs, itemsAfter, if_neg hs', printedAfter, if_neg hs',
      cons_append, cons_append, parseItems_literal, parseItems_field _ hd ht]
    rfl
  rw [parseFromStr, items_format]
  simp only [bind_eq_bind, bind_some, hp]
  exact toNaiveDate_setField hd.1 fmt.first_ne_second fmt.first_ne_third fmt.second_ne_third

variable {ch : Chrono} {item : FormatItem} {fields' : ParsedFields} (fn : ToDateFunc)

def fieldValue (f : DateField) (fields : ParsedFields) : Option ℕ :=
  match f with
  | .year => fields.century
  | .month => fields.month
  | .day => fields.day

def Keeps (f : DateField) (item : FormatItem) : Prop :=
  (∃ c, item = .literal c) ∨ ∃ g, g ≠ f ∧ item ∈ fieldItems g

lemma fieldValue_parseItem {r : List Char} (hi : Keeps f item)
    (h : ch.parseItem item t fields = some (fields', r)) :
    fieldValue f fields' = fieldValue f fields := by
  rcases hi with ⟨c, rfl⟩ | ⟨g, hne, hm⟩
  · cases t with
    | nil => cases h
    | cons x t =>
      rw [parseItem] at h
      split at h
      · cases h
        rfl
      · cases h
  · cases g with
    | year =>
      simp only [fieldItems, mem_cons, not_mem_nil, or_false] at hm
      rcases hm with rfl | rfl
      · obtain ⟨-, v, -, rfl⟩ := exists_of_parseField h
        cases f <;> first | exact absurd rfl hne | rfl
      · obtain ⟨-, v, -, rfl⟩ := exists_of_parseField h
        cases f <;> rfl
    | month =>
      cases mem_singleton.mp hm
      obtain ⟨-, v, -, rfl⟩ := exists_of_parseField h
      cases f <;> first | exact absurd rfl hne | rfl
    | day =>
      cases mem_singleton.mp hm
      obtain ⟨-, v, -, rfl⟩ := exists_of_parseField h
      cases f <;> first | exact absurd rfl hne | rfl

lemma fieldValue_parseItems {i : List FormatItem} (hit : ∀ item ∈ i, Keeps f item)
    (h : ch.parseItems i t fields = some fields') : fieldValue f fields' = fieldValue f fields := by
  induction i generalizing t fields with
  | nil =>
    rw [parseItems] at h
    split at h
    · cases h
      rfl
    · cases h
  | cons item i ih =>
    rw [forall_mem_cons] at hit
    obtain ⟨⟨fields₁, rest⟩, hi, hr⟩ := bind_eq_some_iff.mp h
    rw [ih hit.2 hr, fieldValue_parseItem hit.1 hi]

lemma keeps_itemsAfter {g : DateField} (hne : g ≠ f)
    (hm : item ∈ itemsAfter c g) : Keeps f item := by
  rw [itemsAfter] at hm
  split at hm
  · cases g with
    | year =>
      simp only [lostItems, mem_cons, not_mem_nil, or_false] at hm
      rcases hm with rfl | rfl | rfl
      · exact .inl ⟨_, rfl⟩
      · exact .inl ⟨_, rfl⟩
      · exact .inr ⟨.year, hne, by decide⟩
    | month | day =>
      simp only [lostItems, mem_cons, not_mem_nil, or_false] at hm
      rcases hm with rfl | rfl
      · exact .inl ⟨_, rfl⟩
      · exact .inl ⟨_, rfl⟩
  · rcases mem_cons.mp hm with rfl | hm
    · exact .inl ⟨c, rfl⟩
    · exact .inr ⟨g, hne, hm⟩

lemma keeps_lostItems (hf : f ≠ .year) (hm : item ∈ itemsAfter '%' f) : Keeps f item := by
  cases f with
  | year => exact absurd rfl hf
  | month | day =>
    simp only [itemsAfter, if_pos, lostItems, mem_cons, not_mem_nil, or_false] at hm
    rcases hm with rfl | rfl
    · exact .inl ⟨_, rfl⟩
    · exact .inl ⟨_, rfl⟩

lemma notMem_printed (d : CivilDate) (f : DateField) : 'C' ∉ printed d f := fun hm => by
  rcases mem_fieldText hm with hd | hs | hs
  · exact absurd hd (by decide)
  · exact absurd hs (by decide)
  · exact absurd hs (by decide)

lemma notMem_printedAfter (d : CivilDate) (hc : c.isAlpha = false) (f : DateField) :
    'C' ∉ printedAfter d c f := by
  rw [printedAfter]
  split
  · cases f <;> decide
  · refine fun hm => ?_
    rcases mem_cons.mp hm with rfl | hm
    · cases hc
    · exact notMem_printed d f hm

lemma parseItems_lost_year (hm : FormatItem.literal 'C' ∈ formatItems fmt) :
    ch.parseItems (formatItems fmt) (printedText d fmt) fs = none := by
  refine parseItems_eq_none_of_literal hm fun ht => ?_
  simp only [printedText, mem_append, not_mem_nil, or_false] at ht
  rcases ht with ht | ht | ht
  · exact notMem_printed d _ ht
  · exact notMem_printedAfter d fmt.punctuation.not_alpha _ ht
  · exact notMem_printedAfter d fmt.punctuation'.not_alpha _ ht

lemma toNaiveDate_eq_none (hf : f ≠ .year)
    (h : fieldValue f fs = none) : toNaiveDate fs = none := by
  rw [toNaiveDate]
  cases f with
  | year => exact absurd rfl hf
  | month =>
    have hm : fs.month = none := h
    cases resolveYear fs <;> simp [hm]
  | day =>
    have hd : fs.day = none := h
    cases resolveYear fs <;> cases fs.month <;> simp [hd]

lemma parseFromStr_lost
    (hl : (fmt.separator = '%' ∧ f = fmt.second) ∨ (fmt.separator' = '%' ∧ f = fmt.third)) :
    env.chrono.parseFromStr (printedText d fmt) (toDateFormatText fmt) = none := by
  rw [parseFromStr, items_format]
  simp only [bind_eq_bind, bind_some, bind_eq_none_iff]
  intro fs hfi
  by_cases hf : f = .year
  · have hm : FormatItem.literal 'C' ∈ formatItems fmt := by
      have hlt : FormatItem.literal 'C' ∈ itemsAfter '%' .year := by decide
      simp only [formatItems, mem_append]
      rcases hl with ⟨hs, hsec⟩ | ⟨hs, ht⟩
      · rw [hs, ← hsec, hf]
        exact .inr (.inl hlt)
      · rw [hs, ← ht, hf]
        exact .inr (.inr (.inl hlt))
    rw [parseItems_lost_year hm] at hfi
    cases hfi
  · refine toNaiveDate_eq_none hf ((fieldValue_parseItems (fun item hi => ?_) hfi).trans ?_)
    · simp only [formatItems, mem_append, not_mem_nil, or_false] at hi
      rcases hl with ⟨hs, rfl⟩ | ⟨hs, rfl⟩
      · rw [hs] at hi
        rcases hi with hi | hi | hi
        · exact .inr ⟨_, fmt.first_ne_second, hi⟩
        · exact keeps_lostItems hf hi
        · exact keeps_itemsAfter fmt.second_ne_third.symm hi
      · rw [hs] at hi
        rcases hi with hi | hi | hi
        · exact .inr ⟨_, fmt.first_ne_third, hi⟩
        · exact keeps_itemsAfter fmt.second_ne_third hi
        · exact keeps_lostItems hf hi
    · cases f <;> rfl

lemma dateOfValue_date32 (env : DateEnv) (hd : 1 ≤ d.year ∧ d.year ≤ 9999) :
    env.dateOfValue (.date32 d.dayNumber) = .ok (some d) := by
  obtain ⟨hle, hlt⟩ := dayNumber_bounds hd
  have hmin := env.min_le_years
  have hmax := env.years_le_max
  have hw : wrapI32 (d.dayNumber + 719163) = d.dayNumber + 719163 :=
    Int.bmod_eq_of_le (by omega) (by omega)
  rw [dateOfValue, hw, fromNumDaysFromCe, add_sub_cancel_right,
    if_pos ⟨by omega, by omega⟩, ofDayNumber_dayNumber]

lemma convertDateToString_eq (env : DateEnv) (hd : 1 ≤ d.year ∧ d.year ≤ 9999)
    (fmt : DateFormat env) (tm : Bool) :
    env.convertDateToString (.date32 d.dayNumber) (some fmt.text) tm =
      .ok (some (.ofList (printedText d fmt))) := by
  simp only [convertDateToString, dateOfValue_date32 env hd, applyDateFormat_eq]
  rfl

lemma toDateFormat_eq (fmt : DateFormat env) (cs : List Char) :
    fn.toDateFormat env fmt.text (.ofList cs) = fn.checkYear fmt.text (.ofList cs)
        (env.chrono.parseFromStr cs (toDateFormatText fmt)) := by
  rw [ToDateFunc.toDateFormat, formatMissingChronoFormat_eq, String.append_empty,
    String.toList_ofList, toList_parseToChronoFormat]

lemma unsupported_ne (v fs : String) (n : ℤ) : fn.unsupported v fs ≠ .ok (some n) := by
  rw [ToDateFunc.unsupported]
  split <;> exact fun h => by cases h

lemma withYear_ne {y : ℤ} (hne : y ≠ d.year) : ToDateFunc.withYear d y ≠ some d.dayNumber := by
  intro h
  obtain ⟨dt, hd, hn⟩ := map_eq_some_iff.mp h
  have heq : dt = d := by rw [← ofDayNumber_dayNumber dt, hn, ofDayNumber_dayNumber]
  exact hne ((ofYmd?_eq_some_iff.mp hd).1.symm.trans (congrArg _ heq))

/-! ### Main result -/

/-- **Dates are printed and parsed back** exactly from 1970 on and without a percent sign. -/
theorem roundTrips_iff {tryVarchar : Bool} {toDate : ToDateFunc} {fmt : DateFormat env}
    {d : CivilDate} (hd : 1 ≤ d.year ∧ d.year ≤ 9999) :
    env.RoundTrips tryVarchar toDate fmt d ↔
      1970 ≤ d.year ∧ fmt.separator ≠ '%' ∧ fmt.separator' ≠ '%' := by
  have hr : env.RoundTrips tryVarchar toDate fmt d ↔
      toDate.toDateFormat env fmt.text (.ofList (printedText d fmt)) = .ok (some d.dayNumber) := by
    simp only [RoundTrips, convertDateToString_eq env hd, Except.ok.injEq, some.injEq,
      exists_eq_left', ToDateFunc.toDate, mapM_eq_ok_iff, forall₂_cons, List.Forall₂.nil,
      and_true, ToDateFunc.toDateRow, extractFormatArg_eq]
  rw [hr, toDateFormat_eq]
  by_cases hs : fmt.separator = '%'
  · rw [parseFromStr_lost (.inl ⟨hs, rfl⟩)]
    exact iff_of_false (unsupported_ne toDate _ _ _) fun h => h.2.1 hs
  by_cases hs' : fmt.separator' = '%'
  · rw [parseFromStr_lost (.inr ⟨hs', rfl⟩)]
    exact iff_of_false (unsupported_ne toDate _ _ _) fun h => h.2.2 hs'
  rw [parseFromStr_printedText ⟨by omega, hd.2⟩ hs hs', ToDateFunc.checkYear]
  split_ifs with h70 h100 h1970
  · refine iff_of_false (fun h => withYear_ne (by omega) (Except.ok.inj h)) (by omega)
  · refine iff_of_false (fun h => withYear_ne (by omega) (Except.ok.inj h)) (by omega)
  · exact iff_of_false (unsupported_ne toDate _ _ _) (by omega)
  · exact iff_of_true rfl ⟨by omega, hs, hs'⟩

def dayFirst : DateFormat sampleDateEnv where
  first := .day
  second := .month
  third := .year
  separator := '/'
  separator' := '.'
  first_ne_second := DateField.noConfusion
  first_ne_third := DateField.noConfusion
  second_ne_third := DateField.noConfusion
  punctuation := ⟨rfl, rfl, rfl⟩
  punctuation' := ⟨rfl, rfl, rfl⟩

theorem roundTrips_leapDay :
    sampleDateEnv.RoundTrips false ⟨false⟩ dayFirst ⟨2024, 2, 29, by decide, by decide⟩ := by
  refine (roundTrips_iff ⟨by decide, by decide⟩).mpr ⟨by decide, by decide, by decide⟩

theorem roundTrips_fails :
    ¬ sampleDateEnv.RoundTrips false ⟨false⟩ dayFirst ⟨1969, 7, 20, by decide, by decide⟩ ∧
    sampleDateEnv.convertDateToString (.date32 (-704022)) (some "dd/mm.yyyy") false =
      .ok (some "15/06.0042") ∧
    (ToDateFunc.mk false).toDate sampleDateEnv (some "dd/mm.yyyy") [some "15/06.0042"] =
      .ok [some 26463] ∧
    sampleDateEnv.convertDateToString (.date32 19782) (some "yyyy-mm%dd") false =
      .ok (some "2024-02%d") ∧
    (ToDateFunc.mk false).toDate sampleDateEnv (some "yyyy-mm%dd") [some "2024-02%d"] =
      .error (.unsupportedValueFormat "2024-02%d" "yyyy-mm%dd") := by
  refine ⟨?_, by decide +kernel, by decide +kernel, by decide +kernel, by decide +kernel⟩
  rintro ⟨text, hpr, hp⟩
  have hprn : sampleDateEnv.convertDateToString (.date32 (-165)) (some "dd/mm.yyyy") false =
      .ok (some "20/07.1969") := by decide +kernel
  have hr : (ToDateFunc.mk false).toDate sampleDateEnv (some "dd/mm.yyyy")
      [some "20/07.1969"] =
      .error (.unsupportedValueFormat "20/07.1969" "dd/mm.yyyy") := by decide +kernel
  have ht : dayFirst.text = "dd/mm.yyyy" := by decide +kernel
  rw [ht] at hpr hp
  cases hprn.symm.trans hpr
  rw [hr] at hp
  cases hp

end DateEnv

end Rustice
