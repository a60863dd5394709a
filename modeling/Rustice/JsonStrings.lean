import Mathlib.Algebra.Ring.Nat

/-!
# Arrays of strings as JSON text
-/

namespace Rustice.JsonStrings

open List

def IsPlain (c : Char) : Prop := c ≠ '"' ∧ c ≠ '\\' ∧ 32 ≤ c.toNat

instance : DecidablePred IsPlain := fun c =>
  inferInstanceAs (Decidable (c ≠ '"' ∧ c ≠ '\\' ∧ 32 ≤ c.toNat))

def simpleEscape : Char → Option Char
  | '"' => '"'
  | '\\' => '\\'
  | '/' => '/'
  | 'b' => Char.ofNat 8
  | 'f' => Char.ofNat 12
  | 'n' => '\n'
  | 'r' => '\r'
  | 't' => '\t'
  | _ => none

def hexDigit (c : Char) : Option ℕ :=
  if c.isDigit then some (c.toNat - 48)
  else if 'a' ≤ c ∧ c ≤ 'f' then some (c.toNat - 87)
  else if 'A' ≤ c ∧ c ≤ 'F' then some (c.toNat - 55)
  else none

def codeUnit (digits : List Char) : Option ℕ :=
  digits.foldlM (fun unit c => (hexDigit c).map (16 * unit + ·)) 0

/-- A character as one code unit of UTF-16 or as a pair of surrogates. -/
def unicodeEscape : List Char → Option Char
  | [a, b, c, d] => do
    let unit ← codeUnit [a, b, c, d]
    if 0xD800 ≤ unit ∧ unit < 0xE000 then none else some (Char.ofNat unit)
  | [a, b, c, d, '\\', 'u', e, f, g, h] => do
    let high ← codeUnit [a, b, c, d]
    let low ← codeUnit [e, f, g, h]
    if (0xD800 ≤ high ∧ high < 0xDC00) ∧ 0xDC00 ≤ low ∧ low < 0xE000 then
      some (Char.ofNat (0x10000 + 0x400 * (high - 0xD800) + (low - 0xDC00)))
    else none
  | _ => none

inductive Escapes : List Char → Char → Prop
  | simple {e c : Char} : simpleEscape e = some c → Escapes ['\\', e] c
  | unicode {digits : List Char} {c : Char} :
    unicodeEscape digits = some c → Escapes ('\\' :: 'u' :: digits) c

/-- After an opening quote: the characters up to the closing one, and the rest. -/
inductive ReadsString : List Char → List Char → List Char → Prop
  | close {rest : List Char} : ReadsString ('"' :: rest) [] rest
  | plain {c : Char} {raw s rest : List Char} :
    IsPlain c → ReadsString raw s rest → ReadsString (c :: raw) (c :: s) rest
  | escape {e raw s rest : List Char} {c : Char} :
    Escapes e c → ReadsString raw s rest → ReadsString (e ++ raw) (c :: s) rest

def skipSpace : List Char → List Char := dropWhile (· ∈ [' ', '\t', '\n', '\r'])

inductive ReadsItems : List Char → List (List Char) → Prop
  | last {text raw s rest tail : List Char} :
    skipSpace text = '"' :: raw → ReadsString raw s rest → skipSpace rest = ']' :: tail →
      skipSpace tail = [] → ReadsItems text [s]
  | more {text raw s rest tail : List Char} {items : List (List Char)} :
    skipSpace text = '"' :: raw → ReadsString raw s rest → skipSpace rest = ',' :: tail →
      ReadsItems tail items → ReadsItems text (s :: items)

inductive ReadsArray : List Char → List (List Char) → Prop
  | empty {text raw tail : List Char} :
    skipSpace text = '[' :: raw → skipSpace raw = ']' :: tail → skipSpace tail = [] →
      ReadsArray text []
  | items {text raw : List Char} {items : List (List Char)} :
    skipSpace text = '[' :: raw → ReadsItems raw items → ReadsArray text items

variable {raw s rest r e t text : List Char} {c : Char} {items xs ts : List (List Char)}
  {ds : List Char} (l : List Char)

lemma Escapes.two_le_length (h : Escapes e c) : 2 ≤ e.length := by
  cases h with
  | simple => exact Nat.le_refl 2
  | unicode => exact Nat.le_add_left 2 _

lemma hexDigit_ne_quote {n : ℕ} (h : hexDigit c = some n) : c ≠ '"' := by
  rintro rfl
  rw [show hexDigit '"' = none by decide] at h
  cases h

lemma count_quote_of_codeUnit {i u : ℕ}
    (h : ds.foldlM (fun u c => (hexDigit c).map (16 * u + ·)) i = some u) : ds.count '"' = 0 := by
  induction ds generalizing i with
  | nil => rfl
  | cons c ds ih =>
    rw [foldlM_cons, Option.bind_eq_bind, Option.bind_eq_some_iff] at h
    obtain ⟨next, hnex, h⟩ := h
    obtain ⟨n, hn, -⟩ := Option.map_eq_some_iff.mp hnex
    rw [count_cons_of_ne (hexDigit_ne_quote hn), ih h]

lemma count_quote_of_unicodeEscape (h : unicodeEscape ds = some c) : ds.count '"' = 0 := by
  unfold unicodeEscape at h
  split at h
  · obtain ⟨unit, hu, -⟩ := Option.bind_eq_some_iff.mp h
    exact count_quote_of_codeUnit hu
  · rename_i a b c d e f g h'
    obtain ⟨high, hh, h⟩ := Option.bind_eq_some_iff.mp h
    obtain ⟨low, hl, -⟩ := Option.bind_eq_some_iff.mp h
    have hs : [a, b, c, d, '\\', 'u', e, f, g, h'] =
        [a, b, c, d] ++ (['\\', 'u'] ++ [e, f, g, h']) := rfl
    rw [hs, count_append, count_append, count_quote_of_codeUnit hh, count_quote_of_codeUnit hl]
    rfl
  · cases h

lemma Escapes.count_quote_le (h : Escapes e c) : e.count '"' ≤ [c].count '"' := by
  cases h with
  | @simple e c h =>
    by_cases he : e = '"'
    · subst he
      obtain rfl := Option.some.inj h
      decide
    · rw [count_cons_of_ne (by decide), count_cons_of_ne he]
      exact Nat.zero_le _
  | unicode h =>
    rw [count_cons_of_ne (by decide), count_cons_of_ne (by decide), count_quote_of_unicodeEscape h]
    exact Nat.zero_le _

lemma ReadsString.length_le (h : ReadsString raw s r) : s.length + 1 + r.length ≤ raw.length := by
  induction h with
  | close => simp only [length_nil, length_cons]; omega
  | plain _ _ ih => simp only [length_cons]; omega
  | escape he _ ih =>
    have := he.two_le_length
    simp only [length_cons, length_append]
    omega

lemma ReadsString.isPlain (h : ReadsString raw s r)
    (hl : raw.length ≤ s.length + 1 + r.length) : ∀ c ∈ s, IsPlain c := by
  induction h with
  | close => exact forall_mem_nil _
  | plain hc _ ih =>
    simp only [length_cons] at hl
    exact forall_mem_cons.mpr ⟨hc, ih (by omega)⟩
  | escape he hs _ =>
    have hle := hs.length_le
    have := he.two_le_length
    simp only [length_cons, length_append] at hl
    omega

lemma ReadsString.count_quote_le (h : ReadsString raw s r) :
    raw.count '"' ≤ s.count '"' + 1 + r.count '"' := by
  induction h with
  | close =>
    rw [count_cons_self, count_nil]
    omega
  | @plain c raw s r hc _ ih => rwa [count_cons_of_ne hc.1, count_cons_of_ne hc.1]
  | @escape e raw s r c he _ ih =>
    have hcou := he.count_quote_le
    rw [count_append, ← singleton_append, count_append]
    omega

lemma readsString_of_isPlain (h : ∀ c ∈ t, IsPlain c) : ReadsString (t ++ '"' :: rest) t rest := by
  induction t with
  | nil => exact .close
  | cons c t ih =>
    rw [forall_mem_cons] at h
    exact .plain h.1 (ih h.2)

lemma length_skipSpace_le : (skipSpace l).length ≤ l.length :=
  (dropWhile_suffix _).length_le

lemma count_quote_skipSpace : (skipSpace l).count '"' = l.count '"' := by
  induction l with
  | nil => rfl
  | cons c l ih =>
    rw [skipSpace, dropWhile_cons]
    split
    · next hs =>
      rw [count_cons_of_ne (by rintro rfl; exact absurd hs (by decide))]
      exact ih
    · rfl

def itemsLength (items : List (List Char)) : ℕ := (items.map fun s => s.length + 3).sum

def itemsQuotes (items : List (List Char)) : ℕ := (items.map fun s => s.count '"' + 2).sum

lemma length_of_skipSpace {l tl : List Char} (h : skipSpace l = c :: tl) :
    tl.length + 1 ≤ l.length := by
  rw [← length_cons, ← h]
  exact length_skipSpace_le l

lemma count_of_skipSpace {l tail : List Char} (h : skipSpace l = c :: tail) :
    l.count '"' = (c :: tail).count '"' := by
  rw [← h, count_quote_skipSpace]

lemma ReadsItems.length_le (h : ReadsItems text xs) : itemsLength xs ≤ text.length := by
  induction h with
  | last ht hs hr _ =>
    have := length_of_skipSpace ht
    have := hs.length_le
    have := length_of_skipSpace hr
    rw [itemsLength, map_singleton, sum_singleton]
    omega
  | more ht hs hr _ ih =>
    have := length_of_skipSpace ht
    have := hs.length_le
    have := length_of_skipSpace hr
    rw [itemsLength] at ih ⊢
    rw [map_cons, sum_cons]
    omega

lemma ReadsItems.isPlain (h : ReadsItems text xs) (hl : text.length ≤ itemsLength xs) :
    ∀ s ∈ xs, ∀ c ∈ s, IsPlain c := by
  induction h with
  | last ht hs hr _ =>
    have := length_of_skipSpace ht
    have := length_of_skipSpace hr
    rw [itemsLength, map_singleton, sum_singleton] at hl
    exact forall_mem_singleton.mpr (hs.isPlain (by omega))
  | more ht hs hr hi ih =>
    have := length_of_skipSpace ht
    have := hs.length_le
    have := length_of_skipSpace hr
    have hle := hi.length_le
    rw [itemsLength] at hle ih
    rw [itemsLength, map_cons, sum_cons] at hl
    exact forall_mem_cons.mpr ⟨hs.isPlain (by omega), ih (by omega)⟩

lemma ReadsItems.count_quote_le (h : ReadsItems text items) :
    text.count '"' ≤ itemsQuotes items := by
  induction h with
  | @last text raw s r tl ht hs hr htai =>
    have hc := hs.count_quote_le
    rw [count_of_skipSpace hr, count_cons_of_ne (by decide), ← count_quote_skipSpace tl,
      htai, count_nil] at hc
    rw [itemsQuotes, map_singleton, sum_singleton, count_of_skipSpace ht, count_cons_self]
    omega
  | more ht hs hr _ ih =>
    have hc := hs.count_quote_le
    rw [count_of_skipSpace hr, count_cons_of_ne (by decide)] at hc
    rw [itemsQuotes] at ih ⊢
    rw [map_cons, sum_cons, count_of_skipSpace ht, count_cons_self]
    omega

def quoted : List (List Char) → List Char
  | [] => [']']
  | [t] => '"' :: (t ++ ['"', ']'])
  | t :: ts => '"' :: (t ++ '"' :: ',' :: quoted ts)

lemma quoted_cons_cons (t t' : List Char) (ts : List (List Char)) :
    quoted (t :: t' :: ts) = '"' :: (t ++ '"' :: ',' :: quoted (t' :: ts)) :=
  quoted.eq_3 t (t' :: ts) (cons_ne_nil t' ts)

lemma length_quoted : ∀ {ts : List (List Char)}, ts ≠ [] → (quoted ts).length = itemsLength ts
  | [t], _ => by simp [quoted, itemsLength]
  | t :: t' :: ts, _ => by
    have ih := length_quoted (cons_ne_nil t' ts)
    rw [itemsLength] at ih ⊢
    rw [map_cons, sum_cons, ← ih, quoted_cons_cons]
    simp only [length_cons, length_append]
    omega

lemma count_quote_quoted : ∀ ts : List (List Char), (quoted ts).count '"' = itemsQuotes ts
  | [] => rfl
  | [t] => by simp [quoted, itemsQuotes]
  | t :: t' :: ts => by
    have ih := count_quote_quoted (t' :: ts)
    rw [itemsQuotes] at ih ⊢
    rw [map_cons, sum_cons, ← ih, quoted_cons_cons, count_cons_self, count_append, count_cons_self,
      count_cons_of_ne (by decide)]
    omega

lemma readsItems_quoted : ∀ {ts : List (List Char)}, ts ≠ [] →
  (∀ t ∈ ts, ∀ c ∈ t, IsPlain c) → ReadsItems (quoted ts) ts
  | [t], _, h => .last rfl (readsString_of_isPlain (forall_mem_singleton.mp h)) rfl rfl
  | t :: t' :: ts, _, h => by
    rw [forall_mem_cons] at h
    rw [quoted_cons_cons]
    exact .more rfl (readsString_of_isPlain h.1) rfl (readsItems_quoted (cons_ne_nil t' ts) h.2)

lemma itemsQuotes_lt_of_ne {w built : List (List Char)} (h : w <:+ built)
    (hne : built ≠ w) : itemsQuotes w < itemsQuotes built := by
  obtain ⟨sk, rfl⟩ := h
  cases sk with
  | nil => exact absurd rfl hne
  | cons t sk =>
    simp only [itemsQuotes, cons_append, map_cons, map_append, sum_cons, sum_append]
    omega

lemma ReadsArray.count_quote_le (h : ReadsArray text items) :
    text.count '"' ≤ itemsQuotes items := by
  cases h with
  | empty ht hr htai =>
    rw [count_of_skipSpace ht, count_cons_of_ne (by decide), count_of_skipSpace hr,
      count_cons_of_ne (by decide), ← count_quote_skipSpace, htai]
    exact Nat.zero_le _
  | items ht hi =>
    rw [count_of_skipSpace ht, count_cons_of_ne (by decide)]
    exact hi.count_quote_le

lemma readsArray_quoted_iff {wanted b : List (List Char)} (h : wanted <:+ b) :
    ReadsArray ('[' :: quoted b) wanted ↔ b = wanted ∧ ∀ t ∈ b, ∀ c ∈ t, IsPlain c := by
  constructor
  · intro hr
    have hc := hr.count_quote_le
    rw [count_cons_of_ne (by decide), count_quote_quoted] at hc
    have heq : b = wanted :=
      by_contra fun hne => absurd hc (Nat.not_le.mpr (itemsQuotes_lt_of_ne h hne))
    subst heq
    refine ⟨rfl, ?_⟩
    cases hr with
    | empty => exact forall_mem_nil _
    | @items raw _ ht hi =>
      obtain rfl : quoted b = raw := (cons.inj ht).2
      refine hi.isPlain (Nat.le_of_eq (length_quoted ?_))
      rintro rfl
      cases hi
  · rintro ⟨rfl, hp⟩
    cases b with
    | nil => exact .empty rfl rfl rfl
    | cons t ts => exact .items rfl (readsItems_quoted (cons_ne_nil t ts) hp)

end Rustice.JsonStrings
