import Mathlib.Data.List.Basic

/-!
# String Literals

Between its quotes, a string literal of SQL writes a quote as two quotes.
-/

namespace Rustice

open List Option

def escapeValue (c : Char) : Char :=
  if c = '0' then '\x00' else if c = 'a' then '\x07' else if c = 'b' then '\x08'
  else if c = 'f' then '\x0c' else if c = 'n' then '\n' else if c = 'r' then '\r'
  else if c = 't' then '\t' else if c = 'Z' then '\x1a' else c

def readLiteral (escapes : Bool) : List Char → Option (List Char × List Char)
  | [] => none
  | [c] => if c = '\'' then some ([], []) else none
  | c :: d :: cs =>
    if c = '\'' then
      if d = '\'' then (readLiteral escapes cs).map (Prod.map ('\'' :: ·) id)
      else some ([], d :: cs)
    else if escapes = true ∧ c = '\\' then
      (readLiteral escapes cs).map (Prod.map (escapeValue d :: ·) id)
    else (readLiteral escapes (d :: cs)).map (Prod.map (c :: ·) id)

def IsSpecial (escapes : Bool) (c : Char) : Prop := c = '\'' ∨ escapes = true ∧ c = '\\'

instance (escapes : Bool) (c : Char) : Decidable (IsSpecial escapes c) :=
  inferInstanceAs (Decidable (_ ∨ _))

variable {escapes es : Bool} {c d : Char} {s p cs rest rs v r : List Char} {z : List Char}

lemma readLiteral_cons (h : ¬IsSpecial es c) :
    readLiteral es (c :: cs) = (readLiteral es cs).map (Prod.map (c :: ·) id) := by
  rw [IsSpecial, not_or] at h
  cases cs with
  | nil => exact if_neg h.1
  | cons d ds => rw [readLiteral, if_neg h.1, if_neg h.2]

lemma readLiteral_pair :
    readLiteral es ('\'' :: '\'' :: cs) = (readLiteral es cs).map (Prod.map ('\'' :: ·) id) := by
  rw [readLiteral, if_pos rfl, if_pos rfl]

lemma readLiteral_close (h : cs.head? ≠ some '\'') :
    readLiteral es ('\'' :: cs) = some ([], cs) := by
  cases cs with
  | nil => rw [readLiteral, if_pos rfl]
  | cons d ds =>
    have hd : d ≠ '\'' := fun h' => h (by rw [h']; rfl)
    rw [readLiteral, if_pos rfl, if_neg hd]

lemma readLiteral_escape (h : es = true) : readLiteral es ('\\' :: d :: cs) =
    (readLiteral es cs).map (Prod.map (escapeValue d :: ·) id) := by
  rw [readLiteral, if_neg (by decide), if_pos ⟨h, rfl⟩]

lemma map_cons_eq_some_iff {x : Option (List Char × List Char)} :
    x.map (Prod.map (c :: ·) id) = some (v, r) ↔ ∃ w, x = some (w, r) ∧ v = c :: w := by
  constructor
  · intro h
    obtain ⟨⟨w, r'⟩, hx, heq⟩ := map_eq_some_iff.mp h
    obtain ⟨rfl, rfl⟩ := Prod.mk.inj heq
    exact ⟨w, hx, rfl⟩
  · rintro ⟨w, rfl, rfl⟩
    rfl

lemma isSpecial_of_escapeValue (h : IsSpecial true (escapeValue d)) : IsSpecial true d := by
  simp only [escapeValue] at h
  split_ifs at h with h0 ha hb hf hn hr ht hz
  all_goals first | exact absurd h (by decide) | exact h

lemma escapeValue_eq_backslash (h : escapeValue d = '\\') : d = '\\' := by
  simp only [escapeValue] at h
  split_ifs at h with h0 ha hb hf hn hr ht hz
  all_goals first | exact absurd h (by decide) | exact h

def PlainHead (escapes : Bool) (rest : List Char) : Prop :=
  ∀ c, rest.head? = some c → ¬IsSpecial escapes c

lemma PlainHead.head?_ne (h : PlainHead es rs) : rs.head? ≠ some '\'' := fun hh =>
  h '\'' hh (.inl rfl)

lemma readLiteral_append (hs : ∀ c ∈ s, ¬IsSpecial es c) :
    readLiteral es (s ++ cs) = (readLiteral es cs).map (Prod.map (s ++ ·) id) := by
  induction s with
  | nil => exact Option.map_id'.symm
  | cons c s ih =>
    rw [forall_mem_cons] at hs
    rw [cons_append, readLiteral_cons hs.1, ih hs.2, Option.map_map]
    rfl

lemma readLiteral_plainHead (hr : PlainHead es rs) (hc : IsSpecial es c) :
    readLiteral es rs ≠ some (c :: v, r) := by
  intro h
  cases rs with
  | nil => cases h
  | cons d ds =>
    rw [readLiteral_cons (hr d rfl)] at h
    obtain ⟨w, -, hw⟩ := map_cons_eq_some_iff.mp h
    obtain ⟨rfl, -⟩ := cons.inj hw
    exact hr _ rfl hc

lemma readLiteral_plainHead_append (hr : PlainHead es rs)
    (hz : ∀ c ∈ z, IsSpecial es c) (hc : IsSpecial es c) :
    readLiteral es rs ≠ some (z ++ [c], r) := by
  cases z with
  | nil => exact readLiteral_plainHead hr hc
  | cons d z => exact readLiteral_plainHead hr (hz d (mem_cons_self ..))

lemma readLiteral_special {e : Char} (hd : IsSpecial es d)
    (h : readLiteral es (d :: e :: cs) = some (c :: v, r)) :
    readLiteral es cs = some (v, r) ∧ (IsSpecial es c → IsSpecial es e) ∧ (c = d → e = d) := by
  rcases hd with rfl | ⟨rfl, rfl⟩
  · by_cases he : e = '\''
    · subst he
      rw [readLiteral_pair] at h
      obtain ⟨w, hr, hw⟩ := map_cons_eq_some_iff.mp h
      obtain ⟨rfl, rfl⟩ := cons.inj hw
      exact ⟨hr, id, id⟩
    · rw [readLiteral_close (by simpa using he)] at h
      cases h
  · rw [readLiteral_escape rfl] at h
    obtain ⟨w, hr, hw⟩ := map_cons_eq_some_iff.mp h
    obtain ⟨rfl, rfl⟩ := cons.inj hw
    exact ⟨hr, isSpecial_of_escapeValue, escapeValue_eq_backslash⟩

lemma readLiteral_behind (hr : PlainHead es rs) (hz : ∀ c ∈ z, IsSpecial es c) (hne : z ≠ []) :
    readLiteral es (s ++ '\'' :: rs) ≠ some (z ++ s, r) := by
  induction hn : s.length using Nat.strongRecOn generalizing s z with
  | ind n ih =>
    obtain ⟨c, z, rfl⟩ := exists_cons_of_ne_nil hne
    rw [forall_mem_cons] at hz
    intro h
    match s with
    | [] =>
      rw [nil_append, readLiteral_close hr.head?_ne] at h
      cases h
    | d :: s =>
      by_cases hd : IsSpecial es d
      case neg =>
        rw [cons_append, readLiteral_cons hd] at h
        obtain ⟨w, -, hw⟩ := map_cons_eq_some_iff.mp h
        obtain ⟨rfl, -⟩ := cons.inj hw
        exact hd hz.1
      case pos =>
        match s with
        | [] => exact readLiteral_plainHead_append hr hz.2 hd (readLiteral_special hd h).1
        | e :: s =>
          obtain ⟨hrea, he, -⟩ := readLiteral_special hd h
          refine ih s.length ?_ (z := z ++ [d, e]) (fun c hc => ?_) (by simp) rfl ?_
          · rw [← hn, length_cons, length_cons]
            omega
          · rcases mem_append.mp hc with hc | hc
            · exact hz.2 c hc
            · rcases mem_pair.mp hc with rfl | rfl
              exacts [hd, he hz.1]
          · rw [append_assoc]
            exact hrea

lemma readLiteral_plainHead_ne_nil (hr : PlainHead es rs) : readLiteral es rs ≠ some ([], r) := by
  intro h
  cases rs with
  | nil => cases h
  | cons d ds =>
    rw [readLiteral_cons (hr d rfl)] at h
    obtain ⟨w, -, hw⟩ := map_cons_eq_some_iff.mp h
    cases hw

lemma readLiteral_self (hs : ∀ c ∈ s, ¬IsSpecial es c) (hr : PlainHead es rs) :
    readLiteral es (s ++ '\'' :: rs) = some (s, rs) := by
  rw [readLiteral_append hs, readLiteral_close hr.head?_ne, map_some, Prod.map_apply, append_nil]
  rfl

lemma readLiteral_eq_self_iff (hre : PlainHead es rs) :
    (∃ r, readLiteral es (s ++ '\'' :: rs) = some (s, r)) ↔ ∀ c ∈ s, ¬IsSpecial es c := by
  refine ⟨?_, fun hs => ⟨rs, readLiteral_self hs hre⟩⟩
  induction s with
  | nil => simp
  | cons d s ih =>
    rintro ⟨r, h⟩
    by_cases hd : IsSpecial es d
    case neg =>
      rw [cons_append, readLiteral_cons hd] at h
      obtain ⟨w, hr, hw⟩ := map_cons_eq_some_iff.mp h
      obtain rfl := (cons.inj hw).2
      exact forall_mem_cons.mpr ⟨hd, ih ⟨r, hr⟩⟩
    case pos =>
      -- the first special character puts the reader behind
      have hb : ∀ s', readLiteral es (s' ++ '\'' :: rs) ≠ some ([d] ++ s', r) :=
        fun s' => readLiteral_behind hre (by simpa using hd) (by simp)
      match s with
      | [] => exact absurd (readLiteral_special hd h).1 (readLiteral_plainHead_ne_nil hre)
      | e :: s =>
        obtain ⟨hr, -, he⟩ := readLiteral_special hd h
        exact absurd (he rfl ▸ hr) (hb s)

def doubled (p : List Char) : List Char :=
  p.flatMap fun c => if c = '\'' then ['\'', '\''] else [c]

lemma doubled_cons_quote : doubled ('\'' :: p) = '\'' :: '\'' :: doubled p := rfl

lemma doubled_cons (h : c ≠ '\'') : doubled (c :: p) = c :: doubled p := by
  rw [doubled, flatMap_cons, if_neg h]
  rfl

lemma readLiteral_doubled (h : es = true → '\\' ∉ p) :
    readLiteral es (doubled p ++ cs) = (readLiteral es cs).map (Prod.map (p ++ ·) id) := by
  induction p with
  | nil => exact Option.map_id'.symm
  | cons c p ih =>
    have hp : es = true → '\\' ∉ p := fun he hm =>
      h he (mem_cons_of_mem _ hm)
    by_cases hc : c = '\''
    · subst hc
      rw [doubled_cons_quote, cons_append, cons_append, readLiteral_pair, ih hp, Option.map_map]
      rfl
    · have hpl : ¬IsSpecial es c := by
        rintro (rfl | ⟨he, rfl⟩)
        · exact hc rfl
        · exact h he (mem_cons_self ..)
      rw [doubled_cons hc, cons_append, readLiteral_cons hpl, ih hp, Option.map_map]
      rfl

lemma readLiteral_quote_doubled_length (hx : c ≠ '\'')
    (h : readLiteral es ('\'' :: (doubled p ++ c :: cs)) = some (v, r)) : v.length ≤ p.length := by
  induction p generalizing v with
  | nil =>
    rw [readLiteral_close (by simpa [doubled] using hx)] at h
    obtain ⟨rfl, -⟩ := Prod.mk.inj (some.inj h)
    exact Nat.le_refl 0
  | cons d p ih =>
    by_cases hd : d = '\''
    · subst hd
      rw [doubled_cons_quote, cons_append, readLiteral_pair] at h
      obtain ⟨w, hr, rfl⟩ := map_cons_eq_some_iff.mp h
      exact Nat.succ_le_succ (ih hr)
    · rw [doubled_cons hd, cons_append, readLiteral_close (by simpa using hd)] at h
      obtain ⟨rfl, -⟩ := Prod.mk.inj (some.inj h)
      exact Nat.zero_le _

lemma readLiteral_doubled_length (hes : es = true) (hc : ¬IsSpecial es c)
    (hv : escapeValue c = c) (hres : PlainHead es rs)
    (h : readLiteral es (doubled p ++ c :: '\'' :: rs) = some (v, r)) :
    (v.getLast? = some c ∧ v.length ≤ p.length + 1 ∧ ('\\' ∈ p → v.length ≤ p.length)) ∨
      v.length < p.length := by
  have hq : c ≠ '\'' := fun h => hc (.inl h)
  have hcl : readLiteral es ('\'' :: rs) = some ([], rs) :=
    readLiteral_close hres.head?_ne
  induction hn : p.length using Nat.strongRecOn generalizing p v with
  | ind n ih =>
    -- a step that reads one character of the text
    have hs : ∀ {d e : Char} {p' w : List Char}, p = d :: p' → d ≠ '\\' →
        readLiteral es (doubled p' ++ c :: '\'' :: rs) = some (w, r) → v = e :: w →
        (v.getLast? = some c ∧ v.length ≤ n + 1 ∧ ('\\' ∈ p → v.length ≤ n)) ∨ v.length < n := by
      rintro d e p' w rfl hd hr rfl
      rw [length_cons] at hn
      rcases ih p'.length (by omega) hr rfl with ⟨hla, hl, hm⟩ | hl
      · refine .inl ⟨?_, by rw [length_cons]; omega, fun h => ?_⟩
        · rw [getLast?_cons, hla]
          rfl
        · have := hm ((mem_cons.mp h).resolve_left hd.symm)
          rw [length_cons]
          omega
      · right
        rw [length_cons]
        omega
    match p with
    | [] =>
      rw [doubled, flatMap_nil, nil_append, readLiteral_cons hc, hcl] at h
      obtain ⟨rfl, -⟩ := Prod.mk.inj (some.inj h)
      exact .inl ⟨rfl, by simp, by simp⟩
    | d :: p =>
      by_cases hd : d = '\''
      · subst hd
        rw [doubled_cons_quote, cons_append, cons_append, readLiteral_pair] at h
        obtain ⟨w, hr, rfl⟩ := map_cons_eq_some_iff.mp h
        exact hs rfl (by decide) hr rfl
      by_cases hd' : d = '\\'
      · subst hd'
        rw [doubled_cons hd] at h
        match p with
        | [] =>
          rw [doubled, flatMap_nil, singleton_append, readLiteral_escape hes, hcl, hv] at h
          obtain ⟨rfl, -⟩ := Prod.mk.inj (some.inj h)
          exact .inl ⟨rfl, by simp, by simp [← hn]⟩
        | e :: p =>
          rw [length_cons, length_cons] at hn
          by_cases he : e = '\''
          · subst he
            rw [doubled_cons_quote, cons_append, cons_append, readLiteral_escape hes] at h
            obtain ⟨w, hr, rfl⟩ := map_cons_eq_some_iff.mp h
            have := readLiteral_quote_doubled_length hq hr
            right
            rw [length_cons]
            omega
          · rw [doubled_cons he, cons_append, cons_append, readLiteral_escape hes] at h
            obtain ⟨w, hr, rfl⟩ := map_cons_eq_some_iff.mp h
            rw [length_cons]
            rcases ih p.length (by omega) hr rfl with ⟨hla, hl, -⟩ | hl
            · refine .inl ⟨?_, by omega, fun _ => by omega⟩
              rw [getLast?_cons, hla]
              rfl
            · exact .inr (by omega)
      · rw [doubled_cons hd, cons_append, readLiteral_cons (fun h => h.elim hd (hd' ·.2))]
          at h
        obtain ⟨w, hr, rfl⟩ := map_cons_eq_some_iff.mp h
        exact hs rfl hd' hr rfl

def readFields (escapes : Bool) : List (List Char) → List Char → Option (List (List Char))
  | [], cs => if cs = [] then some [] else none
  | header :: headers, cs => do
    let cs ← cs.dropPrefix? header
    let (value, cs) ← readLiteral escapes cs
    let values ← readFields escapes headers cs
    some (value :: values)

lemma readFields_cons {hes vals : List (List Char)} :
    readFields es (z :: hes) (z ++ cs) = some vals ↔
      ∃ v r vs, readLiteral es cs = some (v, r) ∧ readFields es hes r = some vs ∧
        vals = v :: vs := by
  have hd : (z ++ cs).dropPrefix? z = some cs :=
    dropPrefix?_append_of_beq cs BEq.rfl
  simp only [readFields, hd, bind_eq_bind, bind_some, bind_eq_some_iff, Prod.exists, some.injEq]
  constructor
  · rintro ⟨v, r, hr, vs, hvs, rfl⟩
    exact ⟨v, r, vs, hr, hvs, rfl⟩
  · rintro ⟨v, r, vs, hr, hvs, rfl⟩
    exact ⟨v, r, hr, vs, hvs, rfl⟩

lemma length_of_readFields {hea vls : List (List Char)}
    (h : readFields es hea cs = some vls) : vls.length = hea.length := by
  induction hea generalizing cs vls with
  | nil =>
    rw [readFields] at h
    split at h
    · obtain rfl := some.inj h
      rfl
    · cases h
  | cons header hea ih =>
    simp only [readFields, bind_eq_bind, bind_eq_some_iff, Prod.exists, some.injEq] at h
    obtain ⟨-, -, v, r, -, vs, hvs, rfl⟩ := h
    rw [length_cons, length_cons, ih hvs]

end Rustice
