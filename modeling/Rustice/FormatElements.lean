import Rustice.ToDate

/-!
# Translating Format Elements

Two functions replace one element after the other in the whole format, where the elements should
be read from the left, the longest first. `translates_of_avoids` says for which formats this is
the same.
-/

namespace Rustice

open List

/-- An element and its specifier. -/
abbrev Element := String × String

/-- An element, or a character between elements. -/
abbrev ElementItem := Element ⊕ Char

inductive LongestMatch (elements : List Element) : List Char → List ElementItem → Prop where
  | nil : LongestMatch elements [] []
  | element {e cs items} : e ∈ elements →
      (∀ e' ∈ elements, e'.1.toList <+: e.1.toList ++ cs → e'.1.length ≤ e.1.length) →
      LongestMatch elements cs items → LongestMatch elements (e.1.toList ++ cs) (.inl e :: items)
  | separator {c cs items} : c.isAlpha = false → LongestMatch elements cs items →
      LongestMatch elements (c :: cs) (.inr c :: items)

/-- The text of an item, of which the elements in `done` are replaced. -/
def ElementItem.text (done : List Element) : ElementItem → List Char
  | .inl e => if done.contains e then e.2.toList else e.1.toList
  | .inr c => [c]

def ElementItem.render : ElementItem → List Char
  | .inl e => e.2.toList
  | .inr c => [c]

open ElementItem

def translate (table : List Element) (cs : List Char) : List Char :=
  table.foldl (fun cs e => replaceText e.1.toList e.2.toList cs) cs

/-! ### Texts in which no occurrence starts -/

/-- An occurrence starts in `xs`, before `ys`. -/
def meets (pat xs ys : List Char) : Bool :=
  xs.tails.any fun s => !s.isEmpty && (pat.isPrefixOf (s ++ ys) || (s ++ ys).isPrefixOf pat)

/-- No occurrence starts in `xs` if it is before the end or a character that is not a letter. -/
def closed (pat xs : List Char) : Bool :=
  xs.tails.all fun s => s.isEmpty || !pat.isPrefixOf s &&
    (!s.isPrefixOf pat || (pat.drop s.length).head?.any Char.isAlpha)

lemma noStart_of_not_meets {pat xs ys : List Char} (h : meets pat xs ys = false) (cs : List Char) :
    NoStart pat xs (ys ++ cs) := by
  induction xs with
  | nil => trivial
  | cons x xs ih =>
    simp only [meets, tails_cons, any_cons, Bool.or_eq_false_iff] at h
    refine ⟨fun hp => ?_, ih h.2⟩
    have hx : (x :: xs) ++ ys <+: x :: (xs ++ (ys ++ cs)) := ⟨cs, by simp⟩
    have hn : ¬ pat <+: (x :: xs) ++ ys ∧ ¬ (x :: xs) ++ ys <+: pat := by
      simpa [← isPrefixOf_iff_prefix] using h.1
    exact ( prefix_or_prefix_of_prefix hp hx).elim hn.1 hn.2

lemma noStart_of_closed {pat xs cs : List Char} (h : closed pat xs = true)
    (hc : cs.head?.any Char.isAlpha = false) : NoStart pat xs cs := by
  induction xs with
  | nil => trivial
  | cons x xs ih =>
    simp only [closed, tails_cons, all_cons, Bool.and_eq_true] at h
    refine ⟨fun hp => ?_, ih h.2⟩
    have hn : ¬ pat <+: x :: xs ∧ (x :: xs <+: pat →
        (pat.drop (x :: xs).length).head?.any Char.isAlpha = true) := by
      simpa [← isPrefixOf_iff_prefix, or_iff_not_imp_left] using h.1
    have hx : x :: xs <+: x :: (xs ++ cs) := ⟨cs, rfl⟩
    obtain hp' | ⟨rs, rfl⟩ := prefix_or_prefix_of_prefix hp hx
    · exact hn.1 hp'
    · have ha := hn.2 ⟨rs, rfl⟩
      rw [drop_left] at ha
      obtain ⟨t, ht⟩ := hp
      have ht' : rs ++ t = cs := by simpa using ht
      cases rs with
      | nil => cases ha
      | cons r rs =>
        rw [← ht'] at hc
        exact Bool.noConfusion (ha.symm.trans hc)

/-! ### Tables -/

/-- A table of replacements, the elements in it, and those that are translated wrong by themselves
or right before another one. -/
structure FormatTable where
  table : List Element
  elements : List Element
  never : List String
  clashes : List Element

namespace FormatTable

variable (F : FormatTable)

/-- No element is one that is translated wrong, or clashes with the element right after it. -/
def Avoids (items : List ElementItem) : Prop :=
  (∀ e, .inl e ∈ items → e.1 ∉ F.never) ∧
    ∀ a b, [.inl a, .inl b] <:+: items → (a.1, b.1) ∉ F.clashes

def longestBefore (e : Element) (cs : List Char) : Bool :=
  F.elements.all fun e' => !e'.1.toList.isPrefixOf (e.1.toList ++ cs) || e'.1.length ≤ e.1.length

def apart (a b : Element) : Bool :=
  F.longestBefore a b.1.toList && !F.clashes.contains (a.1, b.1)

def vocabulary : List Element := F.elements.filter fun e => !F.never.contains e.1

def stageReady (done : List Element) (entry : Element) : Bool :=
  let pat := entry.1.toList
  !done.contains entry && (pat.head?.any Char.isAlpha || pat.take 2 == ['.', 'f']) &&
    F.vocabulary.all fun a =>
      (text done (.inl a)).head?.any (· != 'f') && (a == entry ||
        closed pat (text done (.inl a)) && F.vocabulary.all fun b =>
          !F.apart a b || !meets pat (text done (.inl a)) (text done (.inl b)))

def ready (done : List Element) : List Element → Bool
  | [] => F.vocabulary.all done.contains
  | entry :: todo => F.stageReady done entry && ready (done ++ [entry]) todo

def Good : List ElementItem → Prop
  | [] => True
  | .inr c :: items => c.isAlpha = false ∧ Good items
  | .inl a :: items => a ∈ F.vocabulary ∧ (∀ b rest, items = .inl b :: rest → F.apart a b = true) ∧
      Good items

variable {F} {done d : List Element} {e : Element}
  {items xs : List ElementItem} {cs : List Char}

lemma head?_ne_of_good (h : ∀ a ∈ F.vocabulary, ∃ c, (text d (.inl a)).head? = some c ∧ c ≠ 'f')
    (hg : F.Good xs) : (xs.flatMap (text d)).head? ≠ some 'f' := by
  match xs, hg with
  | [], _ => exact fun h => by cases h
  | .inl a :: rest, ⟨ha, _⟩ =>
    obtain ⟨c, hc, hne⟩ := h a ha
    rw [flatMap_cons, head?_append, hc]
    exact fun h => hne (Option.some.inj h)
  | .inr c :: rest, ⟨hc, _⟩ =>
    intro h
    cases h
    cases hc

lemma replaceText_stage (hr : F.stageReady d e = true) (hg : F.Good xs) :
    replaceText e.1.toList e.2.toList (xs.flatMap (text d)) = xs.flatMap (text (d ++ [e])) := by
  simp only [stageReady, Bool.and_eq_true, Bool.not_eq_true', contains_eq_mem,
    decide_eq_false_iff_not, all_eq_true, Bool.or_eq_true, beq_iff_eq, Option.any_eq_true,
    bne_iff_ne] at hr
  obtain ⟨⟨hd, hp⟩, hv⟩ := hr
  induction xs with
  | nil => rfl
  | cons p xs ih =>
    rw [flatMap_cons, flatMap_cons]
    cases p with
    | inl a =>
      obtain ⟨ha, hn, hg⟩ := hg
      by_cases he : a = e
      · have hne : e.1.toList ≠ [] := by
          intro hnil
          simp [hnil] at hp
        simp only [text, he, contains_eq_mem, decide_eq_true_eq, if_neg hd, mem_append,
          mem_singleton, or_true, if_true]
        rw [replaceText_pat_append hne, ← ih hg]
      · have ht : text (d ++ [e]) (.inl a) = text d (.inl a) := by simp [text, he]
        obtain ⟨hc, hb⟩ := (hv a ha).2.resolve_left he
        rw [ht, replaceText_append_of_noStart ?_, ih hg]
        match xs, hg with
        | [], _ => exact noStart_of_closed hc rfl
        | .inl b :: rest, ⟨hm, _⟩ =>
          rw [flatMap_cons]
          refine noStart_of_not_meets ((hb b hm).resolve_left fun h => ?_) _
          exact Bool.noConfusion (h.symm.trans (hn b rest rfl))
        | .inr c :: rest, ⟨hs, _⟩ => exact noStart_of_closed hc (by simp [text, hs])
    | inr c =>
      have hs : NoStart e.1.toList [c] (xs.flatMap (text d)) := by
        refine ⟨fun hx => ?_, trivial⟩
        match hpat : e.1.toList, hp with
        | [], hp => simp at hp
        | x :: pat, .inl ⟨y, hy, ha⟩ =>
          rw [hpat] at hx
          cases hy
          rw [(cons_prefix_cons.mp hx).1, hg.1] at ha
          cases ha
        | [x], .inr hp => cases hp
        | x :: y :: pat, .inr hp =>
          rw [hpat] at hx
          cases hp
          exact not_prefix_of_head? (head?_ne_of_good (fun a ha => (hv a ha).1) hg.2) hx
      exact (replaceText_append_of_noStart hs).trans (by rw [ih hg.2]; rfl)

lemma translate_of_ready (hr : F.ready done d = true)
    (hg : F.Good xs) : translate d (xs.flatMap (text done)) = xs.flatMap render := by
  induction d generalizing done with
  | nil =>
    have hv : ∀ a ∈ F.vocabulary, a ∈ done := by simpa [ready] using hr
    clear hr
    induction xs with
    | nil => rfl
    | cons p xs ih =>
      cases p with
      | inl a =>
        have ht : text done (.inl a) = render (.inl a) := if_pos (contains_iff_mem.mpr (hv a hg.1))
        exact congrArg₂ (· ++ ·) ht (ih hg.2.2)
      | inr c => exact congrArg (c :: ·) (ih hg.2)
  | cons e d ih =>
    obtain ⟨hs, hr⟩ := Bool.and_eq_true_iff.mp hr
    rw [translate, foldl_cons, replaceText_stage hs hg]
    exact ih hr

lemma longestBefore_iff : F.longestBefore e cs = true ↔
    ∀ e' ∈ F.elements, e'.1.toList <+: e.1.toList ++ cs → e'.1.length ≤ e.1.length := by
  simp [longestBefore, ← isPrefixOf_iff_prefix, or_iff_not_imp_left]

lemma good_of_longestMatch (ha : F.Avoids items) (hm : LongestMatch F.elements cs items) :
    cs = items.flatMap (text []) ∧ F.Good items := by
  induction hm with
  | nil => exact ⟨rfl, trivial⟩
  | @element e cs items he hl _ ih =>
    obtain ⟨rfl, hg⟩ := ih ⟨fun e' h => ha.1 e' (mem_cons_of_mem _ h), fun a b h =>
      ha.2 a b (h.trans (suffix_cons _ _).isInfix)⟩
    refine ⟨rfl, ?_, fun b rest hi => ?_, hg⟩
    · simp only [vocabulary, mem_filter, he, true_and, Bool.not_eq_true', contains_eq_mem,
        decide_eq_false_iff_not]
      exact ha.1 e mem_cons_self
    · subst hi
      simp only [apart, Bool.and_eq_true, longestBefore_iff, Bool.not_eq_true', contains_eq_mem,
        decide_eq_false_iff_not]
      refine ⟨fun e' he' hp => hl e' he' (hp.trans ?_), ha.2 e b ⟨[], rest, rfl⟩⟩
      rw [flatMap_cons, ← append_assoc]
      exact prefix_append _ _
  | separator hc _ ih =>
    obtain ⟨rfl, hg⟩ := ih ⟨fun e' h => ha.1 e' (mem_cons_of_mem _ h), fun a b h =>
      ha.2 a b (h.trans (suffix_cons _ _).isInfix)⟩
    exact ⟨rfl, hc, hg⟩

lemma translate_of_avoids (hr : F.ready [] F.table = true) (ha : F.Avoids items)
    (hm : LongestMatch F.elements cs items) : translate F.table cs = items.flatMap render := by
  obtain ⟨rfl, hg⟩ := good_of_longestMatch ha hm
  exact translate_of_ready hr hg

end FormatTable

open FormatTable

/-! ### The two functions -/

def chronoTable : List Element :=
  [("yyyy", "%Y"), ("yy", "%y"), ("mm", "%m"), ("mon", "%b"), ("month", "%B"), ("dd", "%d"),
    ("dy", "%a"), ("day", "%A"), ("hh24", "%H"), ("hh", "%I"), ("am", "%P"), ("pm", "%P"),
    ("mi", "%M"), ("ss", "%S"), (".ff9", "%.9f"), (".ff6", "%.6f"), (".ff3", "%.3f"),
    (".ff", "%.f"), ("tzh:tzm", "%z"), ("tzhtzm", "%Z"), ("t", "T")]

def chronoFormat : FormatTable where
  table := chronoTable
  elements := chronoTable.filter fun e => !(["hh", ".ff9", ".ff6", ".ff3", ".ff", "t"].contains e.1)
  never := ["month"]
  clashes := ("dy", "mi") :: ["dy", "day"] ×ˢ ["yyyy", "yy"] ++
    ["am", "pm", "tzh:tzm", "tzhtzm"] ×ˢ ["mm", "mon", "month", "mi"]

def timeTable : List Element :=
  [("HH24", "%H"), ("HH12", "%I"), ("MI", "%M"), ("SS", "%S"), ("FF", "%.f"), ("FF0", "%.f"),
    ("FF3", "%.3f"), ("FF6", "%.6f"), ("FF9", "%.9f"), ("AM", "%p"), ("PM", "%p")]

def timeFormat : FormatTable where
  table := timeTable
  elements := timeTable
  never := ["FF0", "FF3", "FF6", "FF9"]
  clashes := []

/-- The format that `parse_time` parses with. -/
def parseTimeFormat (format : String) : String :=
  timeTable.foldl (fun s e => TimestampEnv.replace s e.1 e.2) format

lemma toList_foldl_replace (t : List Element) (s : String) :
    (t.foldl (fun s e => TimestampEnv.replace s e.1 e.2) s).toList = translate t s.toList := by
  induction t generalizing s with
  | nil => rfl
  | cons e t ih => rw [foldl_cons, ih, TimestampEnv.replace, String.toList_ofList]; rfl

/-! ### Main result -/

end Rustice
