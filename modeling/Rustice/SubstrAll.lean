import Rustice.JsonStrings
import Rustice.RegexpPositions

/-!
# `REGEXP_SUBSTR_ALL`

The text of an array is put together from the matches as they are, each between quotes.
-/

namespace Rustice

open List
open JsonStrings (IsPlain ReadsArray quoted)
open Regex (Captures capturesIter)
open RegexpQuery (matchedText)

def pushMatch (rest : List Char) (group : ℕ) (result : List Char) (cap : Captures) : List Char :=
  match cap.get group with
  | some mat => result ++ '"' :: (rest.take mat.stop).drop mat.start ++ ['"', ',']
  | none => result

def regexpSubstrAllRow (r : Regex Char) (position occurrence group : ℕ)
    (row : Option (List Char)) : Except RegexpError (Option (List Char)) := do
  let found ← regexp r position row
  return found.map fun found =>
    let result := (found.2.drop occurrence).foldl (pushMatch found.1 group) ['[']
    (if 1 < byteLen result then result.dropLast else result) ++ [']']

def regexpSubstrAll (env : RegexpEnv) (subject : RegexpSubject) (pattern : RegexpArg)
    (args : List RegexpArg) : Except RegexpError (List (Option (List Char))) := do
  let pattern ← patternArg pattern
  let position ← positionArg 3 args[0]?
  let occurrence ← occurrenceArg 4 args[1]?
  let parameters ← parametersArg 5 args[2]?
  let group ← groupArg parameters 6 args[3]?
  match subject with
  | .other dataType => .error (.unsupportedInputTypeWithPosition dataType 1)
  | .strings column =>
    match env.build (regexpFlags parameters) pattern with
    | none => .error .unsupportedRegex
    | some r => column.toArray.mapM (regexpSubstrAllRow r position occurrence group)

def pushed (t : List Char) : List Char := '"' :: (t ++ ['"', ','])

lemma foldl_pushMatch (rs : List Char) (g : ℕ) (cs : List Captures) (r : List Char) :
    cs.foldl (pushMatch rs g) r =
      r ++ (cs.filterMap fun c => (c.get g).map (matchedText rs)).flatMap pushed := by
  induction cs generalizing r with
  | nil => rw [foldl_nil, filterMap_nil, flatMap_nil, append_nil]
  | cons c cs ih =>
    rw [foldl_cons, ih, filterMap_cons, pushMatch]
    cases c.get g with
    | none => rfl
    | some mat =>
      simp only [Option.map_some, flatMap_cons, pushed, matchedText, append_assoc, cons_append]

/-- The last comma gives way to the bracket. -/
lemma dropLast_flatMap_pushed : ∀ {ts : List (List Char)}, ts ≠ [] →
    (ts.flatMap pushed).dropLast ++ [']'] = quoted ts
  | [t], _ => by simp [pushed, quoted, dropLast_append_of_ne_nil, dropLast_cons_of_ne_nil]
  | t :: t' :: ts, _ => by
    have hne : (t' :: ts).flatMap pushed ≠ [] := by simp [pushed]
    rw [JsonStrings.quoted_cons_cons, ← dropLast_flatMap_pushed (cons_ne_nil t' ts), flatMap_cons,
      dropLast_append_of_ne_nil hne, pushed]
    simp

lemma closed_eq_quoted (ts : List (List Char)) :
    (if 1 < byteLen ('[' :: ts.flatMap pushed) then ('[' :: ts.flatMap pushed).dropLast
      else '[' :: ts.flatMap pushed) ++ [']'] = '[' :: quoted ts := by
  cases ts with
  | nil => rfl
  | cons t ts =>
    have hne : (t :: ts).flatMap pushed ≠ [] := by simp [pushed]
    have hl : 1 < byteLen ('[' :: (t :: ts).flatMap pushed) := by
      refine Nat.lt_of_lt_of_le ?_ (length_le_byteLen _)
      rw [length_cons]
      exact Nat.succ_lt_succ (length_pos_iff.mpr hne)
    rw [if_pos hl, dropLast_cons_of_ne_nil hne, cons_append,
      dropLast_flatMap_pushed (cons_ne_nil t ts)]

namespace RegexpQuery

variable (q : RegexpQuery) (value v : List Char) (cs : List Captures)

def substrAll (row : Option (List Char)) : Except RegexpError (List (Option (List Char))) :=
  regexpSubstrAll q.env (.strings (.scalar row)) (.string q.type (some q.pattern))
    [.int64 (some 1), .int64 (some (q.occurrence : ℤ)), .string q.type (some q.parameters),
      .int64 (some (q.group : ℤ))]

def groupTexts (caps : List Captures) : List (List Char) :=
  caps.filterMap fun cap => (cap.get q.group).map (matchedText value)

def occurrences : List (List Char) :=
  (q.groupTexts value (capturesIter value q.regex)).drop (q.occurrence - 1)

/-- The result is the text of a JSON array of the group's occurrences. -/
def ReturnsArray : Prop :=
  ∃ text, q.substrAll (some value) = .ok [some text] ∧ ReadsArray text (q.occurrences value)

/-- What the group is in the matches from the given one on. -/
def fromMatch : List (List Char) :=
  q.groupTexts value ((capturesIter value q.regex).drop (q.occurrence - 1))

lemma substrAll_eq :
    q.substrAll (some v) = .ok [some ('[' :: quoted (q.fromMatch v))] := by
  have hp : positionArg 3 (some (.int64 (some 1))) = .ok 0 :=
    positionArg_of_pos 3 (Nat.le_refl 1)
  have hf : ((capturesIter v q.regex).drop (q.occurrence - 1)).foldl
      (pushMatch v q.group) ['['] = '[' :: (q.fromMatch v).flatMap pushed :=
    foldl_pushMatch v q.group _ ['[']
  have hr : regexpSubstrAllRow q.regex 0 (q.occurrence - 1) q.group (some v) =
      .ok (some ('[' :: quoted (q.fromMatch v))) := by
    rw [regexpSubstrAllRow, regexp, haystack_zero, ← closed_eq_quoted, ← hf]
    rfl
  have hmap := mapM_scalar (some v) (regexpSubstrAllRow q.regex 0 (q.occurrence - 1) q.group)
  rw [hr] at hmap
  simp only [substrAll, regexpSubstrAll, patternArg, bind, Except.bind, getElem?_cons_zero,
    getElem?_cons_succ, hp, occurrenceArg_of_pos 4 q.one_le_occurrence, q.parametersArg_eq,
    groupArg_eq, q.build_eq]
  exact hmap

def SkipsOccurrences : Prop :=
  q.fromMatch value = [] ∨
    ∀ cap ∈ (capturesIter value q.regex).take (q.occurrence - 1), (cap.get q.group).isSome

lemma groupTexts_append (caps caps' : List Captures) :
    q.groupTexts v (caps ++ caps') = q.groupTexts v caps ++ q.groupTexts v caps' :=
  filterMap_append

lemma length_groupTexts_le : (q.groupTexts v cs).length ≤ cs.length :=
  length_filterMap_le _ _

lemma length_groupTexts_eq_iff :
    (q.groupTexts v cs).length = cs.length ↔ ∀ c ∈ cs, (c.get q.group).isSome := by
  rw [groupTexts, filterMap_length_eq_length]
  simp only [Option.isSome_map]

lemma occurrences_eq : q.occurrences v = (q.fromMatch v).drop (q.occurrence - 1 -
    (q.groupTexts v ((capturesIter v q.regex).take (q.occurrence - 1))).length) := by
  have hl := (q.length_groupTexts_le v
    ((capturesIter v q.regex).take (q.occurrence - 1))).trans (length_take_le _ _)
  have hs := q.groupTexts_append v ((capturesIter v q.regex).take (q.occurrence - 1))
    ((capturesIter v q.regex).drop (q.occurrence - 1))
  rw [take_append_drop] at hs
  rw [occurrences, hs, drop_append, drop_eq_nil_of_le hl, nil_append, fromMatch]

lemma eq_drop_iff {α : Type} {l : List α} (hne : l ≠ []) (n : ℕ) : l = l.drop n ↔ n = 0 := by
  constructor
  · intro h
    have hpos := length_pos_iff.mpr hne
    have hl := congrArg length h
    rw [length_drop] at hl
    omega
  · rintro rfl
    rw [drop_zero]

lemma fromMatch_eq_occurrences_iff :
    q.fromMatch value = q.occurrences value ↔ q.SkipsOccurrences value := by
  rw [SkipsOccurrences, occurrences_eq]
  by_cases hnil : q.fromMatch value = []
  · rw [hnil, drop_nil]
    exact iff_of_true rfl (.inl rfl)
  · have ht : ((capturesIter value q.regex).take (q.occurrence - 1)).length = q.occurrence - 1 := by
      refine length_take_of_le (Nat.le_of_not_le fun hle => hnil ?_)
      rw [fromMatch, drop_eq_nil_of_le hle]
      rfl
    have hle := q.length_groupTexts_le value ((capturesIter value q.regex).take (q.occurrence - 1))
    rw [eq_drop_iff hnil, or_iff_right hnil, ← q.length_groupTexts_eq_iff value]
    omega

lemma occurrences_suffix : q.occurrences value <:+ q.fromMatch value := by
  rw [occurrences_eq]
  exact drop_suffix _ _

lemma returnsArray_iff_readsArray :
    q.ReturnsArray v ↔ ReadsArray ('[' :: quoted (q.fromMatch v)) (q.occurrences v) := by
  rw [ReturnsArray, substrAll_eq]
  constructor
  · rintro ⟨text, ht, hr⟩
    cases ht
    exact hr
  · exact fun hr => ⟨_, rfl, hr⟩

/-! ### Main result -/

/-- The result is the array of the group's occurrences just when nothing in them has to be escaped
and the group took part in every match that is skipped, unless there is nothing to return. -/
theorem returnsArray_iff :
    q.ReturnsArray value ↔
      q.SkipsOccurrences value ∧ ∀ t ∈ q.fromMatch value, ∀ c ∈ t, IsPlain c := by
  rw [← fromMatch_eq_occurrences_iff, returnsArray_iff_readsArray]
  exact JsonStrings.readsArray_quoted_iff (q.occurrences_suffix value)

def queryQuote : RegexpQuery :=
  { queryA with
    pattern := ['"']
    regex := .cat (.set (· = '"')) .empty
    build_eq := rfl }

theorem not_returnsArray_quote :
    queryQuote.substrAll (some ['"']) = .ok [some ['[', '"', '"', '"', ']']] ∧
      ¬queryQuote.ReturnsArray ['"'] := by
  refine ⟨rfl, fun h => ?_⟩
  have hp := ((JsonStrings.readsArray_quoted_iff (queryQuote.occurrences_suffix ['"'])).mp
    ((queryQuote.returnsArray_iff_readsArray ['"']).mp h)).2
  exact (hp ['"'] (by decide) '"' (by decide)).1 rfl

end RegexpQuery

end Rustice
