import Rustice.RegexpReplace

/-!
# `REGEXP_INSTR`, `REGEXP_SUBSTR` and `SUBSTR`

`REGEXP_INSTR` returns the place of what `REGEXP_SUBSTR` returns, and `SUBSTR` takes a text by its
place.
-/

namespace Rustice

open List Option
open Regex (Captures Span capturesIter)

def i64OfUsize (n : ℕ) : Option ℤ := if n ≤ 9223372036854775807 then some (n : ℤ) else none

def instrPlace (position option : ℕ) (rest : List Char) (mat : Span) : Option ℤ :=
  i64OfUsize (byteLen (rest.take (if option = 0 then mat.start else mat.stop)) + position + 1)

def regexpInstrRow (r : Regex Char) (position occurrence option group : ℕ)
    (row : Option (List Char)) : Except RegexpError (Option ℤ) := do
  let found ← regexp r position row
  return (found.bind fun found => do
    let cap ← found.2[occurrence]?
    let mat ← cap.get group
    instrPlace position option found.1 mat).or (some 0)

def regexpSubstrRow (r : Regex Char) (position occurrence group : ℕ) (row : Option (List Char)) :
    Except RegexpError (Option (List Char)) := do
  let found ← regexp r position row
  return found.bind fun found => do
    let cap ← found.2[occurrence]?
    let mat ← cap.get group
    return (found.1.take mat.stop).drop mat.start

def optionArg : Option RegexpArg → Except RegexpError ℕ
  | none => .ok 0
  | some (.int64 (some value)) =>
    if 0 ≤ value ∧ value ≤ 1 then usizeOfI64 value
    else .error (.wrongArgValue (toString value).toList "Return option must be 0, 1, or NULL")
  | some arg => .error (.unsupportedInputTypeWithPosition arg.dataType 5)

def regexpInstr (env : RegexpEnv) (subject : RegexpSubject) (pattern : RegexpArg)
    (args : List RegexpArg) : Except RegexpError (List (Option ℤ)) := do
  let pattern ← patternArg pattern
  let position ← positionArg 3 args[0]?
  let occurrence ← occurrenceArg 4 args[1]?
  let option ← optionArg args[2]?
  let parameters ← parametersArg 6 args[3]?
  let group ← groupArg parameters 7 args[4]?
  match subject with
  | .other dataType => .error (.unsupportedInputTypeWithPosition dataType 1)
  | .strings column =>
    match env.build (regexpFlags parameters) pattern with
    | none => .error .unsupportedRegex
    | some r => column.toArray.mapM (regexpInstrRow r position occurrence option group)

def regexpSubstr (env : RegexpEnv) (subject : RegexpSubject) (pattern : RegexpArg)
    (args : List RegexpArg) : Except RegexpError (List (Option (List Char))) := do
  let pattern ← patternArg pattern
  let position ← positionArg 3 args[0]?
  let occurrence ← occurrenceArg 4 args[1]?
  let parameters ← parametersArg 5 args[2]?
  let group ← groupArg parameters 6 args[3]?
  match subject with
  | .other dataType => .error (.unsupportedInputTypeWithPosition dataType 1)
  | .strings column =>
    match env.build (regexpFlags parameters) pattern with
    | none => .error .unsupportedRegex
    | some r => column.toArray.mapM (regexpSubstrRow r position occurrence group)

def actualStart (charCount start : ℤ) : ℤ :=
  if start < 0 then charCount + start + 1 else if start = 0 then 1 else start

def computeSubstrString (input : List Char) (start : ℤ) (length : Option ℕ) : List Char :=
  let first := actualStart input.length start
  if input = [] then []
  else if first ≤ 0 ∨ (input.length : ℤ) < first then []
  else
    let startIdx := (first - 1).toNat
    match length with
    | some 0 => []
    | some (n + 1) => (input.take (min (startIdx + (n + 1)) input.length)).drop startIdx
    | none => input.drop startIdx

def substrRow (value : Option (List Char)) (start length : Option ℤ) :
    Option (Option (List Char)) :=
  match value, start, length with
  | some value, some start, some length =>
    if length < 0 then none
    else some (some (computeSubstrString value start (some length.toNat)))
  | _, _, _ => some none

lemma computeSubstrString_eq (i : List Char) (start length : ℕ) :
    computeSubstrString i ((start + 1 : ℕ) : ℤ) (some length) = (i.drop start).take length := by
  have hf : actualStart i.length ((start + 1 : ℕ) : ℤ) = ((start + 1 : ℕ) : ℤ) := by
    rw [actualStart, if_neg (by omega), if_neg (by omega)]
  have hi : (((start + 1 : ℕ) : ℤ) - 1).toNat = start := by omega
  simp only [computeSubstrString, hf, hi]
  split
  case isTrue hnil => rw [hnil, drop_nil, take_nil]
  case isFalse hne =>
    split
    case isTrue ha => rw [drop_eq_nil_of_le (by omega), take_nil]
    case isFalse hw =>
      cases length with
      | zero => rw [take_zero]
      | succ n =>
        dsimp only
        rw [← take_take, take_length, take_drop]

lemma substrRow_eq (s : List Char) (a l : ℕ) :
    substrRow (some s) (some ((a + 1 : ℕ) : ℤ)) (some (l : ℤ)) =
      some (some ((s.drop a).take l)) := by
  simp only [substrRow, if_neg (Int.not_lt.mpr (Int.natCast_nonneg l)), Int.toNat_natCast,
    computeSubstrString_eq]

/-- The arguments other than the subject, which are not refused. -/
structure RegexpQuery where
  env : RegexpEnv
  type : StringType
  pattern : List Char
  parameters : List Char
  position : ℕ
  occurrence : ℕ
  group : ℕ
  replacement : List Char
  regex : Regex Char
  one_le_position : 1 ≤ position
  position_le : position ≤ 9223372036854775807
  one_le_occurrence : 1 ≤ occurrence
  accepts : acceptsParameters parameters = true
  build_eq : env.build (regexpFlags (parameterText (some parameters))) pattern = some regex

namespace RegexpQuery

variable (q : RegexpQuery) (row : Option (List Char)) {β : Type}

def instr (option : ℕ) : Except RegexpError (List (Option ℤ)) :=
  regexpInstr q.env (.strings (.scalar row)) (.string q.type (some q.pattern))
    [.int64 (some (q.position : ℤ)), .int64 (some (q.occurrence : ℤ)), .int64 (some (option : ℤ)),
      .string q.type (some q.parameters), .int64 (some (q.group : ℤ))]

def substr : Except RegexpError (List (Option (List Char))) :=
  regexpSubstr q.env (.strings (.scalar row)) (.string q.type (some q.pattern))
    [.int64 (some (q.position : ℤ)), .int64 (some (q.occurrence : ℤ)),
      .string q.type (some q.parameters), .int64 (some (q.group : ℤ))]

def replace : Except RegexpError (List (Option (List Char))) :=
  regexpReplace q.env (.strings (.scalar row)) (.string q.type (some q.pattern))
    [.string q.type (some q.replacement), .int64 (some (q.position : ℤ)),
      .int64 (some (q.occurrence : ℤ)), .string q.type (some q.parameters)]

/-- `SUBSTR` takes what `REGEXP_SUBSTR` returns from the places of `REGEXP_INSTR`. -/
def PositionsAgree : Prop :=
  (q.instr row 0 ≠ .error .panicked ∧ q.instr row 1 ≠ .error .panicked ∧
    q.substr row ≠ .error .panicked ∧ q.replace row ≠ .error .panicked) ∧
  (∀ text, q.substr row = .ok [some text] →
    ∃ b e, q.instr row 0 = .ok [some b] ∧ q.instr row 1 = .ok [some e] ∧
      substrRow row (some b) (some (e - b)) = some (some text)) ∧
  (row = none → q.instr row 0 = .ok [none] ∧ q.instr row 1 = .ok [none] ∧
    q.substr row = .ok [none] ∧ q.replace row = .ok [none])

lemma parametersArg_eq (p : ℕ) : parametersArg p (some (.string q.type (some q.parameters))) =
    .ok (parameterText (some q.parameters)) := by
  obtain ⟨-, h⟩ | ⟨hr, -⟩ := parametersArg_cases p q.type (some q.parameters)
  · exact h
  · exact absurd (fun value hv => some_inj.mp hv ▸ q.accepts) hr

lemma mapM_scalar (f : Option (List Char) → Except RegexpError β) :
    (Columnar.scalar row).toArray.mapM f = (f row).map fun rs => [rs] := by
  rw [Columnar.toArray, mapM_cons, mapM_nil]
  cases f row <;> rfl

lemma instr_eq {option : ℕ} (hop : option ≤ 1) : q.instr row option =
    (regexpInstrRow q.regex (q.position - 1) (q.occurrence - 1) option q.group row).map
      fun rs => [rs] := by
  have ho : optionArg (some (.int64 (some (option : ℤ)))) = .ok option := by
    rw [optionArg, if_pos (by omega), usizeOfI64, if_pos (by omega), Int.toNat_natCast]
  rw [← mapM_scalar]
  simp only [instr, regexpInstr, patternArg, bind, Except.bind, getElem?_cons_zero,
    getElem?_cons_succ, positionArg_of_pos 3 q.one_le_position,
    occurrenceArg_of_pos 4 q.one_le_occurrence, ho, q.parametersArg_eq, groupArg_eq, q.build_eq]

lemma substr_eq : q.substr row =
    (regexpSubstrRow q.regex (q.position - 1) (q.occurrence - 1) q.group row).map
      fun rs => [rs] := by
  rw [← mapM_scalar]
  simp only [substr, regexpSubstr, patternArg, bind, Except.bind, getElem?_cons_zero,
    getElem?_cons_succ, positionArg_of_pos 3 q.one_le_position,
    occurrenceArg_of_pos 4 q.one_le_occurrence, q.parametersArg_eq, groupArg_eq, q.build_eq]

lemma replace_eq : q.replace row =
    (regexpReplaceRow q.env q.regex (q.position - 1) q.occurrence q.replacement row).map
      fun rs => [rs] := by
  rw [← mapM_scalar]
  exact @regexpReplace_eq_mapM q.env q.pattern q.type (some (.string q.type (some q.parameters)))
    _ q.regex (.scalar row) q.position q.occurrence q.replacement q.one_le_position
    (q.parametersArg_eq 6) q.build_eq

def matchedText (rest : List Char) (mat : Span) : List Char := (rest.take mat.stop).drop mat.start

lemma matchedText_eq {rs : List Char} {m : Span} (h : m.start ≤ m.stop) :
    matchedText rs m = (rs.drop m.start).take (m.stop - m.start) := by
  rw [matchedText, take_drop, Nat.add_sub_cancel' h]

lemma byteLen_take_stop {rs : List Char} {mat : Span} (h : mat.start ≤ mat.stop) :
    byteLen (rs.take mat.stop) = byteLen (rs.take mat.start) + byteLen (matchedText rs mat) := by
  have hs : rs.take mat.stop = rs.take mat.start ++ matchedText rs mat := by
    rw [matchedText_eq h, ← take_add, Nat.add_sub_cancel' h]
  rw [hs, byteLen_append]

/-- The match starts and ends at the same characters as at bytes. -/
def SamePlaces (s rest : List Char) : Prop :=
  ∀ m ∈ (capturesIter rest q.regex)[q.occurrence - 1]?, ∀ mat ∈ m.get q.group,
    (s.drop (byteLen (rest.take mat.start) + (q.position - 1))).take
      (byteLen (matchedText rest mat)) = matchedText rest mat

/-- The match is found at the same place if bytes are counted as characters. -/
def AgreeCondition : Prop :=
  ∃ s before rest, row = some s ∧ s = before ++ rest ∧
    byteLen before = min (q.position - 1) (byteLen s) ∧
    ((capturesIter rest q.regex)[q.occurrence - 1]? = none ∨
      q.position - 1 ≤ byteLen s ∧ q.SamePlaces s rest)

section Row

variable {row} {x : Except RegexpError β}

lemma map_singleton_eq_ok {b : β} : (x.map fun rs => [rs]) = .ok [b] ↔ x = .ok b := by
  cases x with
  | error e =>
    refine iff_of_false (fun h => ?_) (fun h => ?_)
    · cases h
    · cases h
  | ok b' => simp only [Except.map, Except.ok.injEq, cons.injEq, and_true]

lemma map_singleton_eq_error {e : RegexpError} :
    (x.map fun rs => [rs]) = .error e ↔ x = .error e := by
  cases x with
  | error e' => simp only [Except.map, Except.error.injEq]
  | ok b =>
    refine iff_of_false (fun h => ?_) (fun h => ?_)
    · cases h
    · cases h

section Haystack

variable {r : Regex Char} {position p oc g : ℕ} {s l rest rs : List Char}

lemma regexpInstrRow_of_haystack {o : ℕ} (h : haystack p s = .ok rs) :
    regexpInstrRow r p oc o g (some s) = .ok (((capturesIter rs r)[oc]?.bind fun m =>
        (m.get g).bind (instrPlace p o rs)).or (some 0)) := by
  rw [regexpInstrRow, regexp, h]
  rfl

lemma regexpSubstrRow_of_haystack (h : haystack p s = .ok rs) : regexpSubstrRow r p oc g (some s) =
    .ok ((capturesIter rs r)[oc]?.bind fun m =>
      (m.get g).bind fun mt => some (matchedText rs mt)) := by
  rw [regexpSubstrRow, regexp, h]
  rfl

lemma regexpReplaceRow_panics_iff {e : RegexpEnv} {rp : List Char}
    (hs : s = l ++ rest) (hb : byteLen l = min position (byteLen s)) :
    regexpReplaceRow e r position oc rp (some s) = .error .panicked ↔
      (capturesIter rest r)[oc - 1]? ≠ none ∧ byteLen s < position := by
  have h : haystack position s = .ok rest := haystack_eq_ok_iff.mpr ⟨l, hs, hb⟩
  rw [regexpReplaceRow, h]
  cases hm : (capturesIter rest r)[oc - 1]? with
  | none =>
    simp only [bind, Except.bind, hm]
    exact iff_of_false (fun h => by cases h) fun h => h.1 rfl
  | some m =>
    simp only [bind, Except.bind, hm, Captures.get]
    rw [and_iff_right (some_ne_none m)]
    obtain hlt | hle := Nat.lt_or_ge (byteLen s) position
    · have ht : takeBytes (position + byteLen (rest.take m.span.start)) s = none := by
        refine eq_none_iff_forall_ne_some.mpr fun front hf => ?_
        obtain ⟨back, hbac, hln⟩ := takeBytes_eq_some_iff.mp hf
        have hby := congrArg byteLen hbac
        rw [byteLen_append] at hby
        omega
      rw [ht]
      exact iff_of_true rfl hlt
    · have hc : s = (l ++ rest.take m.span.start) ++ rest.drop m.span.start := by
        rw [append_assoc, take_append_drop, hs]
      have hln : byteLen (l ++ rest.take m.span.start) =
          position + byteLen (rest.take m.span.start) := by
        rw [byteLen_append, hb, Nat.min_eq_left hle]
      rw [takeBytes_eq_some_iff.mpr ⟨_, hc, hln⟩, dropBytes_eq_some_iff.mpr ⟨_, hc, hln⟩]
      exact iff_of_false (fun h => by cases h) (Nat.not_lt.mpr hle)

lemma instrPlace_eq (hs : s = l ++ rest) (hb : byteLen l = min p (byteLen s))
    (hsiz : byteLen s < 9223372036854775807) (hp : p < 9223372036854775807) (o : ℕ) (m : Span) :
    instrPlace p o rest m =
      some ((byteLen (rest.take (if o = 0 then m.start else m.stop)) + p + 1 : ℕ) : ℤ) := by
  have hby : byteLen s = byteLen l + byteLen rest := by rw [hs, byteLen_append]
  have ht : ∀ n, byteLen (rest.take n) ≤ byteLen rest := fun n => by
    have hsp := congrArg byteLen (take_append_drop n rest)
    rw [byteLen_append] at hsp
    omega
  have hpl := ht (if o = 0 then m.start else m.stop)
  rw [instrPlace, i64OfUsize, if_pos (by omega)]

end Haystack

lemma not_positionsAgree_none : ¬q.PositionsAgree none := by
  rintro ⟨-, -, hn⟩
  have hi := (hn rfl).1
  rw [q.instr_eq none (Nat.zero_le 1), map_singleton_eq_ok] at hi
  cases hi

section Subject

variable {s l rest rs : List Char}

lemma agreeCondition_iff (hs : s = l ++ rs) (hb : byteLen l = min (q.position - 1) (byteLen s)) :
    q.AgreeCondition (some s) ↔ ((capturesIter rs q.regex)[q.occurrence - 1]? = none ∨
        q.position - 1 ≤ byteLen s ∧ q.SamePlaces s rs) := by
  constructor
  · rintro ⟨s', before', rest', hrw, hs', hb', h⟩
    cases hrw
    have hr := haystack_eq_ok_iff.mpr ⟨before', hs', hb'⟩
    rw [haystack_eq_ok_iff.mpr ⟨l, hs, hb⟩] at hr
    cases hr
    exact h
  · intro h
    exact ⟨s, l, rs, rfl, hs, hb, h⟩

lemma substr_agrees_iff (hs : s = l ++ rest) (hb : byteLen l = min (q.position - 1) (byteLen s))
    (hsiz : byteLen s < 9223372036854775807) : (∀ t, q.substr (some s) = .ok [some t] →
      ∃ b e, q.instr (some s) 0 = .ok [some b] ∧ q.instr (some s) 1 = .ok [some e] ∧
        substrRow (some s) (some b) (some (e - b)) = some (some t)) ↔ q.SamePlaces s rest := by
  have h := haystack_eq_ok_iff.mpr ⟨l, hs, hb⟩
  have hp : q.position - 1 < 9223372036854775807 := by
    have := q.one_le_position
    have := q.position_le
    omega
  rw [SamePlaces, q.substr_eq, q.instr_eq _ (Nat.zero_le 1), q.instr_eq _ le_rfl]
  simp only [map_singleton_eq_ok, regexpSubstrRow_of_haystack h, regexpInstrRow_of_haystack h,
    Except.ok.injEq]
  cases hm : (capturesIter rest q.regex)[q.occurrence - 1]? with
  | none =>
    refine iff_of_true (fun t ht => ?_) fun m hm' => ?_
    · cases ht
    · cases hm'
  | some m =>
    cases hmt : m.get q.group with
    | none =>
      simp only [bind_some, hmt, bind_none]
      refine iff_of_true (fun t ht => ?_) fun m' hm' mat hmt' => ?_
      · cases ht
      · cases hm'
        cases hmt.symm.trans hmt'
    | some mat =>
      have hr := Regex.inRange_of_get (mem_of_getElem? hm) hmt
      simp only [bind_some, hmt, instrPlace_eq hs hb hsiz hp, some_or, some_inj,
        mem_def, forall_eq', if_true, if_neg one_ne_zero, byteLen_take_stop hr.1]
      have hlen : ((byteLen (rest.take mat.start) + byteLen (matchedText rest mat) +
          (q.position - 1) + 1 : ℕ) : ℤ) -
            ((byteLen (rest.take mat.start) + (q.position - 1) + 1 : ℕ) : ℤ) =
          (byteLen (matchedText rest mat) : ℤ) := by
        omega
      constructor
      · rintro ⟨-, -, rfl, rfl, ht⟩
        rwa [hlen, substrRow_eq, some_inj, some_inj] at ht
      · intro ht
        refine ⟨_, _, rfl, rfl, ?_⟩
        rw [hlen, substrRow_eq, ht]

end Subject

/-! ### Main result -/

/-- **The functions agree** exactly if bytes are characters up to the match. -/
theorem positionsAgree_iff (hsize : ∀ s ∈ row, byteLen s < 9223372036854775807) :
    q.PositionsAgree row ↔ q.AgreeCondition row := by
  cases row with
  | none =>
    refine iff_of_false q.not_positionsAgree_none ?_
    rintro ⟨s, before, rest, hr, -⟩
    cases hr
  | some s =>
    obtain hpan | ⟨rest, hres⟩ := haystack_cases (q.position - 1) s
    · refine iff_of_false ?_ ?_
      · rintro ⟨⟨hi, -⟩, -⟩
        refine hi ?_
        rw [q.instr_eq _ (Nat.zero_le 1), map_singleton_eq_error, regexpInstrRow, regexp, hpan]
        rfl
      · rintro ⟨s', before, rest, hr, hs, hb, -⟩
        cases hr
        rw [haystack_eq_ok_iff.mpr ⟨before, hs, hb⟩] at hpan
        cases hpan
    · obtain ⟨before, hs, hb⟩ := haystack_eq_ok_iff.mp hres
      rw [q.agreeCondition_iff hs hb, PositionsAgree, q.substr_agrees_iff hs hb (hsize s rfl)]
      have hi : ∀ o ≤ 1, q.instr (some s) o ≠ .error .panicked := by
        intro o ho
        rw [q.instr_eq _ ho, Ne, map_singleton_eq_error, regexpInstrRow_of_haystack hres]
        exact fun h => by cases h
      have hsub : q.substr (some s) ≠ .error .panicked := by
        rw [q.substr_eq, Ne, map_singleton_eq_error, regexpSubstrRow_of_haystack hres]
        exact fun h => by cases h
      have hrep : q.replace (some s) ≠ .error .panicked ↔
          (capturesIter rest q.regex)[q.occurrence - 1]? = none ∨ q.position - 1 ≤ byteLen s := by
        rw [q.replace_eq, Ne, map_singleton_eq_error, regexpReplaceRow_panics_iff hs hb,
          not_and_or, not_not, not_lt]
      rw [and_iff_right (hi 0 (Nat.zero_le 1)), and_iff_right (hi 1 le_rfl),
        and_iff_right hsub, hrep]
      constructor
      · rintro ⟨hn | hle, hp, -⟩
        · exact .inl hn
        · exact .inr ⟨hle, hp⟩
      · rintro (hn | ⟨hle, hp⟩)
        · refine ⟨.inl hn, fun m hm => ?_, fun hr => ?_⟩
          · cases hn.symm.trans hm
          · cases hr
        · exact ⟨.inr hle, hp, fun hr => by cases hr⟩

lemma agreeCondition_of_single {s : List Char} (ha : ∀ c ∈ s, c.utf8Size = 1)
    (hle : q.position - 1 ≤ s.length) : q.AgreeCondition (some s) := by
  have hlen := byteLen_of_single ha
  have hr : ∀ c ∈ s.drop (q.position - 1), c.utf8Size = 1 :=
    fun c hc => ha c (mem_of_mem_drop hc)
  have hs := (take_append_drop (q.position - 1) s).symm
  refine ⟨s, _, _, rfl, hs, ?_, .inr ⟨by omega, fun m hm mt hmt => ?_⟩⟩
  · rw [byteLen_of_single fun c hc => ha c (mem_of_mem_take hc), length_take, hlen]
  · obtain ⟨hst, hstp⟩ := Regex.inRange_of_get (mem_of_getElem? hm) hmt
    have hb : byteLen (matchedText (s.drop (q.position - 1)) mt) = mt.stop - mt.start := by
      rw [matchedText_eq hst, byteLen_of_single fun c hc =>
        hr c (mem_of_mem_drop (mem_of_mem_take hc)), length_take, length_drop]
      omega
    rw [hb, byteLen_of_single fun c hc => hr c (mem_of_mem_take hc), length_take,
      Nat.min_eq_left (hst.trans hstp), matchedText_eq hst, drop_drop, Nat.add_comm]

end Row

def letterA : Regex Char := .cat (.set (· = 'a')) .empty

lemma two_le_maxI64 : 2 ≤ 9223372036854775807 := by omega

def queryA : RegexpQuery where
  env := asciiRegexp
  type := .utf8
  pattern := ['a']
  parameters := ['c']
  position := 1
  occurrence := 1
  group := 0
  replacement := []
  regex := letterA
  one_le_position := Nat.le_refl 1
  position_le := Nat.le_of_succ_le two_le_maxI64
  one_le_occurrence := Nat.le_refl 1
  accepts := rfl
  build_eq := rfl

def secondByteA : RegexpQuery :=
  { queryA with
    position := 2
    one_le_position := Nat.le_succ 1
    position_le := two_le_maxI64 }

theorem positionsAgree_xab :
    queryA.PositionsAgree (some "xab".toList) ∧
      queryA.substr (some "xab".toList) = .ok [some ['a']] := by
  have hsiz : ∀ s ∈ some "xab".toList, byteLen s < 9223372036854775807 := by
    intro s hs
    rw [← some_inj.mp hs]
    decide
  refine ⟨(queryA.positionsAgree_iff hsiz).mpr ?_, rfl⟩
  exact queryA.agreeCondition_of_single (single_of_all rfl) (Nat.zero_le _)

theorem positionsAgree_fails :
    (secondByteA.instr (some "éab".toList) 0 = .error .panicked ∧
      secondByteA.substr (some "éab".toList) = .error .panicked ∧
      secondByteA.replace (some "éab".toList) = .error .panicked) ∧
    (queryA.substr (some "éab".toList) = .ok [some ['a']] ∧
      queryA.instr (some "éab".toList) 0 = .ok [some 3] ∧
      queryA.instr (some "éab".toList) 1 = .ok [some 4] ∧
      substrRow (some "éab".toList) (some 3) (some 1) = some (some ['b'])) ∧
    queryA.instr none 0 = .ok [some 0] :=
  ⟨⟨rfl, rfl, rfl⟩, ⟨rfl, rfl, rfl, rfl⟩, rfl⟩

end RegexpQuery

end Rustice
