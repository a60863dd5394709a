import Rustice.Regexp

/-!
# `REGEXP_LIKE`

`REGEXP_LIKE` should tell whether a pattern matches a subject as a whole.
-/

namespace Rustice

open Regex (Matches seq capturesIter)

def regexpLikeRow (r : Regex Char) (row : Option (List Char)) :
    Except RegexpError (Option Bool) := do
  let found ← regexp r 0 row
  return found.map fun found => found.2.any fun m => (m.get 0).isSome

def regexpLike (env : RegexpEnv) (subject : RegexpSubject) (pattern : RegexpArg)
    (parameters : Option RegexpArg) : Except RegexpError (List (Option Bool)) := do
  let pattern ← patternArg pattern
  let parameters ← parametersArg 5 parameters
  match subject with
  | .other dataType => .error (.unsupportedInputTypeWithPosition dataType 1)
  | .strings column =>
    match env.build (regexpFlags parameters) ('^' :: pattern ++ ['$']) with
    | none => .error .unsupportedRegex
    | some r => column.toArray.mapM (regexpLikeRow r)

/-- Where the `$` after the pattern holds: everywhere, if it is in a comment. -/
def RegexLexer.reachesEnd (lexer : RegexLexer) (flags : RegexFlags) (text s : List Char) (j : ℕ) :
    Bool :=
  (lexer.dollar flags text).all (· s j)

/-- The first branch matches a beginning, a later one any part, or the last one an end. -/
def ParsedRegex.PartMatch (parsed : ParsedRegex) (reaches : ℕ → Bool) (s : List Char) : Prop :=
  match parsed.finished with
  | [] => ∃ j, Matches s (seq parsed.last) 0 j ∧ reaches j = true
  | first :: m =>
    (∃ j, Matches s (seq first) 0 j) ∨ (∃ b ∈ m, ∃ i j, i ≤ s.length ∧ Matches s (seq b) i j) ∨
      ∃ i j, i ≤ s.length ∧ Matches s (seq parsed.last) i j ∧ reaches j = true

open Regex

section Looks

variable {s : List Char} {rs : List (Regex Char)} {holds : List Char → ℕ → Bool} {i j : ℕ}

lemma matches_seq_look_cons :
    Matches s (seq (.look holds :: rs)) i j ↔ holds s i = true ∧ Matches s (seq rs) i j := by
  simp only [seq, Matches]
  constructor
  · rintro ⟨k, ⟨hl, rfl⟩, hr⟩
    exact ⟨hl, hr⟩
  · rintro ⟨hl, hr⟩
    exact ⟨i, ⟨hl, rfl⟩, hr⟩

lemma matches_seq_append_look {dollar : Option (List Char → ℕ → Bool)} :
    Matches s (seq (rs ++ (dollar.map Regex.look).toList)) i j ↔
      Matches s (seq rs) i j ∧ dollar.all (· s j) = true := by
  cases dollar with
  | none => simp
  | some holds =>
    show Matches s (seq (rs ++ [.look holds])) i j ↔ _ ∧ holds s j = true
    rw [matches_seq_append]
    constructor
    · rintro ⟨k, hr, hl⟩
      obtain ⟨hh, rfl⟩ := matches_seq_singleton.mp hl
      exact ⟨hr, hh⟩
    · rintro ⟨hr, hl⟩
      exact ⟨j, hr, matches_seq_singleton.mpr ⟨hl, rfl⟩⟩

end Looks

section Whole

variable (lexer lx : RegexLexer) {fs : RegexFlags} {p s : List Char}

lemma ParsedRegex.exists_match_anchored_iff (hf : fs.multiLine = false) (pr : ParsedRegex) :
    (∃ i j, i ≤ s.length ∧ Matches s
      (pr.anchored (.look (if fs.multiLine then atLineStart else atStart))
        ((lx.dollar fs p).map Regex.look).toList).regex i j) ↔
      pr.PartMatch (lx.reachesEnd fs p s) s := by
  rw [hf, if_neg Bool.false_ne_true, PartMatch, anchored]
  cases pr.finished with
  | nil =>
    simp only [regex, matches_branches, List.not_mem_nil, false_and, exists_false, false_or,
      List.cons_append, matches_seq_look_cons, matches_seq_append_look, atStart,
      decide_eq_true_eq, RegexLexer.reachesEnd]
    constructor
    · rintro ⟨i, j, -, rfl, hm⟩
      exact ⟨j, hm⟩
    · rintro ⟨j, hm⟩
      exact ⟨0, j, Nat.zero_le _, rfl, hm⟩
  | cons first middle =>
    simp only [regex, matches_branches, List.exists_mem_cons_iff, matches_seq_look_cons,
      matches_seq_append_look, atStart, decide_eq_true_eq, RegexLexer.reachesEnd]
    constructor
    · rintro ⟨i, j, hi, (⟨rfl, hm⟩ | ⟨branch, hb, hm⟩) | hm⟩
      · exact .inl ⟨j, hm⟩
      · exact .inr (.inl ⟨branch, hb, i, j, hi, hm⟩)
      · exact .inr (.inr ⟨i, j, hi, hm⟩)
    · rintro (⟨j, hm⟩ | ⟨branch, hb, i, j, hi, hm⟩ | ⟨i, j, hi, hm⟩)
      · exact ⟨0, j, Nat.zero_le _, .inl (.inl ⟨rfl, hm⟩)⟩
      · exact ⟨i, j, hi, .inl (.inr ⟨branch, hb, hm⟩)⟩
      · exact ⟨i, j, hi, .inr hm⟩

lemma RegexLexer.reachesEnd_length : lx.reachesEnd fs p s s.length = true := by
  rw [reachesEnd, Option.all_eq_true]
  exact fun holds h => lx.dollar_length fs p holds h s

lemma ParsedRegex.partMatch_of_fullMatch {pr : ParsedRegex} (h : fullMatch s pr.regex = true) :
    pr.PartMatch (lx.reachesEnd fs p s) s := by
  rw [fullMatch_iff, regex, matches_branches] at h
  rw [PartMatch]
  cases hf : pr.finished with
  | nil =>
    rw [hf] at h
    obtain ⟨b, hb, -⟩ | hl := h
    · cases hb
    · exact ⟨s.length, hl, lx.reachesEnd_length⟩
  | cons first middle =>
    rw [hf] at h
    obtain ⟨b, hb, hm⟩ | hl := h
    · obtain rfl | hmid := List.mem_cons.mp hb
      · exact .inl ⟨s.length, hm⟩
      · exact .inr (.inl ⟨b, hmid, 0, s.length, Nat.zero_le _, hm⟩)
    · exact .inr (.inr ⟨0, s.length, Nat.zero_le _, hl, lx.reachesEnd_length⟩)

lemma regexpLikeRow_some (r : Regex Char) (s : List Char) :
    ∃ b, regexpLikeRow r (some s) = .ok (some b) ∧
      (b = true ↔ ∃ i j, i ≤ s.length ∧ Matches s r i j) := by
  refine ⟨(capturesIter s r).any fun m => (m.get 0).isSome, ?_, ?_⟩
  · rw [regexpLikeRow, regexp, haystack_zero]
    rfl
  · have hf := find_isSome_iff (s := s) (r := r) (i := 0)
    simp only [Nat.zero_le, true_and] at hf
    rw [← hf, Option.isSome_iff_ne_none, Ne, ← capturesIter_eq_nil_iff]
    cases capturesIter s r with
    | nil => exact iff_of_false Bool.false_ne_true (· rfl)
    | cons m ms => exact iff_of_true rfl (List.cons_ne_nil m ms)

lemma regexpLikeRow_anchored (hf : fs.multiLine = false) (pr : ParsedRegex) (s : List Char) :
    ∃ b, regexpLikeRow (pr.anchored (.look (if fs.multiLine then atLineStart else atStart))
      ((lx.dollar fs p).map Regex.look).toList).regex (some s) = .ok (some b) ∧
        (b = true ↔ pr.PartMatch (lx.reachesEnd fs p s) s) := by
  obtain ⟨b, hr, hb⟩ := regexpLikeRow_some (pr.anchored
    (.look (if fs.multiLine then atLineStart else atStart))
    ((lx.dollar fs p).map Regex.look).toList).regex s
  exact ⟨b, hr, hb.trans (pr.exists_match_anchored_iff lx hf)⟩

variable (interpolate int : List Char → Regex.Captures → List Char → List Char)
  {type : StringType} {pattern : List Char} {parameters ps : Option (List Char)}
  {column : Columnar (Option (List Char))} {parsed pr : ParsedRegex}

lemma regexpLike_eq_mapM
    (ha : parametersArg 5 (ps.map fun v => .string type (some v)) = .ok (parameterText ps))
    (hp : lx.parse (regexpFlags (parameterText ps)) p = some pr) :
    regexpLike (.standard lx int) (.strings column) (.string type (some p))
      (ps.map fun v => .string type (some v)) = column.toArray.mapM (regexpLikeRow (pr.anchored
        (.look (if (regexpFlags (parameterText ps)).multiLine then atLineStart else atStart))
        ((lx.dollar (regexpFlags (parameterText ps)) p).map Regex.look).toList).regex) := by
  have hb := congrArg (Option.map ParsedRegex.regex) (lx.parse_anchored hp)
  rw [regexpLike, patternArg, ha]
  simp only [bind, Except.bind, RegexpEnv.standard, hb, Option.map_some]

/-! ### Main result -/

/-- **`REGEXP_LIKE` tells whether the pattern matches the whole subject** exactly if the parameters
are accepted and each subject whose beginning the first branch matches, of which a middle branch
matches a part or whose end the last branch matches is matched as a whole. -/
theorem regexpLike_whole_iff (hm : ∀ value ∈ parameters, 'm' ∉ value)
    (hparse : lexer.parse (regexpFlags (parameterText parameters)) pattern = some parsed) :
    regexpLike (.standard lexer interpolate) (.strings column) (.string type (some pattern))
        (parameters.map fun value => .string type (some value)) =
        .ok (column.toArray.map (Option.map fun s => fullMatch s parsed.regex)) ↔
      (∀ value ∈ parameters, acceptsParameters value = true) ∧
        ∀ s, some s ∈ column.toArray → parsed.PartMatch
          (lexer.reachesEnd (regexpFlags (parameterText parameters)) pattern s) s →
            fullMatch s parsed.regex = true := by
  have hf := multiLine_parameterText hm
  obtain ⟨hac, ha⟩ | ⟨hr, e, ha⟩ := parametersArg_cases 5 type parameters
  · rw [and_iff_right hac, regexpLike_eq_mapM lexer interpolate ha hparse, mapM_eq_ok_map_iff]
    constructor
    · intro h s hs hp
      obtain ⟨b, hrw, hb⟩ := regexpLikeRow_anchored lexer hf parsed s
      cases hrw.symm.trans (h (some s) hs)
      exact hb.mpr hp
    · intro h row hrw
      cases row with
      | none => rfl
      | some s =>
        obtain ⟨b, hr', hb⟩ := regexpLikeRow_anchored lexer hf parsed s
        have hful : b = fullMatch s parsed.regex :=
          Bool.eq_iff_iff.mpr (hb.trans ⟨h s hrw, parsed.partMatch_of_fullMatch lexer⟩)
        rw [hr', hful]
        rfl
  · refine iff_of_false (fun h => ?_) fun h => hr h.1
    rw [regexpLike, patternArg, ha] at h
    cases h

end Whole

lemma ParsedRegex.fullMatch_of_single {pr : ParsedRegex} (hs : pr.finished = []) {s : List Char}
    (h : pr.PartMatch (atEnd s) s) : fullMatch s pr.regex = true := by
  rw [PartMatch, hs] at h
  obtain ⟨j, hm, he⟩ := h
  rw [atEnd, decide_eq_true_eq] at he
  rw [fullMatch_iff, regex, matches_branches, ← he]
  exact .inr hm

theorem regexpLike_ab :
    regexpLike asciiRegexp
        (.strings (.array [some "ab".toList, some "abc".toList, none]))
        (.string .utf8 (some "ab".toList)) none =
      .ok [some true, some false, none] := by
  have hp : asciiLexer.parse (regexpFlags (parameterText none)) "ab".toList =
      some ⟨[], [.set (· = 'a'), .set (· = 'b')]⟩ := rfl
  have hm : ∀ value ∈ (none : Option (List Char)), 'm' ∉ value :=
    fun value hv => (Option.not_mem_none value hv).elim
  have h := @regexpLike_whole_iff asciiLexer (fun _ _ r => r) .utf8
    "ab".toList none
    (.array [some "ab".toList, some "abc".toList, none]) _ hm hp
  refine h.mpr ⟨fun value hv => (Option.not_mem_none value hv).elim, fun s _ hpar => ?_⟩
  exact ParsedRegex.fullMatch_of_single rfl hpar

theorem regexpLike_alternation_fails :
    ∃ parsed, asciiLexer.parse (regexpFlags (parameterText none)) "a|b".toList = some parsed ∧
      fullMatch "axyz".toList parsed.regex = false ∧
      regexpLike asciiRegexp
        (.strings (.scalar (some "axyz".toList))) (.string .utf8 (some "a|b".toList)) none =
        .ok [some true] :=
  ⟨_, rfl, by decide, rfl⟩

end Rustice
