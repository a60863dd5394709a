import Rustice.Columnar
import Rustice.RegexSyntax
import Rustice.Utf8

/-!
# Arguments of the `REGEXP_` Functions

The subject is a column or a scalar; pattern, position, occurrence, parameters and group are
scalars.
-/

namespace Rustice

inductive StringType where
  | utf8
  | largeUtf8
  | utf8View
  deriving DecidableEq

def StringType.name : StringType → String
  | utf8 => "Utf8"
  | largeUtf8 => "LargeUtf8"
  | utf8View => "Utf8View"

inductive RegexpArg where
  | string (type : StringType) (value : Option (List Char))
  | int64 (value : Option ℤ)
  | other (dataType : String)

def RegexpArg.dataType : RegexpArg → String
  | string type _ => type.name
  | int64 _ => "Int64"
  | other dataType => dataType

inductive RegexpSubject where
  | strings (column : Columnar (Option (List Char)))
  | other (dataType : String)

inductive RegexpError where
  | unsupportedInputTypeWithPosition (dataType : String) (position : ℕ)
  | wrongArgValue (got : List Char) (reason : String)
  | invalidIntegerConversion
  | unsupportedRegex
  | panicked

structure RegexpEnv where
  build : RegexFlags → List Char → Option (Regex Char)
  interpolate : List Char → Regex.Captures → List Char → List Char

def RegexpEnv.standard (lexer : RegexLexer)
    (interpolate : List Char → Regex.Captures → List Char → List Char) : RegexpEnv where
  build flags text := (lexer.parse flags text).map ParsedRegex.regex
  interpolate := interpolate

def isWordChar (c : Char) : Bool := c.isAlphanum || c = '_'

def isWordBoundary (s : List Char) (i : ℕ) : Bool :=
  (i != 0 && s[i - 1]?.any isWordChar) != s[i]?.any isWordChar

def asciiToken? (flags : RegexFlags) : Char → Option RegexToken
  | '^' => some (.look (if flags.multiLine then atLineStart else atStart))
  | '$' => some (.look (if flags.multiLine then atLineEnd else atEnd))
  | '|' => some .bar
  | '(' => some (.opening true)
  | ')' => some .closing
  | '*' => some (.repeated 0 none)
  | '\\' | '[' | '{' | '+' | '?' | '.' => none
  | c => some (.set (· = c))

/-- A lexer of a few of the signs, and the only escape `\B`. -/
def asciiTokens (flags : RegexFlags) : List Char → Option (List RegexToken)
  | [] => some []
  | '\\' :: 'B' :: cs =>
    (asciiTokens flags cs).map (.look (fun s i => !isWordBoundary s i) :: ·)
  | c :: cs => do
    let token ← asciiToken? flags c
    let tokens ← asciiTokens flags cs
    return token :: tokens

lemma asciiTokens_append_dollar {flags : RegexFlags} {text : List Char} {tokens : List RegexToken}
    (h : asciiTokens flags text = some tokens) : asciiTokens flags (text ++ ['$']) =
      some (tokens ++ [.look (if flags.multiLine then atLineEnd else atEnd)]) := by
  fun_induction asciiTokens flags text generalizing tokens with
  | case1 =>
    cases h
    rfl
  | case2 cs ih =>
    obtain ⟨ts, ht, rfl⟩ := Option.map_eq_some_iff.mp h
    rw [List.cons_append, List.cons_append, asciiTokens, ih ht]
    rfl
  | case3 c cs hne ih =>
    simp only [bind, Option.bind_eq_some_iff] at h
    obtain ⟨t, hc, ts, ht, heq⟩ := h
    cases heq
    rw [List.cons_append, asciiTokens]
    · simp only [hc, ih ht, bind, Option.bind_some]
      rfl
    · rintro rest rfl hb
      cases cs with
      | nil => cases hb
      | cons d cs =>
        cases hb
        exact hne _ rfl rfl

def asciiLexer : RegexLexer where
  lex := asciiTokens
  dollar flags _ := some (if flags.multiLine then atLineEnd else atEnd)
  lex_anchored flags text tokens h := by
    rw [List.cons_append, asciiTokens]
    · rw [asciiTokens_append_dollar h]
      rfl
    · rintro _ h
      cases h
  dollar_length := by
    rintro flags text _ ⟨⟩ s
    split <;> simp [atLineEnd, atEnd]

def asciiRegexp : RegexpEnv := .standard asciiLexer fun _ _ replacement => replacement

def patternArg : RegexpArg → Except RegexpError (List Char)
  | .string _ (some pattern) => .ok pattern
  | arg => .error (.unsupportedInputTypeWithPosition arg.dataType 2)

def usizeOfI64 (n : ℤ) : Except RegexpError ℕ :=
  if 0 ≤ n then .ok n.toNat else .error .invalidIntegerConversion

def integerArg (offset : ℤ) (reason : String) (position : ℕ) :
    Option RegexpArg → Except RegexpError ℕ
  | none => .ok 0
  | some (.int64 (some value)) =>
    if 0 ≤ value then usizeOfI64 (value - offset)
    else .error (.wrongArgValue (toString value).toList reason)
  | some arg => .error (.unsupportedInputTypeWithPosition arg.dataType position)

lemma integerArg_of_le {o v : ℕ} (h : o ≤ v) (r : String) (p : ℕ) :
    integerArg (o : ℤ) r p (some (.int64 (some (v : ℤ)))) = .ok (v - o) := by
  rw [integerArg, if_pos (Int.natCast_nonneg v), usizeOfI64, if_pos (by omega)]
  exact congrArg _ (by omega)

def positionArg (position : ℕ) : Option RegexpArg → Except RegexpError ℕ :=
  integerArg 1 "Position must be positive" position

def occurrenceArg (position : ℕ) : Option RegexpArg → Except RegexpError ℕ :=
  integerArg 1 "Occurrence must be positive" position

def replaceOccurrenceArg (position : ℕ) : Option RegexpArg → Except RegexpError ℕ :=
  integerArg 0 "Occurrence must be positive" position

section Integers

variable {value v : ℕ} (p : ℕ)

lemma positionArg_of_pos (h : 1 ≤ v) : positionArg p (some (.int64 (some (v : ℤ)))) = .ok (v - 1) :=
  integerArg_of_le h _ p

lemma occurrenceArg_of_pos (h : 1 ≤ v) :
    occurrenceArg p (some (.int64 (some (v : ℤ)))) = .ok (v - 1) :=
  integerArg_of_le h _ p

lemma replaceOccurrenceArg_eq :
    replaceOccurrenceArg p (some (.int64 (some (value : ℤ)))) = .ok value :=
  integerArg_of_le (Nat.zero_le value) _ p

end Integers

def isParameter (c : Char) : Bool := c ∈ ['c', 'i', 'm', 'e', 's']

def parametersArg (position : ℕ) : Option RegexpArg → Except RegexpError (List Char)
  | none => .ok ['c']
  | some (.string _ (some value)) =>
    if value.any isParameter then .ok value
    else
      match value with
      | [] => .ok ['c']
      | c :: _ =>
        if c.utf8Size = 1 then
          .error (.wrongArgValue value ("Unknown parameter: '" ++ String.singleton c ++ "'"))
        else .error .panicked
  | some arg => .error (.unsupportedInputTypeWithPosition arg.dataType position)

lemma parametersArg_of_any (p : ℕ) (ty : StringType) {value : List Char}
    (h : value.any isParameter = true) :
    parametersArg p (some (.string ty (some value))) = .ok value :=
  if_pos h

lemma exists_parametersArg_error (p : ℕ) (ty : StringType) {c : Char} {cs : List Char}
    (h : (c :: cs).any isParameter = false) :
    ∃ e, parametersArg p (some (.string ty (some (c :: cs)))) = .error e := by
  simp only [parametersArg, h]
  by_cases hs : c.utf8Size = 1
  · exact ⟨_, if_pos hs⟩
  · exact ⟨_, if_neg hs⟩

def parameterText : Option (List Char) → List Char
  | none => ['c']
  | some [] => ['c']
  | some (c :: cs) => c :: cs

def acceptsParameters (value : List Char) : Bool := value.isEmpty || value.any isParameter

lemma forall_mem_some {β : Type} {a : β} {P : β → Prop} : (∀ b ∈ some a, P b) ↔ P a :=
  ⟨fun h => h a rfl, fun h _ hb => Option.some_inj.mp hb ▸ h⟩

lemma parametersArg_cases (p : ℕ) (ty : StringType) (ps : Option (List Char)) :
    ((∀ v ∈ ps, acceptsParameters v = true) ∧
        parametersArg p (ps.map fun v => .string ty (some v)) = .ok (parameterText ps)) ∨
      ((¬∀ v ∈ ps, acceptsParameters v = true) ∧
        ∃ e, parametersArg p (ps.map fun v => .string ty (some v)) = .error e) := by
  cases ps with
  | none => exact .inl ⟨fun v hv => (Option.not_mem_none v hv).elim, rfl⟩
  | some v =>
    rw [forall_mem_some, Option.map_some]
    cases v with
    | nil => exact .inl ⟨rfl, rfl⟩
    | cons c cs =>
      cases ha : (c :: cs).any isParameter with
      | true =>
        refine .inl ⟨?_, parametersArg_of_any p ty ha⟩
        rw [acceptsParameters, ha, Bool.or_true]
      | false =>
        refine .inr ⟨?_, exists_parametersArg_error p ty ha⟩
        rw [acceptsParameters, ha]
        exact Bool.false_ne_true

def groupArg (parameters : List Char) (position : ℕ) : Option RegexpArg → Except RegexpError ℕ
  | none => .ok (if 'e' ∈ parameters then 1 else 0)
  | arg => integerArg 0 "Capture group mustbe non-negative" position arg

lemma groupArg_eq (ps : List Char) (p group : ℕ) :
    groupArg ps p (some (.int64 (some (group : ℤ)))) = .ok group :=
  integerArg_of_le (Nat.zero_le group) "Capture group mustbe non-negative" p

def regexpFlags (parameters : List Char) : RegexFlags where
  caseInsensitive := parameters.reverse.find? (fun c => c = 'i' || c = 'c') = some 'i'
  multiLine := 'm' ∈ parameters
  dotMatchesNewLine := 's' ∈ parameters

lemma multiLine_parameterText {ps : Option (List Char)} (hm : ∀ v ∈ ps, 'm' ∉ v) :
    (regexpFlags (parameterText ps)).multiLine = false := by
  refine decide_eq_false fun hmm => ?_
  cases ps with
  | none => exact absurd hmm (by decide)
  | some v =>
    cases v with
    | nil => exact absurd hmm (by decide)
    | cons c cs => exact hm (c :: cs) rfl hmm

def haystack (position : ℕ) (s : List Char) : Except RegexpError (List Char) :=
  match dropBytes (min position (byteLen s)) s with
  | some rest => .ok rest
  | none => .error .panicked

def regexp (r : Regex Char) (position : ℕ) :
    Option (List Char) → Except RegexpError (Option (List Char × List Regex.Captures))
  | none => .ok none
  | some s => (haystack position s).map fun rest => some (rest, Regex.capturesIter rest r)

lemma haystack_eq_ok_iff {p : ℕ} {s r : List Char} :
    haystack p s = .ok r ↔ ∃ l, s = l ++ r ∧ byteLen l = min p (byteLen s) := by
  rw [haystack, ← dropBytes_eq_some_iff]
  cases dropBytes (min p (byteLen s)) s with
  | none =>
    refine iff_of_false (fun h => ?_) (fun h => ?_)
    · cases h
    · cases h
  | some r' => rw [Except.ok.injEq, Option.some_inj]

lemma haystack_cases (p : ℕ) (s : List Char) :
    haystack p s = .error .panicked ∨ ∃ rest, haystack p s = .ok rest := by
  rw [haystack]
  cases dropBytes (min p (byteLen s)) s with
  | none => exact .inl rfl
  | some rest => exact .inr ⟨rest, rfl⟩

lemma haystack_zero (s : List Char) : haystack 0 s = .ok s :=
  haystack_eq_ok_iff.mpr ⟨[], rfl, (Nat.zero_min _).symm⟩

end Rustice
