import Mathlib.Data.Countable.Basic
import Mathlib.Data.List.DropRight
import Mathlib.Data.String.Basic
import Mathlib.Logic.Equiv.List
import Rustice.AsciiCase
import Rustice.DecimalText
import Rustice.Delimiter

/-!
# Sessions of SPCS Callers

The caller is known from the headers of a request: a user, an account, and possibly a token.
-/

namespace Rustice

open List Option String

inductive HeaderValue where
  | text (value : String)
  | bytes

def HeaderValue.toStr : HeaderValue → Option String
  | text value => some value
  | bytes => none

structure HeaderMap where
  get : String → Option HeaderValue

def spcsCurrentUserHeader : String := "sf-context-current-user"

def spcsCurrentAccountHeader : String := "sf-context-current-account"

def spcsCurrentUserTokenHeader : String := "sf-context-current-user-token"

inductive JwtAudience where
  | one (audience : String)
  | many (audiences : List String)
  deriving DecidableEq

namespace JwtAudience

def members : JwtAudience → List String
  | one audience => [audience]
  | many audiences => audiences

def contains (aud : JwtAudience) (expected : String) : Bool :=
  match aud with
  | one audience => audience = expected
  | many audiences => audiences.any (· = expected)

def canonical : JwtAudience → String
  | one audience => audience
  | many audiences => ",".intercalate (audiences.insertionSort (· ≤ ·))

end JwtAudience

open JwtAudience

structure SpcsCallerTokenClaims where
  tokenType : Option String
  aud : Option JwtAudience
  iss : Option String
  callContext : Option String
  sub : Option String
  deriving DecidableEq

def SpcsCallerTokenClaims.Required (claims : SpcsCallerTokenClaims) : Prop :=
  claims.aud.isSome ∧ claims.iss.isSome ∧ claims.sub.isSome

instance (claims : SpcsCallerTokenClaims) : Decidable claims.Required :=
  inferInstanceAs (Decidable (_ ∧ _ ∧ _))

/-- `jsonwebtoken::decode` accepts tokens with the required claims only. -/
structure SpcsEnv where
  isWhitespace : Char → Bool
  decode : ℤ → String → Option SpcsCallerTokenClaims
  required : ∀ {now : ℤ} {token : String} {claims : SpcsCallerTokenClaims},
    decode now token = some claims → claims.Required
  snowflakeIssuerHost : Option String
  snowflakeHost : Option String

structure SpcsIdentity where
  user : String
  account : String
  claims : Option SpcsCallerTokenClaims
  deriving DecidableEq

def trimEndMatches (c : Char) (s : String) : String := .ofList (s.toList.rdropWhile (· = c))

def beforeOr (c : Char) (s default : String) : String :=
  match s.toList.dropWhile (· ≠ c) with
  | [] => default
  | _ :: _ => .ofList (s.toList.takeWhile (· ≠ c))

namespace SpcsEnv

variable (env : SpcsEnv)

def trim (s : String) : String :=
  .ofList ((s.toList.dropWhile env.isWhitespace).rdropWhile env.isWhitespace)

def headerValue (headers : HeaderMap) (name : String) : Option String :=
  (((headers.get name).bind HeaderValue.toStr).map env.trim).filter (· ≠ "")

def normalizedUrlHost (value : String) : Option String :=
  let value := env.trim value
  let value :=
    ((value.toList.dropPrefix? "https://".toList).or
      (value.toList.dropPrefix? "http://".toList)).elim value .ofList
  let value := beforeOr '/' value value
  let value := trimEndMatches '.' value
  let value := beforeOr ':' value value
  if value = "" then none else some value

def issuerMatches (issuer expectedHost : String) : Bool :=
  match env.normalizedUrlHost issuer, env.normalizedUrlHost expectedHost with
  | some issuerHost, some expectedHost => eqIgnoreAsciiCase issuerHost expectedHost
  | _, _ => false

def spcsCallerSubjectMatches (claims : SpcsCallerTokenClaims) : Bool :=
  ((claims.sub.map env.trim).filter (· ≠ "")).isSome

def spcsCallerAudienceMatches (claims : SpcsCallerTokenClaims) (headers : HeaderMap) : Bool :=
  match env.headerValue headers "host" with
  | none => true
  | some host =>
    let normalizedHost := beforeOr ':' (trimEndMatches '.' host) host
    let endpointId := beforeOr '.' normalizedHost normalizedHost
    claims.aud.any fun aud => aud.contains normalizedHost || aud.contains endpointId

def spcsCallerIssuerMatches (claims : SpcsCallerTokenClaims) : Bool :=
  match env.snowflakeIssuerHost.or env.snowflakeHost with
  | none => true
  | some expectedIssuer => claims.iss.any (env.issuerMatches · expectedIssuer)

def spcsCallerTokenClaimsMatch (claims : SpcsCallerTokenClaims) (headers : HeaderMap) : Bool :=
  claims.tokenType = some "SCT" && claims.callContext = some "CALLER" &&
    (env.spcsCallerSubjectMatches claims && env.spcsCallerAudienceMatches claims headers &&
      env.spcsCallerIssuerMatches claims)

def validatedSpcsCallerTokenClaims (now : ℤ) (token : String) (headers : HeaderMap) :
    Option SpcsCallerTokenClaims :=
  (env.decode now token).filter fun claims => env.spcsCallerTokenClaimsMatch claims headers

def identity (now : ℤ) (headers : HeaderMap) : Option SpcsIdentity :=
  match env.headerValue headers spcsCurrentUserHeader with
  | none => none
  | some user =>
    let account := (env.headerValue headers spcsCurrentAccountHeader).getD ""
    match env.headerValue headers spcsCurrentUserTokenHeader with
    | some token =>
      (env.validatedSpcsCallerTokenClaims now token headers).map fun claims =>
        ⟨user, account, some claims⟩
    | none => some ⟨user, account, none⟩

end SpcsEnv

def SpcsIdentity.hashedTexts (caller : SpcsIdentity) : List String :=
  match caller.claims with
  | some claims =>
    ["sct", claims.iss.getD "", (claims.aud.map canonical).getD "",
      claims.sub.getD caller.user, caller.account]
  | none => ["user", caller.account, caller.user]

def SpcsIdentity.hashInput (caller : SpcsIdentity) : List UInt8 :=
  terminatedTexts caller.hashedTexts

namespace SpcsIdentity

def audiences (claims : SpcsCallerTokenClaims) : List String :=
  (claims.aud.map members).getD []

/-- The same account, and the same claims or, without tokens, the same user. -/
def SameCaller (a b : SpcsIdentity) : Prop :=
  a.account = b.account ∧ match a.claims, b.claims with
    | some c, some d =>
      c.iss = d.iss ∧ c.sub = d.sub ∧ ∀ ad, ad ∈ audiences c ↔ ad ∈ audiences d
    | none, none => a.user = b.user
    | _, _ => False

/-- No token, or one audience in which what follows a comma is smaller than what precedes it. -/
def Determined (caller : SpcsIdentity) : Prop :=
  match caller.claims with
  | none => True
  | some claims =>
    ∃ ad, audiences claims = [ad] ∧ ad ≠ "" ∧ ∀ u v, ad = u ++ "," ++ v → v < u

end SpcsIdentity

lemma JwtAudience.toList_canonical (ad : JwtAudience) :
    ad.canonical.toList = sortedJoin ',' (ad.members.map String.toList) := by
  cases ad with
  | one audience => simp [canonical, members]
  | many ads =>
    rw [canonical, members, toList_intercalate, sortedJoin,
      ← map_insertionSort (· ≤ ·) (· ≤ ·) String.toList ads
        fun _ _ _ _ => le_iff_toList_le]
    rfl

lemma mem_map_toList_iff {texts : List String} {w : List Char} :
    w ∈ texts.map String.toList ↔ String.ofList w ∈ texts := by
  rw [List.mem_map]
  constructor
  · rintro ⟨text, hm, rfl⟩
    rwa [ofList_toList]
  · intro hm
    exact ⟨_, hm, toList_ofList⟩

lemma indivisible_toList_iff {t : String} :
    Indivisible ',' t.toList ↔ t ≠ "" ∧ ∀ u v, t = u ++ "," ++ v → v < u := by
  refine and_congr (not_congr String.toList_eq_nil_iff) ⟨fun h u v heq => ?_, fun h u v heq => ?_⟩
  · rw [lt_iff_toList_lt]
    refine h u.toList v.toList ?_
    rw [heq, toList_append, toList_append, List.append_assoc]
    rfl
  · have hlt := h (.ofList u) (.ofList v) (by
      rw [← toList_inj, heq, toList_append, toList_append, toList_ofList, List.append_assoc]
      simp)
    rwa [lt_iff_toList_lt, toList_ofList, toList_ofList] at hlt

variable {aud : JwtAudience} {claims : SpcsCallerTokenClaims} {cs : SpcsCallerTokenClaims}
  {cl : SpcsIdentity}

lemma JwtAudience.canonical_determines_iff : (∀ aud' : JwtAudience, aud'.canonical = aud.canonical →
      ∀ ad, ad ∈ aud'.members ↔ ad ∈ aud.members) ↔
    ∃ ad, aud.members = [ad] ∧ ad ≠ "" ∧ ∀ u v, ad = u ++ "," ++ v → v < u := by
  have hw : (∀ aud' : JwtAudience, aud'.canonical = aud.canonical →
        ∀ ad, ad ∈ aud'.members ↔ ad ∈ aud.members) ↔
      ∀ words, sortedJoin ',' words = sortedJoin ',' (aud.members.map String.toList) →
        ∀ w, w ∈ words ↔ w ∈ aud.members.map String.toList := by
    constructor
    · intro h words hj w
      have hma : (words.map String.ofList).map String.toList = words := by
        rw [List.map_map]
        exact map_id'' (fun _ => toList_ofList) words
      have hc : (many (words.map String.ofList)).canonical = aud.canonical := by
        rw [← toList_inj, toList_canonical, toList_canonical, members, hma, hj]
      rw [mem_map_toList_iff, ← h _ hc, ← mem_map_toList_iff, members, hma]
    · intro h aud' hc ad
      have hmm := h (aud'.members.map String.toList)
        (by rw [← toList_canonical, ← toList_canonical, hc]) ad.toList
      rwa [mem_map_toList_iff, mem_map_toList_iff, ofList_toList] at hmm
  rw [hw, sortedJoin_determines_iff]
  constructor
  · rintro ⟨w, hma, hwor⟩
    obtain ⟨ad, hm, rfl⟩ := map_eq_singleton_iff.mp hma
    exact ⟨ad, hm, indivisible_toList_iff.mp hwor⟩
  · rintro ⟨ad, hm, h⟩
    exact ⟨ad.toList, by rw [hm]; rfl, indivisible_toList_iff.mpr h⟩

namespace SpcsEnv

variable {env : SpcsEnv} {headers : HeaderMap} {n : ℤ}

lemma identity_eq_some_claims_iff {us ac : String} :
    env.identity n headers = some ⟨us, ac, some claims⟩ ↔
      env.headerValue headers spcsCurrentUserHeader = some us ∧
      (env.headerValue headers spcsCurrentAccountHeader).getD "" = ac ∧
      ∃ t, env.headerValue headers spcsCurrentUserTokenHeader = some t ∧
        env.validatedSpcsCallerTokenClaims n t headers = some claims := by
  rw [identity]
  cases env.headerValue headers spcsCurrentUserHeader with
  | none => simp
  | some u =>
    cases env.headerValue headers spcsCurrentUserTokenHeader with
    | none => simp
    | some t => simp [and_comm, and_assoc]

lemma required_of_identity (h : env.identity n headers = some cl)
    (hc : cl.claims = some cs) : cs.Required := by
  obtain ⟨user, account, c⟩ := cl
  cases hc
  obtain ⟨-, -, token, -, hv⟩ := identity_eq_some_claims_iff.mp h
  exact env.required (filter_eq_some_iff.mp hv).1

end SpcsEnv

namespace SpcsIdentity

variable {a b : SpcsIdentity}

lemma hashInput_eq_iff_of_claims {c d : SpcsCallerTokenClaims}
    (ha : a.claims = some c) (hb : b.claims = some d) (hc : c.Required) (hd : d.Required) :
    a.hashInput = b.hashInput ↔ a.account = b.account ∧ c.iss = d.iss ∧ c.sub = d.sub ∧
        c.aud.map canonical = d.aud.map canonical := by
  obtain ⟨had, hi, hsu⟩ := hc
  obtain ⟨ha', hi', hs'⟩ := hd
  obtain ⟨ad, had⟩ := isSome_iff_exists.mp had
  obtain ⟨i, hi⟩ := isSome_iff_exists.mp hi
  obtain ⟨s, hsu⟩ := isSome_iff_exists.mp hsu
  obtain ⟨ad', ha'⟩ := isSome_iff_exists.mp ha'
  obtain ⟨i', hi'⟩ := isSome_iff_exists.mp hi'
  obtain ⟨s', hs'⟩ := isSome_iff_exists.mp hs'
  have hin : a.hashInput = b.hashInput ↔ a.hashedTexts = b.hashedTexts :=
    ⟨terminatedTexts_inj, congrArg terminatedTexts⟩
  rw [hin]
  simp only [hashedTexts, ha, hb, had, hi, hsu, ha', hi', hs', getD_some,
    map_some, cons.injEq, some.injEq, and_true, true_and]
  tauto

lemma hashInput_eq_iff_of_none (ha : a.claims = none) (hb : b.claims = none) :
    a.hashInput = b.hashInput ↔ a.account = b.account ∧ a.user = b.user := by
  have hi : a.hashInput = b.hashInput ↔ a.hashedTexts = b.hashedTexts :=
    ⟨terminatedTexts_inj, congrArg terminatedTexts⟩
  simp only [hi, hashedTexts, ha, hb, cons.injEq, and_true, true_and]

lemma isSome_claims_of_hashInput_eq (h : a.hashInput = b.hashInput) :
    a.claims.isSome = b.claims.isSome := by
  have ht := congrArg List.head? (terminatedTexts_inj h)
  rw [hashedTexts, hashedTexts] at ht
  cases ha : a.claims with
  | none =>
    cases hb : b.claims with
    | none => rfl
    | some d => rw [ha, hb] at ht; simp at ht
  | some c =>
    cases hb : b.claims with
    | none => rw [ha, hb] at ht; simp at ht
    | some d => rfl

end SpcsIdentity

open SpcsIdentity in
lemma SpcsIdentity.sameCaller_of_hashInput_eq {env : SpcsEnv} {n n' : ℤ}
    {headers he' : HeaderMap} {a b : SpcsIdentity} (ha : env.identity n headers = some a)
    (hb : env.identity n' he' = some b) (hde : a.Determined)
    (h : b.hashInput = a.hashInput) : a.SameCaller b := by
  have hs := isSome_claims_of_hashInput_eq h
  rw [Determined] at hde
  rw [SameCaller]
  cases hc : a.claims with
  | none =>
    have hd : b.claims = none := by
      rw [hc] at hs
      exact isSome_eq_false_iff.mp hs |> isNone_iff_eq_none.mp
    obtain ⟨hac, hu⟩ := (hashInput_eq_iff_of_none hd hc).mp h
    rw [hd]
    exact ⟨hac.symm, hu.symm⟩
  | some c =>
    rw [hc] at hs hde
    obtain ⟨d, hd⟩ := isSome_iff_exists.mp hs
    have hr := SpcsEnv.required_of_identity ha hc
    have hr' := SpcsEnv.required_of_identity hb hd
    obtain ⟨hac, hi, hsub, had⟩ :=
      (hashInput_eq_iff_of_claims hd hc hr' hr).mp h
    obtain ⟨au, hc_aud⟩ := isSome_iff_exists.mp hr.1
    obtain ⟨au', hd_aud⟩ := isSome_iff_exists.mp hr'.1
    rw [hc_aud, hd_aud, map_some, map_some, some.injEq] at had
    simp only [audiences, hc_aud, map_some, getD_some] at hde
    have hm := canonical_determines_iff.mpr hde au' had
    rw [hd]
    simp only [audiences, hc_aud, hd_aud, map_some, getD_some]
    exact ⟨hac.symm, hi.symm, hsub.symm, fun ad => (hm ad).symm⟩

def HeaderMap.withToken (headers : HeaderMap) (token : String) : HeaderMap where
  get name :=
    if name = spcsCurrentUserTokenHeader then some (.text token)
    else if name = "host" then none
    else headers.get name

namespace SpcsEnv

/-- There is a token for all claims: signatures are not checked. -/
def Forgeable (env : SpcsEnv) : Prop :=
  ∀ claims : SpcsCallerTokenClaims, claims.Required →
    ∃ now token, env.decode now token = some claims ∧ env.trim token = token ∧ token ≠ ""

variable {env : SpcsEnv}

lemma headerValue_eq_some {headers : HeaderMap} {nm value : String}
    (hget : headers.get nm = some (.text value)) (ht : env.trim value = value)
    (hne : value ≠ "") : env.headerValue headers nm = some value := by
  simp [headerValue, hget, HeaderValue.toStr, ht, hne]

lemma identity_withToken {now now' : ℤ} {headers : HeaderMap} {token : String}
    (h : env.identity now headers = some cl) (hc : cl.claims = some cs)
    (hd : env.decode now' token = some { cs with aud := some aud })
    (htr : env.trim token = token) (ht : token ≠ "") : env.identity now' (headers.withToken token) =
      some { cl with claims := some { cs with aud := some aud } } := by
  obtain ⟨user, account, c⟩ := cl
  cases hc
  obtain ⟨hu, ha, token', ht', hv⟩ := identity_eq_some_claims_iff.mp h
  refine identity_eq_some_claims_iff.mpr ⟨hu, ha, token, headerValue_eq_some rfl htr ht, ?_⟩
  refine filter_eq_some_iff.mpr ⟨hd, ?_⟩
  -- the type, the context, the subject and the issuer are those that were accepted
  have hm := (filter_eq_some_iff.mp hv).2
  simp only [spcsCallerTokenClaimsMatch, Bool.and_eq_true] at hm ⊢
  refine ⟨hm.1, ⟨hm.2.1.1, ?_⟩, hm.2.2⟩
  have hh : env.headerValue (headers.withToken token) "host" = none := rfl
  rw [spcsCallerAudienceMatches, hh]

/-! ### Main result -/

open SpcsIdentity in
/-- **No other identity has the hash input** exactly of `Determined` callers. -/
theorem hashInput_separates_iff (hforge : env.Forgeable) {now : ℤ} {headers : HeaderMap}
    {caller : SpcsIdentity} (h : env.identity now headers = some caller) :
    (∀ now' headers' caller', env.identity now' headers' = some caller' →
        caller'.hashInput = caller.hashInput → caller.SameCaller caller') ↔
      caller.Determined := by
  refine ⟨fun hs => ?_, fun hd now' headers' caller' h' heq =>
    sameCaller_of_hashInput_eq h h' hd heq⟩
  rw [Determined]
  cases hc : caller.claims with
  | none => trivial
  | some claims =>
    have hr := required_of_identity h hc
    obtain ⟨aud, ha⟩ := isSome_iff_exists.mp hr.1
    simp only [audiences, ha, map_some, getD_some]
    refine canonical_determines_iff.mp fun aud' hcan ad => ?_
    -- the caller with the other audiences has the same hash input
    have hr' : ({ claims with aud := some aud' } : SpcsCallerTokenClaims).Required :=
      ⟨rfl, hr.2⟩
    obtain ⟨now', token, hdec, htr, ht⟩ := hforge _ hr'
    have hc' := identity_withToken h hc hdec htr ht
    have hi : ({ caller with claims := some { claims with aud := some aud' } } :
        SpcsIdentity).hashInput = caller.hashInput :=
      (hashInput_eq_iff_of_claims rfl hc hr' hr).mpr
        ⟨rfl, rfl, rfl, by rw [ha, map_some, map_some, hcan]⟩
    have hs' := (hs now' _ _ hc' hi).2
    rw [hc] at hs'
    have hm := hs'.2.2 ad
    simp only [audiences, ha, map_some, getD_some] at hm
    exact hm.symm

lemma trim_eq_self {s : String} (h : ∀ c ∈ s.toList, env.isWhitespace c = false) :
    env.trim s = s := by
  have hd : s.toList.dropWhile env.isWhitespace = s.toList := by
    refine dropWhile_eq_self_iff.mpr fun hl => ?_
    simp [h _ (getElem_mem hl)]
  have hr : s.toList.rdropWhile env.isWhitespace = s.toList := by
    refine rdropWhile_eq_self_iff.mpr fun hne => ?_
    simp [h _ (getLast_mem hne)]
  rw [trim, hd, hr, ofList_toList]

lemma exists_injective_claims : ∃ f : SpcsCallerTokenClaims → ℕ, f.Injective := by
  have hch : Countable Char := Function.Injective.countable fun _ _ => Char.toNat_inj.mp
  have hs : Countable String := Function.Injective.countable fun _ _ => toList_inj.mp
  have ha : Countable JwtAudience :=
    @Function.Injective.countable _ (String ⊕ List String) _
      (fun
        | .one ad => .inl ad
        | .many audiences => .inr audiences)
      (by rintro (a | a) (b | b) h <;> cases h <;> rfl)
  have hc : Countable SpcsCallerTokenClaims :=
    @Function.Injective.countable _
      (Option String × Option JwtAudience × Option String × Option String × Option String) _
      (fun c => (c.tokenType, c.aud, c.iss, c.callContext, c.sub))
      (by rintro ⟨⟩ ⟨⟩ h; cases h; rfl)
  exact Countable.exists_injective_nat _

noncomputable def tokenOf (claims : SpcsCallerTokenClaims) : String :=
  toString (exists_injective_claims.choose claims)

lemma tokenOf_injective : tokenOf.Injective := by
  intro c d h
  have hd := congrArg (readDigits ∘ String.toList) h
  simp only [Function.comp_apply, tokenOf, toList_toString_nat, readDigits_toDigits,
    some.injEq] at hd
  exact exists_injective_claims.choose_spec hd

noncomputable def numberedTokens : SpcsEnv where
  isWhitespace := Char.isWhitespace
  decode _ token := (Function.partialInv tokenOf token).filter fun claims => claims.Required
  required h := of_decide_eq_true (filter_eq_some_iff.mp h).2
  snowflakeIssuerHost := none
  snowflakeHost := none

lemma decode_tokenOf {n : ℤ} (h : claims.Required) :
    numberedTokens.decode n (tokenOf claims) = some claims := by
  refine filter_eq_some_iff.mpr ⟨?_, decide_eq_true h⟩
  exact Function.partialInv_left tokenOf_injective claims

lemma trim_tokenOf (claims : SpcsCallerTokenClaims) :
    numberedTokens.trim (tokenOf claims) = tokenOf claims := by
  refine trim_eq_self fun c hc => ?_
  rw [tokenOf, toList_toString_nat] at hc
  have hne : ∀ d : Char, d.isDigit = false → c ≠ d := fun d hd => ne_of_mem_toDigits hd hc
  show Char.isWhitespace c = false
  simp [Char.isWhitespace, hne ' ' rfl, hne '\t' rfl, hne '\r' rfl, hne '\n' rfl]

lemma tokenOf_ne_empty (cs : SpcsCallerTokenClaims) : tokenOf cs ≠ "" := by
  rw [← toList_inj.ne, tokenOf, toList_toString_nat]
  exact Nat.toDigits_ne_nil

lemma forgeable_numberedTokens : numberedTokens.Forgeable := fun cs h =>
  ⟨0, tokenOf cs, decode_tokenOf h, trim_tokenOf cs, tokenOf_ne_empty cs⟩

def callerClaims (aud : JwtAudience) : SpcsCallerTokenClaims :=
  ⟨some "SCT", some aud, some "https://acme.example", some "CALLER", some "alice"⟩

def aliceHeaders (token : String) : HeaderMap where
  get name :=
    if name = spcsCurrentUserHeader then some (.text "alice")
    else if name = spcsCurrentAccountHeader then some (.text "acme")
    else if name = spcsCurrentUserTokenHeader then some (.text token)
    else none

lemma identity_app :
    numberedTokens.identity 0 (aliceHeaders (tokenOf (callerClaims (.one "app")))) =
      some ⟨"alice", "acme", callerClaims (.one "app")⟩ := by
  refine identity_eq_some_claims_iff.mpr ⟨rfl, rfl, _,
    headerValue_eq_some rfl (trim_tokenOf _) (tokenOf_ne_empty _), ?_⟩
  exact filter_eq_some_iff.mpr ⟨decode_tokenOf (by decide), rfl⟩

theorem hashInput_separates_app :
    numberedTokens.Forgeable ∧
      ∀ now' headers' caller', numberedTokens.identity now' headers' = some caller' →
        caller'.hashInput = SpcsIdentity.hashInput ⟨"alice", "acme", callerClaims (.one "app")⟩ →
          SpcsIdentity.SameCaller ⟨"alice", "acme", callerClaims (.one "app")⟩ caller' := by
  refine ⟨forgeable_numberedTokens, ?_⟩
  refine (hashInput_separates_iff forgeable_numberedTokens identity_app).mpr
    ⟨"app", rfl, by decide, fun u v h => ?_⟩
  have hm : ',' ∈ "app".toList := by
    rw [h]
    simp
  exact absurd hm (by decide)

def twoTokens : SpcsEnv where
  isWhitespace := Char.isWhitespace
  decode _ token :=
    if token = "1" then some (callerClaims (.one "a,b"))
    else if token = "2" then some (callerClaims (.many ["a", "b"]))
    else none
  required h := by
    split_ifs at h <;> cases h <;> decide
  snowflakeIssuerHost := none
  snowflakeHost := none

theorem hashInput_collides :
    twoTokens.identity 0 (aliceHeaders "1") = some ⟨"alice", "acme", callerClaims (.one "a,b")⟩ ∧
      twoTokens.identity 0 (aliceHeaders "2") =
        some ⟨"alice", "acme", callerClaims (.many ["a", "b"])⟩ ∧
      SpcsIdentity.hashInput ⟨"alice", "acme", callerClaims (.many ["a", "b"])⟩ =
        SpcsIdentity.hashInput ⟨"alice", "acme", callerClaims (.one "a,b")⟩ ∧
      ¬SpcsIdentity.SameCaller ⟨"alice", "acme", callerClaims (.one "a,b")⟩
        ⟨"alice", "acme", callerClaims (.many ["a", "b"])⟩ := by
  refine ⟨by decide, by decide, by decide, ?_⟩
  intro h
  have hm := (h.2.2.2 "a").mpr mem_cons_self
  exact absurd hm (by decide)

end SpcsEnv

end Rustice
