import Rustice.DecimalText

/-!
# JSON Values and Paths

A value in a JSON document is addressed by a path, a list of object keys and array indices.
-/

namespace Rustice

open List String

variable {ν : Type} {k : String} {r : List Char} {i : ℕ}

inductive JsonValue (ν : Type) where
  | null
  | bool (b : Bool)
  | number (n : ν)
  | string (s : String)
  | array (items : List (JsonValue ν))
  | object (fields : List (String × JsonValue ν))

inductive PathToken where
  | key (k : String)
  | index (i : ℕ)
  deriving DecidableEq

namespace JsonValue

@[elab_as_elim] lemma induct {P : JsonValue ν → Prop} (null : P null) (bool : ∀ b, P (bool b))
    (number : ∀ n, P (number n)) (string : ∀ s, P (string s))
    (array : ∀ xs, (∀ v ∈ xs, P v) → P (array xs))
    (object : ∀ fs, (∀ f ∈ fs, P f.2) → P (object fs))
    (value : JsonValue ν) : P value :=
  @JsonValue.rec ν P (fun xs => ∀ v ∈ xs, P v) (fun fs => ∀ f ∈ fs, P f.2)
    (fun f => P f.2) null bool number string array object
    (forall_mem_nil _) (fun _ _ hv hi => forall_mem_cons.mpr ⟨hv, hi⟩)
    (forall_mem_nil _) (fun _ _ hfie hf => forall_mem_cons.mpr ⟨hfie, hf⟩)
    (fun _ _ hv => hv) value

def get : JsonValue ν → PathToken → Option (JsonValue ν)
  | object fields, .key k => (fields.find? fun field => field.1 = k).map Prod.snd
  | array items, .index i => items[i]?
  | _, _ => none

end JsonValue

def getJsonValue (value : JsonValue ν) : List PathToken → Option (JsonValue ν)
  | [] => some value
  | token :: tokens =>
    match value.get token with
    | some current => getJsonValue current tokens
    | none => none

@[simp] lemma getJsonValue_nil (value : JsonValue ν) : getJsonValue value [] = some value := rfl

lemma getJsonValue_cons (v : JsonValue ν) (t : PathToken) (tokens : List PathToken) :
    getJsonValue v (t :: tokens) = (v.get t).bind fun c => getJsonValue c tokens := by
  rw [getJsonValue]
  cases v.get t with
  | none => rfl
  | some c => rfl

@[simp] lemma getJsonValue_singleton (v : JsonValue ν) (token : PathToken) :
    getJsonValue v [token] = v.get token := by
  rw [getJsonValue_cons]
  cases v.get token with
  | none => rfl
  | some current => rfl

lemma getJsonValue_append (v : JsonValue ν) (p tokens : List PathToken) :
    getJsonValue v (p ++ tokens) = (getJsonValue v p).bind fun c => getJsonValue c tokens := by
  induction p generalizing v with
  | nil => rfl
  | cons token p ih =>
    rw [cons_append, getJsonValue_cons, getJsonValue_cons, Option.bind_assoc]
    simp only [ih]

/-- A node of a document in memory. -/
def JsonValue.NodeValid : JsonValue ν → Prop
  | .array items => items.length < 2 ^ 64
  | .object fields => (fields.map Prod.fst).Nodup
  | _ => True

def JsonValue.Valid (value : JsonValue ν) : Prop :=
  ∀ path node, getJsonValue value path = some node → node.NodeValid

lemma JsonValue.valid_of_get {v : JsonValue ν} (hn : v.NodeValid)
    (hget : ∀ t c, v.get t = some c → c.Valid) : v.Valid := by
  intro p n hp
  cases p with
  | nil =>
    rw [getJsonValue_nil, Option.some.injEq] at hp
    rwa [← hp]
  | cons t p =>
    rw [getJsonValue_cons] at hp
    obtain ⟨c, hc, hp⟩ := Option.bind_eq_some_iff.mp hp
    exact hget t c hc p n hp

lemma JsonValue.get_field {fs : List (String × JsonValue ν)} {field : String × JsonValue ν}
    (h : (object fs).NodeValid) (hfie : field ∈ fs) :
    (object fs).get (.key field.1) = some field.2 := by
  have hfin : (fs.find? fun f => f.1 = field.1) = some field := by
    obtain ⟨found, hf⟩ : ∃ found, (fs.find? fun f => f.1 = field.1) = some found :=
      Option.isSome_iff_exists.mp (find?_isSome.mpr ⟨field, hfie, by simp⟩)
    have hk : found.1 = field.1 := by simpa using find?_some hf
    rw [hf, inj_on_of_nodup_map h (mem_of_find?_eq_some hf) hfie hk]
  rw [get, hfin]
  rfl

namespace JsonValue

/-- The items or fields of a value, with the token that leads to each. -/
def entries : JsonValue ν → List (PathToken × JsonValue ν)
  | array items => items.zipIdx.map fun entry => (.index entry.2, entry.1)
  | object fields => fields.map fun field => (.key field.1, field.2)
  | _ => []

lemma mem_entries_iff {v child : JsonValue ν} {t : PathToken} (h : v.NodeValid) :
    (t, child) ∈ v.entries ↔ v.get t = some child := by
  cases v with
  | array items =>
    cases t with
    | key k => simp [entries, get]
    | index i => simp [entries, get, mk_mem_zipIdx_iff_getElem?]
  | object fields =>
    cases t with
    | key k =>
      rw [entries, mem_map]
      constructor
      · rintro ⟨f, hfie, heq⟩
        cases heq
        exact get_field h hfie
      · intro hget
        obtain ⟨f, hf, rfl⟩ := Option.map_eq_some_iff.mp hget
        have hk : f.1 = k := by simpa using find?_some hf
        exact ⟨f, mem_of_find?_eq_some hf, by rw [hk]⟩
    | index i => simp [entries, get]
  | _ => simp [entries, get]

lemma induct_entries {P : JsonValue ν → Prop}
    (h : ∀ value, (∀ e ∈ value.entries, P e.2) → P value) (value : JsonValue ν) : P value := by
  induction value using JsonValue.induct with
  | array items ih =>
    refine h _ fun e he => ?_
    obtain ⟨item, hi, rfl⟩ := mem_map.mp he
    exact ih _ (fst_mem_of_mem_zipIdx hi)
  | object fields ih =>
    refine h _ fun e he => ?_
    obtain ⟨field, hf, rfl⟩ := mem_map.mp he
    exact ih field hf
  | _ => exact h _ (forall_mem_nil _)

end JsonValue

structure JsonDocument (ν : Type) where
  value : JsonValue ν
  valid : value.Valid

def parseUsize (chars : List Char) : Option ℕ :=
  let digits := match chars with
    | '+' :: rest => rest
    | chars => chars
  (readDigits digits).filter (· < 2 ^ 64)

def isKeyChar (c : Char) : Bool := c ≠ '.' ∧ c ≠ ':' ∧ c ≠ '['

def tokenizeChars (chars : List Char) : Option (List PathToken) :=
  match chars with
  | [] => some []
  | c :: rest =>
    if c = '.' ∨ c = ':' then tokenizeChars rest
    else if c = '"' then
      let key := String.ofList (rest.takeWhile (· ≠ '"'))
      (tokenizeChars (rest.dropWhile (· ≠ '"')).tail).map (.key key :: ·)
    else if c = '[' then
      match parseUsize (rest.takeWhile (· ≠ ']')) with
      | some index => (tokenizeChars (rest.dropWhile (· ≠ ']')).tail).map (.index index :: ·)
      | none => none
    else
      -- A key starts here, so it is not empty.
      let key := String.ofList (c :: rest.takeWhile isKeyChar)
      (tokenizeChars (rest.dropWhile isKeyChar)).map (.key key :: ·)
termination_by chars.length
decreasing_by
  all_goals
    have hdrop := fun p => (dropWhile_suffix (l := rest) p).length_le
    simp only [length_cons, length_tail]
    first
      | omega
      | exact Nat.lt_succ_of_le (hdrop _)
      | exact Nat.lt_succ_of_le (le_trans (Nat.sub_le _ _) (hdrop _))

def tokenizePath (path : String) : Option (List PathToken) := tokenizeChars path.toList

def tokenText (idx : ℕ) : PathToken → String
  | .key k => if idx = 0 then k else "." ++ k
  | .index i => "[" ++ toString i ++ "]"

def pathTextFrom (idx : ℕ) : List PathToken → String
  | [] => ""
  | token :: tokens => tokenText idx token ++ pathTextFrom (idx + 1) tokens

def pathToString (path : List PathToken) : String := pathTextFrom 0 path

def getPath (toStringPretty : JsonValue ν → String) (value : JsonValue ν) (path : String) :
    Option String :=
  ((tokenizePath path).bind (getJsonValue value)).map toStringPretty

/-- A key that needs no quotes. -/
def PlainKey (k : String) : Prop :=
  k.toList ≠ [] ∧ k.toList.head? ≠ some '"' ∧ ∀ c ∈ k.toList, isKeyChar c = true

def PathToken.Plain : PathToken → Prop
  | key k => PlainKey k
  | index i => i < 2 ^ 64

lemma parseUsize_toDigits (hi : i < 2 ^ 64) : parseUsize (Nat.toDigits 10 i) = some i := by
  have hp : ∀ rest, Nat.toDigits 10 i ≠ '+' :: rest := by
    intro rest h
    exact ne_of_mem_toDigits (n := i) (c := '+') (by decide) (by rw [h]; exact mem_cons_self)
      rfl
  have hd : parseUsize (Nat.toDigits 10 i) =
      (readDigits (Nat.toDigits 10 i)).filter (· < 2 ^ 64) := by
    rw [parseUsize]
    exact hp
  rw [hd, readDigits_toDigits, Option.filter_some, if_pos (decide_eq_true hi)]

lemma tokenizeChars_key {rest : List Char} (hk : PlainKey k) (hr : rest.takeWhile isKeyChar = []) :
    tokenizeChars (k.toList ++ rest) = (tokenizeChars rest).map (.key k :: ·) := by
  obtain ⟨hne, hq, hch⟩ := hk
  obtain ⟨c, cs, hcs⟩ := exists_cons_of_ne_nil hne
  rw [hcs, head?_cons, ne_eq, Option.some.injEq] at hq
  rw [hcs, forall_mem_cons] at hch
  have hc : c ≠ '.' ∧ c ≠ ':' ∧ c ≠ '[' := by simpa [isKeyChar] using hch.1
  have ht : (cs ++ rest).takeWhile isKeyChar = cs := by
    rw [takeWhile_append_of_pos hch.2, hr, append_nil]
  have hd : (cs ++ rest).dropWhile isKeyChar = rest := by
    have h := List.takeWhile_append_dropWhile (p := isKeyChar) (l := cs ++ rest)
    rw [ht] at h
    exact append_cancel_left h
  have hky : String.ofList (c :: cs) = k := by rw [← hcs, ofList_toList]
  rw [hcs, cons_append, tokenizeChars]
  simp only [hc.1, hc.2.1, hc.2.2, hq, or_self, if_false, ht, hd, hky]

lemma span_of_notMem {c : Char} {cs : List Char} (h : c ∉ cs) (rest : List Char) :
    (cs ++ c :: rest).takeWhile (· ≠ c) = cs ∧ (cs ++ c :: rest).dropWhile (· ≠ c) = c :: rest := by
  have hc : ∀ d ∈ cs, decide (d ≠ c) = true := fun d hd =>
    decide_eq_true fun heq => h (heq ▸ hd)
  rw [takeWhile_append_of_pos hc, dropWhile_append_of_pos hc]
  simp

lemma tokenizeChars_index (hi : i < 2 ^ 64) :
    tokenizeChars ('[' :: Nat.toDigits 10 i ++ ']' :: r) =
      (tokenizeChars r).map (.index i :: ·) := by
  have hd := @span_of_notMem ']' (Nat.toDigits 10 i)
    (fun hc => ne_of_mem_toDigits (by decide) hc rfl) r
  rw [cons_append, tokenizeChars]
  simp only [hd.1, hd.2, parseUsize_toDigits hi, tail_cons]
  rfl

lemma toList_tokenText_index (idx i : ℕ) :
    (tokenText idx (.index i)).toList = '[' :: Nat.toDigits 10 i ++ [']'] := by
  rw [tokenText, toList_append, toList_append, toList_toString_nat]
  rfl

lemma takeWhile_pathTextFrom (idx : ℕ) (p : List PathToken) :
    (pathTextFrom (idx + 1) p).toList.takeWhile isKeyChar = [] := by
  cases p with
  | nil => rfl
  | cons t p =>
    cases t with
    | key k => simp [pathTextFrom, tokenText, isKeyChar]
    | index i => simp [pathTextFrom, tokenText, isKeyChar]

lemma tokenizeChars_pathTextFrom {idx : ℕ} {path : List PathToken} (hpat : ∀ t ∈ path, t.Plain) :
    tokenizeChars (pathTextFrom (idx + 1) path).toList = some path := by
  induction path generalizing idx with
  | nil =>
    rw [pathTextFrom]
    simp [tokenizeChars]
  | cons t path ih =>
    obtain ⟨htok, ht⟩ := forall_mem_cons.mp hpat
    rw [pathTextFrom, toList_append]
    cases t with
    | key k =>
      rw [tokenText, if_neg (Nat.succ_ne_zero idx), toList_append, List.append_assoc]
      have hp : tokenizeChars ('.' :: (k.toList ++ (pathTextFrom (idx + 1 + 1) path).toList))
          = tokenizeChars (k.toList ++ (pathTextFrom (idx + 1 + 1) path).toList) := by
        rw [tokenizeChars]
        simp
      refine hp.trans ?_
      rw [tokenizeChars_key htok (takeWhile_pathTextFrom _ _), ih ht, Option.map_some]
    | index i =>
      rw [toList_tokenText_index, List.append_assoc, singleton_append,
        tokenizeChars_index htok, ih ht, Option.map_some]

lemma tokenizePath_pathToString {path : List PathToken} (hp : ∀ t ∈ path, t.Plain) :
    tokenizePath (pathToString path) = some path := by
  rw [tokenizePath, pathToString]
  cases path with
  | nil => simp [pathTextFrom, tokenizeChars]
  | cons t path =>
    obtain ⟨htok, ht⟩ := forall_mem_cons.mp hp
    cases t with
    | key k =>
      rw [pathTextFrom, tokenText, if_pos rfl, toList_append,
        tokenizeChars_key htok (takeWhile_pathTextFrom _ _),
        tokenizeChars_pathTextFrom ht, Option.map_some]
    | index i =>
      rw [pathTextFrom, toList_append, toList_tokenText_index, List.append_assoc, singleton_append,
        tokenizeChars_index htok, tokenizeChars_pathTextFrom ht, Option.map_some]

/-- How many double quotes the keys of a path have. -/
def quotesIn : List PathToken → ℕ
  | [] => 0
  | .key k :: path => k.toList.count '"' + quotesIn path
  | .index _ :: path => quotesIn path

lemma count_pathTextFrom (idx : ℕ) (p : List PathToken) :
    (pathTextFrom idx p).toList.count '"' = quotesIn p := by
  induction p generalizing idx with
  | nil => rfl
  | cons t p ih =>
    rw [pathTextFrom, toList_append, count_append, ih]
    cases t with
    | key k =>
      rw [tokenText, quotesIn, Nat.add_right_cancel_iff]
      split_ifs
      · rfl
      · rw [toList_append]
        exact count_cons_of_ne (by decide)
    | index i =>
      have hd : '"' ∉ Nat.toDigits 10 i := fun hc => ne_of_mem_toDigits (by decide) hc rfl
      rw [toList_tokenText_index, quotesIn, count_append, count_cons_of_ne (by decide),
        count_eq_zero.mpr hd]
      exact Nat.zero_add _

/-- A key that is read in quotes loses them, so a text whose quotes are all read has plain keys. -/
lemma quotesIn_of_tokenizeChars {cs : List Char} {ts : List PathToken}
    (h : tokenizeChars cs = some ts) : quotesIn ts ≤ cs.count '"' ∧
      (quotesIn ts = cs.count '"' → ∀ k, .key k ∈ ts → PlainKey k) := by
  fun_induction tokenizeChars cs generalizing ts with
  | case1 =>
    cases h
    exact ⟨Nat.le_refl 0, fun _ _ hk => absurd hk not_mem_nil⟩
  | case2 c r hc ih =>
    rw [count_cons_of_ne (by rintro rfl; simp at hc)]
    exact ih h
  | case3 r key hc =>
    rename_i ih
    obtain ⟨ts, ht, rfl⟩ := Option.map_eq_some_iff.mp h
    have hle := (ih ht).1
    have hr := ((tail_suffix _).trans (dropWhile_suffix (l := r) (· ≠ '"'))).sublist.count_le '"'
    have hk : (r.takeWhile (· ≠ '"')).count '"' = 0 :=
      count_eq_zero.mpr fun hm => by simpa using mem_takeWhile_imp hm
    rw [quotesIn, toList_ofList, hk, count_cons_self]
    omega
  | case4 r index hi hc hq ih =>
    obtain ⟨ts, ht, rfl⟩ := Option.map_eq_some_iff.mp h
    obtain ⟨hle, hp⟩ := ih ht
    have hr := ((tail_suffix _).trans (dropWhile_suffix (l := r) (· ≠ ']'))).sublist.count_le '"'
    rw [count_cons_of_ne (by decide), quotesIn]
    exact ⟨hle.trans hr, fun he k hk => hp (by omega) k (by simpa using hk)⟩
  | case5 => cases h
  | case6 c r hc hq hb key =>
    rename_i ih
    obtain ⟨ts, ht, rfl⟩ := Option.map_eq_some_iff.mp h
    obtain ⟨hle, hp⟩ := ih ht
    have hn : (c :: r).count '"' =
        (c :: r.takeWhile isKeyChar).count '"' + (r.dropWhile isKeyChar).count '"' := by
      rw [← count_append, cons_append, List.takeWhile_append_dropWhile]
    rw [quotesIn, toList_ofList, hn]
    refine ⟨by omega, fun he k hm => ?_⟩
    rcases mem_cons.mp hm with hm | hm
    · rw [PathToken.key.inj hm, PlainKey, toList_ofList]
      refine ⟨cons_ne_nil _ _, by simpa using hq, forall_mem_cons.mpr
        ⟨by simpa [isKeyChar, hb] using hc, fun _ => mem_takeWhile_imp⟩⟩
    · exact hp (by omega) k hm

lemma plainKey_of_tokenizePath {path : List PathToken}
    (h : tokenizePath (pathToString path) = some path) (hk : .key k ∈ path) : PlainKey k :=
  (quotesIn_of_tokenizeChars h).2 (count_pathTextFrom 0 path).symm k hk

/-- A path with its keys in double quotes and a dot before each key but a leading one. -/
def quotedText (leading : Bool) : List PathToken → List Char
  | [] => []
  | .key k :: path =>
    (if leading then [] else ['.']) ++ ('"' :: k.toList ++ '"' :: quotedText false path)
  | .index i :: path => '[' :: Nat.toDigits 10 i ++ ']' :: quotedText false path

def PathToken.Quotable : PathToken → Prop
  | key k => '"' ∉ k.toList
  | index i => i < 2 ^ 64

lemma tokenizeChars_quoted (hk : '"' ∉ k.toList) :
    tokenizeChars ('"' :: k.toList ++ '"' :: r) = (tokenizeChars r).map (.key k :: ·) := by
  have hd := span_of_notMem hk r
  rw [cons_append, tokenizeChars]
  simp only [hd.1, hd.2, tail_cons, ofList_toList]
  rfl

lemma tokenizeChars_quotedText (l : Bool) (p : List {t : PathToken // t.Quotable}) :
    tokenizeChars (quotedText l (p.map (·.1))) = some (p.map (·.1)) := by
  induction p generalizing l with
  | nil => rw [map_nil, quotedText, tokenizeChars]
  | cons tk p ih =>
    obtain ⟨_ | _, ht⟩ := tk
    · have hq := (tokenizeChars_quoted ht).trans (congrArg (Option.map _) (ih false))
      cases l with
      | true => exact hq
      | false =>
        rw [map_cons, quotedText]
        exact (by rw [tokenizeChars]; simp : tokenizeChars ('.' :: _) = _).trans hq
    · exact (tokenizeChars_index ht).trans (congrArg (Option.map _) (ih false))

/-! ### Main result -/

/-- **Quoted paths are read back, and paths compose.** -/
theorem tokenizePath_quotedText (path : List {t : PathToken // t.Quotable}) (value : JsonValue ν)
    (first second : List PathToken) :
    tokenizePath (.ofList (quotedText true (path.map (·.1)))) = some (path.map (·.1)) ∧
      getJsonValue value (first ++ second) =
        (getJsonValue value first).bind fun current => getJsonValue current second := by
  rw [tokenizePath, toList_ofList, tokenizeChars_quotedText]
  exact ⟨rfl, getJsonValue_append value first second⟩

end Rustice
