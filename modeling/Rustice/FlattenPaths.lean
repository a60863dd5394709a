import Rustice.Flatten

/-!
# The Rows of FLATTEN

Every value has a list of **entries**: its items or fields with the token that leads to each.
-/

namespace Rustice

open List

open PathToken

variable {ν : Type}

namespace JsonValue

lemma nodup_entries {v : JsonValue ν} (h : v.NodeValid) : (v.entries.map Prod.fst).Nodup := by
  cases v with
  | array items =>
    rw [entries, map_map]
    have hi : Prod.fst ∘ (fun e : JsonValue ν × ℕ => (index e.2, e.1)) =
        index ∘ Prod.snd := rfl
    rw [hi, ← map_map, zipIdx_map_snd]
    exact (nodup_range' 1).map fun i j hij => index.inj hij
  | object fields =>
    rw [entries, map_map]
    have hky : Prod.fst ∘ (fun f : String × JsonValue ν => (key f.1, f.2)) =
        key ∘ Prod.fst := rfl
    rw [hky, ← map_map]
    exact h.map fun k k' hk => key.inj hk
  | _ => exact nodup_nil

/-- Pre-order. -/
def Before (value : JsonValue ν) (p q : List PathToken) : Prop :=
  (p <+: q ∧ p ≠ q) ∨ ∃ cm a b p' q' n, p = cm ++ a :: p' ∧ q = cm ++ b :: q' ∧
    getJsonValue value cm = some n ∧ [a, b] <+ n.entries.map Prod.fst

end JsonValue

open JsonValue

structure FlattenMode.Reaches (mode : FlattenMode) (value : JsonValue ν)
    (tokens : List PathToken) : Prop where
  ne_nil : tokens ≠ []
  found : (getJsonValue value tokens).isSome
  containers : ∀ p, p <+: tokens → p ≠ tokens →
    ∃ node, getJsonValue value p = some node ∧ mode.allows node = true

section Rows

variable (serde : Serde ν) (rowId : ℕ)

def IsRowOf (value : JsonValue ν) (path tokens : List PathToken) (row : FlattenRow) : Prop :=
  ∃ ps token this child, tokens = ps ++ [token] ∧ getJsonValue value ps = some this ∧
    this.get token = some child ∧ row = entryRow serde rowId this (path ++ ps) (token, child)

variable {serde rowId} {recursive rc : Bool} {mode m : FlattenMode}

/-- Rows are those of the paths in a set, in pre-order and each once. -/
structure Enumerates (serde : Serde ν) (rowId : ℕ) (S : Set (List PathToken)) (value : JsonValue ν)
    (path : List PathToken) (paths : List (List PathToken)) (rows : List FlattenRow) : Prop where
  rows : Forall₂ (IsRowOf serde rowId value path) paths rows
  nodup : paths.Nodup
  preorder : paths.Pairwise value.Before
  mem_iff : ∀ tokens, tokens ∈ paths ↔ tokens ∈ S

def FlattenMode.walked (mode : FlattenMode) (recursive : Bool) (value : JsonValue ν) :
    Set (List PathToken) :=
  {tokens | mode.Reaches value tokens ∧ (recursive = false → tokens.length = 1)}

variable {value v c : JsonValue ν} {t : PathToken} {pt tks : List PathToken}

lemma reaches_cons_iff : m.Reaches v (t :: tks) ↔ m.allows v = true ∧
    ∃ c, v.get t = some c ∧ (tks = [] ∨ m.Reaches c tks) := by
  constructor
  · intro h
    obtain ⟨n, hn, ha⟩ := h.containers [] nil_prefix (cons_ne_nil _ _).symm
    cases hn
    have hf := h.found
    rw [getJsonValue_cons] at hf
    cases hge : v.get t with
    | none => simp [hge] at hf
    | some c =>
      rw [hge] at hf
      refine ⟨ha, c, rfl, or_iff_not_imp_left.mpr fun hne => ⟨hne, hf, ?_⟩⟩
      intro p hp hn'
      obtain ⟨n, hn, ha⟩ := h.containers (t :: p) (by simpa using hp) (by simpa)
      rw [getJsonValue_cons, hge] at hn
      exact ⟨n, hn, ha⟩
  · rintro ⟨ha, c, hge, ht⟩
    refine ⟨cons_ne_nil _ _, ?_, fun p hp hne => ?_⟩
    · rw [getJsonValue_cons, hge]
      obtain rfl | ht := ht
      · rfl
      · exact ht.found
    · obtain rfl | ⟨p, rfl, hp'⟩ := prefix_cons_iff.mp hp
      · exact ⟨v, rfl, ha⟩
      · rw [getJsonValue_cons, hge]
        obtain rfl | ht := ht
        · exact absurd (by rw [prefix_nil.mp hp']) hne
        · exact ht.containers p hp' fun h => hne (by rw [h])

lemma IsRowOf.cons {row : FlattenRow} (hget : v.get t = some c)
    (h : IsRowOf serde rowId c (pt ++ [t]) tks row) : IsRowOf serde rowId v pt (t :: tks) row := by
  obtain ⟨ps, l, ts, lf, rfl, ht, hl, rfl⟩ := h
  refine ⟨t :: ps, l, ts, lf, rfl, ?_, hl, ?_⟩
  · rw [getJsonValue_cons, hget]
    exact ht
  · rw [append_assoc]
    rfl

lemma JsonValue.Before.cons {p q : List PathToken} (hget : v.get t = some c)
    (h : c.Before p q) : v.Before (t :: p) (t :: q) := by
  obtain ⟨hp, hne⟩ | ⟨common, a, b, p', q', node, rfl, rfl, hn, hab⟩ := h
  · exact .inl ⟨by simpa using hp, by simpa using hne⟩
  · refine .inr ⟨t :: common, a, b, p', q', node, rfl, rfl, ?_, hab⟩
    rw [getJsonValue_cons, hget]
    exact hn

lemma forall₂_flatMap {α β γ : Type} {R : β → γ → Prop} {f : α → List β} {g : α → List γ}
    {xs : List α} (h : ∀ x ∈ xs, Forall₂ R (f x) (g x)) :
    Forall₂ R (xs.flatMap f) (xs.flatMap g) := by
  induction xs with
  | nil => exact .nil
  | cons x xs ih =>
    obtain ⟨hx, hxs⟩ := forall_mem_cons.mp h
    exact rel_append hx (ih hxs)

def entryPaths (below : PathToken × JsonValue ν → List (List PathToken))
    (entry : PathToken × JsonValue ν) : List (List PathToken) :=
  [entry.1] :: (below entry).map (entry.1 :: ·)

section Entries

variable {bl : PathToken × JsonValue ν → List (List PathToken)} {e : PathToken × JsonValue ν}

lemma mem_entryPaths : tks ∈ entryPaths bl e ↔ ∃ r, tks = e.1 :: r ∧ (r = [] ∨ r ∈ bl e) := by
  rw [entryPaths, mem_cons, mem_map]
  constructor
  · rintro (rfl | ⟨r, hr, rfl⟩)
    · exact ⟨[], rfl, .inl rfl⟩
    · exact ⟨r, rfl, .inr hr⟩
  · rintro ⟨r, rfl, rfl | hr⟩
    · exact .inl rfl
    · exact .inr ⟨r, hr, rfl⟩

lemma pairwise_entryPaths (hget : v.get e.1 = some e.2)
    (hnil : ∀ rest ∈ bl e, rest ≠ []) (hn : (bl e).Nodup) (hb : (bl e).Pairwise e.2.Before) :
    (entryPaths bl e).Pairwise fun p q => p ≠ q ∧ v.Before p q := by
  rw [entryPaths, pairwise_cons, pairwise_map]
  constructor
  · intro q hq
    obtain ⟨rest, hr, rfl⟩ := mem_map.mp hq
    have hne : [e.1] ≠ e.1 :: rest := by simpa using (hnil rest hr).symm
    exact ⟨hne, .inl ⟨by simp, hne⟩⟩
  · refine (hn.and hb).imp fun {p q} hpq => ?_
    exact ⟨by simpa using hpq.1, hpq.2.cons hget⟩

lemma pairwise_entries (h : v.NodeValid) :
    v.entries.Pairwise fun a b => ∀ p ∈ entryPaths bl a, ∀ q ∈ entryPaths bl b,
      p ≠ q ∧ v.Before p q := by
  refine pairwise_iff_forall_sublist.mpr fun {a b} hab p hp q hq => ?_
  have ha' : [a.1, b.1] <+ v.entries.map Prod.fst := hab.map Prod.fst
  have hne := pairwise_iff_forall_sublist.mp (nodup_entries h) ha'
  obtain ⟨p, rfl, -⟩ := mem_entryPaths.mp hp
  obtain ⟨q, rfl, -⟩ := mem_entryPaths.mp hq
  exact ⟨by simp [hne], .inr ⟨[], a.1, b.1, p, q, v, rfl, rfl, rfl, ha'⟩⟩

lemma mem_walked_iff (h : value.NodeValid) (hm : m.allows value = true)
    (hb : ∀ e ∈ value.entries, ∀ r, r ∈ bl e ↔ rc = true ∧ m.Reaches e.2 r) :
    tks ∈ value.entries.flatMap (entryPaths bl) ↔ tks ∈ m.walked rc value := by
  rw [mem_flatMap, FlattenMode.walked, Set.mem_ofPred]
  constructor
  · rintro ⟨⟨t, c⟩, he, ht⟩
    obtain ⟨r, rfl, hr⟩ := mem_entryPaths.mp ht
    have hget := (mem_entries_iff h).mp he
    rw [hb _ he] at hr
    refine ⟨reaches_cons_iff.mpr ⟨hm, c, hget, hr.imp_right And.right⟩, ?_⟩
    rintro rfl
    simpa using hr
  · rintro ⟨hrea, hl⟩
    obtain - | ⟨t, r⟩ := tks
    · exact absurd rfl hrea.ne_nil
    · obtain ⟨-, c, hget, hr⟩ := reaches_cons_iff.mp hrea
      have he := (mem_entries_iff h).mpr hget
      refine ⟨_, he, mem_entryPaths.mpr ⟨r, rfl, hr.imp_right fun hr => ?_⟩⟩
      rw [hb _ he]
      cases rc with
      | false =>
        have : r = [] := by simpa using hl rfl
        exact absurd this hr.ne_nil
      | true => exact ⟨rfl, hr⟩

end Entries

lemma enumerates_of_entries (h : v.NodeValid) (bl : PathToken × JsonValue ν → List (List PathToken))
    (hb : ∀ e ∈ v.entries, Enumerates serde rowId
      {tks | rc = true ∧ m.Reaches e.2 tks} e.2 (pt ++ [e.1])
      (bl e) (expansionBelow serde rowId rc m e.2 (pt ++ [e.1]))) :
    ∃ paths,
      Enumerates serde rowId (m.walked rc v) v pt paths (expansion serde rowId rc m v pt) := by
  have hget {e} (he : e ∈ v.entries) := (mem_entries_iff h).mp he
  rw [expansion_eq_entries]
  split_ifs with hm
  · have hp := pairwise_flatMap.mpr ⟨fun e he => pairwise_entryPaths (hget he)
      (fun rest hres => (((hb e he).mem_iff rest).mp hres).2.ne_nil)
      (hb e he).nodup (hb e he).preorder, pairwise_entries h⟩
    refine ⟨_, ?_, hp.imp And.left, hp.imp And.right, fun tks =>
      mem_walked_iff h hm fun e he => (hb e he).mem_iff⟩
    refine forall₂_flatMap fun e he => .cons ?_ (forall₂_map_left_iff.mpr ?_)
    · exact ⟨[], e.1, v, e.2, rfl, rfl, hget he, by rw [append_nil]⟩
    · exact (hb e he).rows.imp fun _ _ => IsRowOf.cons (hget he)
  · refine ⟨[], .nil, nodup_nil, .nil, fun tks => iff_of_false not_mem_nil ?_⟩
    rintro ⟨hr, -⟩
    obtain ⟨node, hn, ha⟩ := hr.containers [] nil_prefix hr.ne_nil.symm
    cases hn
    exact hm ha

lemma exists_enumerates (h : v.Valid) (pt : List PathToken) :
    ∃ ps, Enumerates serde rowId (m.walked rc v) v pt ps (expansion serde rowId rc m v pt) := by
  induction v using induct_entries generalizing pt with
  | _ v ih =>
    have hn := h [] v rfl
    have hv : ∀ e ∈ v.entries, e.2.Valid := by
      intro e he p n hp
      refine h (e.1 :: p) n ?_
      rw [getJsonValue_cons, (mem_entries_iff hn).mp he]
      exact hp
    cases rc with
    | false =>
      refine enumerates_of_entries hn (fun _ => []) fun e he =>
        ⟨.nil, nodup_nil, .nil, ?_⟩
      exact fun tks => iff_of_false not_mem_nil fun ht => nomatch ht.1
    | true =>
      have hb (e : PathToken × JsonValue ν) : ∃ ps, e ∈ v.entries →
          Enumerates serde rowId (m.walked true e.2) e.2 (pt ++ [e.1]) ps
            (expansion serde rowId true m e.2 (pt ++ [e.1])) := by
        by_cases he : e ∈ v.entries
        · obtain ⟨ps, hpat⟩ := ih e he (hv e he) (pt ++ [e.1])
          exact ⟨ps, fun _ => hpat⟩
        · exact ⟨[], fun he' => absurd he' he⟩
      choose bl hb using hb
      refine enumerates_of_entries hn bl fun e he => ?_
      obtain ⟨hr, hnod, hpr, hm⟩ := hb e he
      refine ⟨hr, hnod, hpr, fun tks => (hm tks).trans ?_⟩
      simp [FlattenMode.walked]

end Rows

/-! ### Main results -/

/-- **FLATTEN appends a row for each path below the value that leads through containers of its mode,
in pre-order and each once; if it is not recursive, for each such path of length one.** -/
theorem flatten_enumerates (serde : Serde ν) (rowId : ℕ) (recursive : Bool) (mode : FlattenMode)
    (doc : JsonDocument ν) (path : List PathToken) (out : Out ν) :
    ∃ paths rows, (flatten serde rowId recursive mode doc.value path out).rows = out.rows ++ rows ∧
      Enumerates serde rowId (mode.walked recursive doc.value) doc.value path paths rows := by
  obtain ⟨paths, hp⟩ := exists_enumerates doc.valid path
  exact ⟨paths, _, rows_flatten _ _ _, hp⟩

/-- The paths of the rows that FLATTEN emits for a document. -/
def FlattenArgs.emitted (args : FlattenArgs) (doc : JsonDocument ν) : Set (List PathToken) :=
  {path | ∃ input, getJsonValue doc.value args.path = some input ∧
    ∃ tokens ∈ args.mode.walked args.isRecursive input, path = args.path ++ tokens}

/-- The text of a path is read as another one, which leads to a value with the same text. -/
def Coincides (serde : Serde ν) (value : JsonValue ν) (path : List PathToken) : Prop :=
  ∃ other ≠ path, tokenizePath (pathToString path) = some other ∧
    (getJsonValue value other).map serde.toStringPretty =
      (getJsonValue value path).map serde.toStringPretty

lemma JsonDocument.index_lt {d : JsonDocument ν} {pt : List PathToken} {n : JsonValue ν} {i : ℕ}
    (hp : getJsonValue d.value pt = some n) (ht : .index i ∈ pt) : i < 2 ^ 64 := by
  obtain ⟨l, after, rfl⟩ := append_of_mem ht
  rw [getJsonValue_append] at hp
  obtain ⟨p, hpar, hp⟩ := Option.bind_eq_some_iff.mp hp
  rw [getJsonValue_cons] at hp
  obtain ⟨child, hc, -⟩ := Option.bind_eq_some_iff.mp hp
  cases p with
  | array items =>
    obtain ⟨hlt, -⟩ := List.getElem?_eq_some_iff.mp hc
    exact hlt.trans (d.valid l _ hpar)
  | _ => cases hc

lemma getPath_pathToString_iff {serde : Serde ν} {doc : JsonDocument ν} {path : List PathToken}
    {v : JsonValue ν} (hv : getJsonValue doc.value path = some v) :
    getPath serde.toStringPretty doc.value (pathToString path) = some (serde.toStringPretty v) ↔
      (∀ k, .key k ∈ path → PlainKey k) ∨ Coincides serde doc.value path := by
  rw [getPath, Option.map_bind]
  constructor
  · intro h
    obtain ⟨other, ho, hw⟩ := Option.bind_eq_some_iff.mp h
    by_cases he : other = path
    · exact .inl fun k => plainKey_of_tokenizePath (he ▸ ho)
    · exact .inr ⟨other, he, ho, hw.trans (by rw [hv, Option.map_some])⟩
  · rintro (hk | ⟨other, -, ho, hw⟩)
    · have hp : ∀ t ∈ path, t.Plain := by
        intro t ht
        cases t with
        | key k => exact hk k ht
        | index i => exact JsonDocument.index_lt hv ht
      rw [tokenizePath_pathToString hp, Option.bind_some, Function.comp_apply, hv, Option.map_some]
    · rw [ho, Option.bind_some, Function.comp_apply, hw, hv, Option.map_some]

lemma forall_mem_iff_of_forall₂ {α β : Type} {P : α → Prop} {Q : β → Prop} {xs : List α}
    {ys : List β} (h : Forall₂ (fun x y => P x ↔ Q y) xs ys) :
    (∀ x ∈ xs, P x) ↔ ∀ y ∈ ys, Q y := by
  induction h with
  | nil => simp
  | cons hxy _ ih => rw [forall_mem_cons, forall_mem_cons, hxy, ih]

/-- **FLATTEN paths address their values** exactly if, on each emitted path, all keys are plain or
the text of the path is read as another path that leads to a value with the same text. -/
theorem getPath_flatten_iff (serde : Serde ν) (doc : JsonDocument ν) (args : FlattenArgs)
    (rowId : ℕ) :
    (∀ row ∈ (flattenDocument serde args rowId doc .new).rows,
      row.path.bind (getPath serde.toStringPretty doc.value) = row.value) ↔
    ∀ path ∈ args.emitted doc,
      (∀ k, .key k ∈ path → PlainKey k) ∨ Coincides serde doc.value path := by
  rw [flattenDocument]
  cases hi : getJsonValue doc.value args.path with
  | none => simp [FlattenArgs.emitted, hi, Out.new]
  | some input =>
    obtain ⟨paths, hr, -, -, hm⟩ :=
      @exists_enumerates ν serde rowId args.isRecursive args.mode input
      (fun p n hp => doc.valid (args.path ++ p) n (by rw [getJsonValue_append, hi]; exact hp))
      args.path
    have he : (∀ path ∈ args.emitted doc,
        (∀ k, .key k ∈ path → PlainKey k) ∨ Coincides serde doc.value path) ↔
        ∀ tokens ∈ paths, (∀ k, .key k ∈ args.path ++ tokens → PlainKey k) ∨
          Coincides serde doc.value (args.path ++ tokens) := by
      simp only [FlattenArgs.emitted, Set.mem_ofPred, hi, Option.some.injEq, hm]
      constructor
      · exact fun h tokens ht => h _ ⟨input, rfl, tokens, ht, rfl⟩
      · rintro h _ ⟨_, rfl, tokens, ht, rfl⟩
        exact h tokens ht
    rw [he]
    refine (forall_mem_iff_of_forall₂ (hr.imp fun tokens row hrow => ?_)).symm
    obtain ⟨ps, token, this, child, rfl, hp, hc, rfl⟩ := hrow
    have hv : getJsonValue doc.value (args.path ++ (ps ++ [token])) = some child := by
      rw [getJsonValue_append, hi, Option.bind_some, getJsonValue_append, hp, Option.bind_some,
        getJsonValue_singleton, hc]
    rw [← getPath_pathToString_iff hv, ← append_assoc]
    rfl

lemma valid_nullField (k : String) : (object [(k, (.null : JsonValue ν))]).Valid := by
  have hn : (object [(k, (.null : JsonValue ν))]).NodeValid := nodup_singleton k
  refine valid_of_get hn fun t c hc => ?_
  have he := (mem_entries_iff hn).mpr hc
  obtain ⟨-, rfl⟩ : t = .key k ∧ c = .null := by simpa [entries] using he
  exact valid_of_get trivial fun t c hc => by cases hc

def nullField (k : String) : JsonDocument ν := ⟨.object [(k, .null)], valid_nullField k⟩

theorem getPath_dotted_key :
    (flattenDocument sampleSerde ⟨[], false, false, .both⟩ 1 (nullField "a.b") .new).rows =
        [⟨1, some "a.b", some "a.b", none, some "null", some "\x7b\"a.b\":null\x7d"⟩] ∧
      getPath sampleSerde.toStringPretty (nullField "a.b" : JsonDocument ℕ).value "a.b" = none := by
  refine ⟨by decide, ?_⟩
  have ht : tokenizePath "a.b" = some [.key "a", .key "b"] := by
    refine @tokenizePath_pathToString [.key "a", .key "b"] ?_
    simp only [mem_cons, not_mem_nil, or_false, forall_eq_or_imp, forall_eq, PathToken.Plain]
    exact ⟨⟨by decide, by decide, List.all_eq_true.mp rfl⟩, by decide, by decide,
      List.all_eq_true.mp rfl⟩
  rw [getPath, ht]
  rfl

end Rustice
