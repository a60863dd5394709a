import Rustice.TopLimit
import Mathlib.Data.Fintype.Basic

/-!
# Shapes of Queries with TOP

Two queries have the same shape if they differ in their numbers and in what their parts compute
only.
-/

namespace Rustice

variable {ρ : Type} {d : TopQueries ρ}

def Top.erase (top : Top) : Top :=
  { top with quantity := top.quantity.map fun _ => .constant 0 }

def LimitClause.erase : LimitClause → LimitClause
  | limitOffset limit offset => limitOffset (limit.map fun _ => 0) (offset.map fun _ => 0)
  | offsetCommaLimit _ _ => offsetCommaLimit 0 0

mutual

def TopSetExpr.erase : TopSetExpr ρ → TopSetExpr ρ
  | .select top derived _ => .select (top.map Top.erase) derived.erase fun _ _ => []
  | .query query => .query query.erase
  | .setOperation op all left right => .setOperation op all left.erase right.erase
  | .other _ => .other fun _ => []

def TopQuery.erase : TopQuery ρ → TopQuery ρ
  | .mk cteTables body limitClause =>
    .mk cteTables.erase body.erase (limitClause.map LimitClause.erase)

def TopQueries.erase : TopQueries ρ → TopQueries ρ
  | .nil => .nil
  | .cons query queries => .cons query.erase queries.erase

end

def TopQuery.SameShape (query query' : TopQuery ρ) : Prop :=
  query.erase = query'.erase

open TopQuery

lemma isSome_rows_map_erase (t : Option Top) :
    (Top.rows (t.map Top.erase)).isSome = (Top.rows t).isSome := by
  rcases t with - | ⟨quantity, (- | -), (- | -)⟩ <;> simp [Top.rows, Top.erase]

lemma any_map_erase (t : Option Top) : ((t.map Top.erase).any fun t => !t.percent && !t.withTies) =
    t.any fun t => !t.percent && !t.withTies := by
  cases t <;> rfl

namespace TopSetExpr

@[simp] lemma claims_erase : ∀ b : TopSetExpr ρ, b.erase.claims = b.claims
  | .select top _ _ => isSome_rows_map_erase top
  | .query _ => rfl
  | .setOperation _ _ left right => by rw [erase, claims, claims, claims_erase, claims_erase]
  | .other _ => rfl

@[simp] lemma asks_erase : ∀ b : TopSetExpr ρ, b.erase.asks = b.asks
  | .select top _ _ => any_map_erase top
  | .query _ => rfl
  | .setOperation _ _ left right => by rw [erase, asks, asks, asks_erase, asks_erase]
  | .other _ => rfl

@[simp] lemma isSelect_erase (b : TopSetExpr ρ) : b.erase.isSelect = b.isSelect := by
  cases b <;> rfl

end TopSetExpr

lemma limitSafe_erase (b : TopSetExpr ρ) (clause : Option LimitClause) :
    LimitSafe b.erase (clause.map LimitClause.erase) ↔ LimitSafe b clause := by
  rcases clause with - | ⟨⟨- | l, - | o⟩ | ⟨o, l⟩⟩ <;>
    simp [LimitSafe, LimitClause.erase]

mutual

lemma TopSetExpr.safe_erase : ∀ b : TopSetExpr ρ, b.erase.Safe ↔ b.Safe
  | .select _ derived _ => derived.safe_erase
  | .query query => query.safe_erase
  | .setOperation _ _ left right => and_congr left.safe_erase right.safe_erase
  | .other _ => Iff.rfl

lemma TopQuery.safe_erase : ∀ q : TopQuery ρ, q.erase.Safe ↔ q.Safe
  | .mk ct b limitClause =>
    and_congr ct.safe_erase
      (and_congr b.safe_erase (limitSafe_erase b limitClause))

lemma TopQueries.safe_erase : ∀ qs : TopQueries ρ, qs.erase.Safe ↔ qs.Safe
  | .nil => Iff.rfl
  | .cons query qs => and_congr query.safe_erase qs.safe_erase

end

lemma TopQuery.SameShape.safe_iff {q q' : TopQuery ρ} (h : q.SameShape q') : q.Safe ↔ q'.Safe := by
  rw [← q.safe_erase, ← q'.safe_erase, h]

def picked : List (List (Fin 3)) :=
  [[], [0], [1], [2], [0, 1], [0, 2], [1, 2], [0, 1, 2]]

def passLeft : SetOperator → List (Fin 3)
  | .intersect => [0, 1, 2]
  | _ => []

def passRight : SetOperator → List (Fin 3)
  | .union => []
  | _ => [0, 1, 2]

lemma setOperation_passLeft (op : SetOperator) (a : Bool) :
    ∀ rows ∈ picked, setOperation op a rows (passLeft op) = rows := by
  cases op <;> cases a <;> decide

lemma setOperation_passRight (op : SetOperator) (all : Bool) :
    ∀ rows ∈ picked, setOperation op all (passRight op) rows ∈ picked ∧
      ∀ rows' ∈ picked, setOperation op all (passRight op) rows =
        setOperation op all (passRight op) rows' → rows = rows' := by
  cases op <;> cases all <;> decide

lemma passLeft_mem (op : SetOperator) : passLeft op ∈ picked := by
  cases op <;> decide

lemma passRight_mem (op : SetOperator) : passRight op ∈ picked := by
  cases op <;> decide

lemma length_le_of_mem_picked : ∀ rows ∈ picked, rows.length ≤ 3 := by decide

/-- The rows of a body with a `TOP 1` in it and without. -/
def brokenPairs : List (List (Fin 3) × List (Fin 3)) :=
  [([0, 2], [0, 1, 2]), ([0, 1], [0, 1, 2]), ([], [1]), ([1], []), ([2], []), ([0, 1, 2], [0, 2])]

lemma ne_take_of_mem_brokenPairs :
    ∀ p ∈ brokenPairs, p.1 ∈ picked ∧ p.2 ∈ picked ∧ p.2.take 1 ∈ picked ∧ p.1 ≠ p.2.take 1 := by
  decide

lemma passRight_mem_brokenPairs (op : SetOperator) (a : Bool) :
    ∀ p ∈ brokenPairs, (setOperation op a (passRight op) p.1,
      setOperation op a (passRight op) p.2) ∈ brokenPairs := by
  cases op <;> cases a <;> decide

/-- Rows of both arms that tell a `TOP 1` of the left one from a `LIMIT 1`. -/
def breakLeft : SetOperator → List (Fin 3) × List (Fin 3)
  | .union => ([0, 1], [2])
  | .intersect => ([0, 1], [1])
  | _ => ([0, 1], [0])

def breakRight : SetOperator → List (Fin 3) × List (Fin 3)
  | .union => ([1, 2], [0])
  | _ => ([0, 1], [1])

lemma breakLeft_mem (op : SetOperator) (a : Bool) :
    (breakLeft op).1 ∈ picked ∧ (breakLeft op).2 ∈ picked ∧
      (setOperation op a ((breakLeft op).1.take 1) (breakLeft op).2,
        setOperation op a (breakLeft op).1 (breakLeft op).2) ∈ brokenPairs := by
  cases op <;> cases a <;> decide

lemma breakRight_mem (op : SetOperator) (a : Bool) :
    (breakRight op).1 ∈ picked ∧ (breakRight op).2 ∈ picked ∧
      (setOperation op a (breakRight op).2 ((breakRight op).1.take 1),
        setOperation op a (breakRight op).2 (breakRight op).1) ∈ brokenPairs := by
  cases op <;> cases a <;> decide

def bigTop (top : Option Top) : Option Top :=
  top.map fun top => { top with quantity := top.quantity.map fun _ => .constant 3 }

def bigClause (clause : Option LimitClause) : Option LimitClause :=
  clause.map fun clause =>
    match clause with
    | .limitOffset limit offset => .limitOffset (limit.map fun _ => 3) (offset.map fun _ => 0)
    | .offsetCommaLimit _ _ => .offsetCommaLimit 0 3

lemma erase_bigTop (t : Option Top) : (bigTop t).map Top.erase = t.map Top.erase := by
  rcases t with - | ⟨- | quantity, percent, withTies⟩ <;> rfl

lemma erase_bigClause (cl : Option LimitClause) :
    (bigClause cl).map LimitClause.erase = cl.map LimitClause.erase := by
  rcases cl with - | ⟨⟨- | l, - | o⟩ | ⟨o, l⟩⟩ <;> rfl

lemma hasLimit_bigClause (clause : Option LimitClause) :
    hasLimit (bigClause clause) = hasLimit clause := by
  rcases clause with - | ⟨⟨- | l, - | o⟩ | ⟨o, l⟩⟩ <;> rfl

lemma getD_offset_bigClause {cl : Option LimitClause} {l o : Option ℕ}
    (h : ensureLimitClause (bigClause cl) = some (l, o)) : o.getD 0 = 0 := by
  rcases cl with - | ⟨⟨- | l, - | o⟩ | ⟨o, l⟩⟩ <;> cases h <;> rfl

section Big

variable {rows : List ρ} (hrows : rows.length ≤ 3)

include hrows

lemma applyLimit_bigClause (cl : Option LimitClause) : applyLimit (bigClause cl) rows = rows := by
  rcases cl with - | ⟨⟨- | l, - | o⟩ | ⟨o, l⟩⟩ <;>
    simp [bigClause, applyLimit, List.take_of_length_le hrows]

lemma applyTop_bigTop (t : Option Top) : applyTop (bigTop t) rows = rows := by
  rcases t with - | ⟨- | quantity, (- | -), (- | -)⟩ <;>
    simp [bigTop, applyTop, Top.rows, TopQuantity.toExpr, List.take_of_length_le hrows]

end Big

lemma processTop_bigTop {top top' : Option Top} {cl clause' : Option LimitClause}
    (h : processTop (bigTop top) cl = some (top', clause')) {rows : List ρ}
    (hrows : rows.length ≤ 3) :
    applyTop top' rows = rows ∧ applyLimit clause' rows = applyLimit cl rows := by
  by_cases hl : hasLimit cl = true
  · obtain ⟨rfl, rfl⟩ := processTop_hasLimit hl h
    exact ⟨applyTop_bigTop hrows top, rfl⟩
  rw [Bool.not_eq_true] at hl
  cases hn : Top.rows (bigTop top) with
  | none =>
    have hcom : ∀ o l, cl = some (.offsetCommaLimit o l) →
        ((bigTop top).any fun top => !top.percent && !top.withTies) = false := by
      rintro o l rfl
      cases hl
    obtain ⟨clause₁, h', hs⟩ := processTop_keeps hcom fun _ => hn
    rw [h'] at h
    cases h
    exact ⟨applyTop_bigTop hrows top, hs.applyLimit_eq rows⟩
  | some n =>
    obtain ⟨off, hc, -, h'⟩ := @processTop_claims ρ _ _ _ hn hl
    have ht : n = 3 := by
      rcases top with - | ⟨- | quantity, (- | -), (- | -)⟩ <;> cases hn
      rfl
    rw [h'] at h
    cases h
    refine ⟨rfl, ?_⟩
    have hd : (rows.drop (off.getD 0)).length ≤ n := by
      rw [List.length_drop]
      omega
    rw [hc, applyLimit]
    exact List.take_of_length_le hd

section Yields

variable [DecidableEq ρ] (e : Fin 3 ↪ ρ)

/-- The rows, and those of the rewritten one; the clause keeps its effect on three rows. -/
def YieldsSetExpr (body : TopSetExpr ρ) (before after : CteRows ρ → List (Fin 3)) : Prop :=
  ∀ cs, evalSetExpr body cs = (before cs).map e ∧
    ∀ clause body' clause', processSetExpr body clause = some (body', clause') →
      evalSetExpr body' cs = (after cs).map e ∧
        ∀ rows : List ρ, rows.length ≤ 3 → applyLimit clause' rows = applyLimit clause rows

def YieldsQuery (query : TopQuery ρ) (before after : CteRows ρ → List (Fin 3)) : Prop :=
  ∀ cs, evalQuery query cs = (before cs).map e ∧
    ∀ query', processQuery query = some query' → evalQuery query' cs = (after cs).map e

variable {e} {before bf after af : CteRows ρ → List (Fin 3)} {op : SetOperator} {rs : List (List ρ)}
  {all : Bool} {i : ℕ}

omit [DecidableEq ρ] in
lemma length_map_le {rows : List (Fin 3)} (h : rows ∈ picked) : (rows.map e).length ≤ 3 := by
  rw [List.length_map]
  exact length_le_of_mem_picked rows h

lemma yieldsSetExpr_select {t : Option Top} {r : CteRows ρ → List (List ρ) → List ρ}
    (hb : ∀ cs, bf cs ∈ picked) (ha : ∀ cs, after cs ∈ picked)
    (hr : ∀ cs, r cs (evalDerived d cs) = (bf cs).map e)
    (hr' : ∀ d', processQueries d = some d' → ∀ cs, r cs (evalDerived d' cs) = (after cs).map e) :
    YieldsSetExpr e (.select (bigTop t) d r) bf after := by
  intro cs
  refine ⟨?_, fun cl body' clause' h => ?_⟩
  · rw [evalSetExpr, hr, applyTop_bigTop (length_map_le (hb cs))]
  · obtain ⟨d', t', hd, ht, rfl⟩ := processSetExpr_select_eq_some.mp h
    refine ⟨?_, fun rows hrows => (processTop_bigTop ht hrows).2⟩
    rw [evalSetExpr, hr' d' hd, (processTop_bigTop ht (length_map_le (ha cs))).1]

lemma yieldsSetExpr_query {q : TopQuery ρ}
    (h : YieldsQuery e q bf after) : YieldsSetExpr e (.query q) bf after := by
  intro cs
  refine ⟨(h cs).1, fun cl body' clause' hp => ?_⟩
  obtain ⟨q', hq, rfl, rfl⟩ := processSetExpr_query_eq_some.mp hp
  exact ⟨(h cs).2 q' hq, fun _ _ => rfl⟩

lemma yieldsSetExpr_setOperation {l r : TopSetExpr ρ} {b a bf af : CteRows ρ → List (Fin 3)}
    (hlef : YieldsSetExpr e l b a) (hrig : YieldsSetExpr e r bf af) :
    YieldsSetExpr e (.setOperation op all l r) (fun cs => setOperation op all (b cs) (bf cs))
      (fun cs => setOperation op all (a cs) (af cs)) := by
  intro cs
  refine ⟨?_, fun cl body' clause' h => ?_⟩
  · rw [evalSetExpr, (hlef cs).1, (hrig cs).1, setOperation_map e.injective]
  · obtain ⟨l', clause₁, hl, r', hr, rfl⟩ := processSetExpr_setOperation_eq_some.mp h
    obtain ⟨hel, hc₁⟩ := (hlef cs).2 _ _ _ hl
    obtain ⟨her, hc₂⟩ := (hrig cs).2 _ _ _ hr
    refine ⟨?_, fun rows hrows => (hc₂ rows hrows).trans (hc₁ rows hrows)⟩
    rw [evalSetExpr, hel, her, setOperation_map e.injective]

lemma yieldsQuery_mk {b : TopSetExpr ρ}
    {cl : Option LimitClause} {before' after' : CteRows ρ → List (Fin 3)}
    (hb : YieldsSetExpr e b bf af)
    (hbef : ∀ cs, bf (evalCtes d cs) = before' cs ∧ before' cs ∈ picked)
    (ha : ∀ cteTables', processQueries d = some cteTables' →
      ∀ cs, af (evalCtes cteTables' cs) = after' cs ∧ after' cs ∈ picked) :
    YieldsQuery e (.mk d b (bigClause cl)) before' after' := by
  intro cs
  refine ⟨?_, fun query' h => ?_⟩
  · obtain ⟨heq, hm⟩ := hbef cs
    rw [evalQuery, (hb _).1, heq, applyLimit_bigClause (length_map_le hm)]
  · obtain ⟨cteTables', body', clause', hct, hp, rfl⟩ := processQuery_eq_some.mp h
    obtain ⟨heq, hm⟩ := ha cteTables' hct cs
    obtain ⟨he, hc⟩ := (hb (evalCtes cteTables' cs)).2 _ _ _ hp
    rw [evalQuery, he, heq, hc _ (length_map_le hm), applyLimit_bigClause (length_map_le hm)]

def TopQueries.length : TopQueries ρ → ℕ
  | .nil => 0
  | .cons _ queries => queries.length + 1

omit [DecidableEq ρ] in
lemma length_of_processQueries : ∀ {qs qs' : TopQueries ρ},
  processQueries qs = some qs' → qs'.length = qs.length
  | .nil, _, h => by
    cases h
    rfl
  | .cons query qs, _, h => by
    obtain ⟨query', qs', -, hq, rfl⟩ := processQueries_cons_eq_some.mp h
    rw [TopQueries.length, TopQueries.length, length_of_processQueries hq]

lemma drop_evalCtes : ∀ (qs : TopQueries ρ) (cs : CteRows ρ), (evalCtes qs cs).drop qs.length = cs
  | .nil, _ => rfl
  | .cons query qs, cs => by
    rw [evalCtes, TopQueries.length, ← List.drop_drop, drop_evalCtes qs]
    rfl

mutual

lemma exists_yieldsSetExpr : ∀ (b : TopSetExpr ρ) (rows : CteRows ρ → List (Fin 3)),
  (∀ cs, rows cs ∈ picked) → ∃ body', body'.erase = b.erase ∧ YieldsSetExpr e body' rows rows
  | .select top derived rest, rows, hrows => by
    refine ⟨.select (bigTop top) derived fun cs _ => (rows cs).map e, ?_,
      yieldsSetExpr_select hrows hrows (fun _ => rfl) fun _ _ _ => rfl⟩
    rw [TopSetExpr.erase, TopSetExpr.erase, erase_bigTop]
  | .query query, rows, hrows => by
    obtain ⟨query', he, hy⟩ := exists_yieldsQuery query rows hrows
    exact ⟨.query query', by rw [TopSetExpr.erase, TopSetExpr.erase, he], yieldsSetExpr_query hy⟩
  | .setOperation op all left right, rows, hrows => by
    obtain ⟨left', he, hl⟩ := exists_yieldsSetExpr left rows hrows
    obtain ⟨right', he', hr⟩ :=
      exists_yieldsSetExpr right (fun _ => passLeft op) fun _ => passLeft_mem op
    refine ⟨.setOperation op all left' right', ?_, ?_⟩
    · rw [TopSetExpr.erase, TopSetExpr.erase, he, he']
    · have hp : (fun cs => setOperation op all (rows cs) (passLeft op)) = rows :=
        funext fun cs => setOperation_passLeft op all _ (hrows cs)
      have hy := @yieldsSetExpr_setOperation _ _ _ op all _ _ _ _ _ _ hl hr
      rwa [hp] at hy
  | .other _, rows, _ =>
    ⟨.other fun cs => (rows cs).map e, rfl, fun cs => ⟨rfl, fun _ _ _ h => by
      cases h
      exact ⟨rfl, fun _ _ => rfl⟩⟩⟩

lemma exists_yieldsQuery : ∀ (q : TopQuery ρ) (rows : CteRows ρ → List (Fin 3)),
  (∀ cs, rows cs ∈ picked) → ∃ q', q'.erase = q.erase ∧ YieldsQuery e q' rows rows
  | .mk ct b cl, rows, hrows => by
    -- The body looks past the common table expressions of the query.
    obtain ⟨body', he, hb⟩ :=
      exists_yieldsSetExpr b (fun cs => rows (cs.drop ct.length))
        fun _ => hrows _
    refine ⟨.mk ct body' (bigClause cl), ?_, yieldsQuery_mk hb ?_ ?_⟩
    · rw [erase, erase, he, erase_bigClause]
    · intro cs
      rw [drop_evalCtes]
      exact ⟨rfl, hrows cs⟩
    · intro cteTables' hc cs
      rw [← length_of_processQueries hc, drop_evalCtes]
      exact ⟨rfl, hrows cs⟩

end

variable (e) in
/-- With `TOP 1` first: the rows, and those of the rewritten one under the clause with the `TOP`. -/
def YieldsClaimed (body : TopSetExpr ρ) (before after : List (Fin 3)) : Prop :=
  ∀ cs, evalSetExpr body cs = before.map e ∧ ∀ clause body' clause', hasLimit clause = false →
      processSetExpr body clause = some (body', clause') →
      evalSetExpr body' cs = after.map e ∧
        ∃ o, ensureLimitClause clause = some (none, o) ∧ clause' = some (.limitOffset (some 1) o)

lemma exists_yieldsClaimed_select {b : TopSetExpr ρ} (hs : b.isSelect = true)
    (hc : b.claims = true) (rows : List (Fin 3)) :
    ∃ body', body'.erase = b.erase ∧ YieldsClaimed e body' (rows.take 1) rows := by
  match b, hs with
  | .select (some ⟨some quantity, false, false⟩) derived rest, _ =>
    refine ⟨.select (some ⟨some (.constant 1), false, false⟩) derived fun _ _ => rows.map e, rfl,
      fun ctes => ⟨?_, fun cl body' clause' hl h => ?_⟩⟩
    · exact (List.map_take).symm
    · obtain ⟨o, -, he, ht⟩ := @processTop_claims ρ
        (some ⟨some (.constant 1), false, false⟩) cl 1 rfl hl
      obtain ⟨derived', top', -, hp, rfl⟩ := processSetExpr_select_eq_some.mp h
      rw [ht] at hp
      cases hp
      exact ⟨rfl, o, he, rfl⟩

lemma yieldsClaimed_left {l r : TopSetExpr ρ}
    {bf af rows : List (Fin 3)} (hlef : YieldsClaimed e l bf af)
    (hrig : YieldsSetExpr e r (fun _ => rows) fun _ => rows) :
    YieldsClaimed e (.setOperation op all l r) (setOperation op all bf rows)
      (setOperation op all af rows) := by
  intro cs
  refine ⟨?_, fun cl body' clause' hlim h => ?_⟩
  · rw [evalSetExpr, (hlef cs).1, (hrig cs).1, setOperation_map e.injective]
  · obtain ⟨l', clause₁, hl, r', hr, rfl⟩ := processSetExpr_setOperation_eq_some.mp h
    obtain ⟨hev, o, he, hc⟩ := (hlef cs).2 _ _ _ hlim hl
    -- The clause has a limit now, so the right arm leaves it alone.
    subst hc
    refine ⟨?_, o, he, processSetExpr_hasLimit r rfl hr⟩
    rw [evalSetExpr, hev, ((hrig cs).2 _ _ _ hr).1, setOperation_map e.injective]

lemma yieldsClaimed_right {l r : TopSetExpr ρ} {bf af rows : List (Fin 3)} (hc : l.claims = false)
    (hlef : YieldsSetExpr e l (fun _ => rows) fun _ => rows) (hrig : YieldsClaimed e r bf af) :
    YieldsClaimed e (.setOperation op all l r) (setOperation op all rows bf)
      (setOperation op all rows af) := by
  intro cs
  refine ⟨?_, fun cl body' clause' hlim h => ?_⟩
  · rw [evalSetExpr, (hlef cs).1, (hrig cs).1, setOperation_map e.injective]
  · obtain ⟨l', clause₁, hl, r', hr, rfl⟩ := processSetExpr_setOperation_eq_some.mp h
    have hs := processSetExpr_unclaimed l hc hl
    obtain ⟨hev, o, he, hcl⟩ :=
      (hrig cs).2 _ _ _ (hs.hasLimit_eq.trans hlim) hr
    refine ⟨?_, o, ?_, hcl⟩
    · rw [evalSetExpr, hev, ((hlef cs).2 _ _ _ hl).1, setOperation_map e.injective]
    · rw [← he]
      rcases hs with hs | ⟨rfl, hs⟩
      · exact congrArg ensureLimitClause hs.symm
      · rw [hs]
        rfl

lemma exists_yieldsClaimed : ∀ b : TopSetExpr ρ, b.claims = true → b.isSelect = false →
  ∃ body' bf af, body'.erase = b.erase ∧ (bf, af) ∈ brokenPairs ∧ YieldsClaimed e body' bf af
  | .setOperation op all left right, hc, _ => by
    by_cases hl : left.claims = true
    · by_cases hs : left.isSelect = true
      · -- The `SELECT` is the left arm.
        obtain ⟨-, hrows, hb⟩ := breakLeft_mem op all
        obtain ⟨left', he, hy⟩ :=
          @exists_yieldsClaimed_select _ _ e left hs hl (breakLeft op).1
        obtain ⟨right', he', hr⟩ :=
          @exists_yieldsSetExpr _ _ e right (fun _ => (breakLeft op).2) fun _ => hrows
        exact ⟨_, _, _, by rw [TopSetExpr.erase, TopSetExpr.erase, he, he'], hb,
          yieldsClaimed_left hy hr⟩
      · obtain ⟨left', bf, af, he, hb, hy⟩ :=
          exists_yieldsClaimed left hl (Bool.not_eq_true _ ▸ hs)
        obtain ⟨right', he', hr⟩ :=
          @exists_yieldsSetExpr _ _ e right (fun _ => passLeft op) fun _ => passLeft_mem op
        obtain ⟨hbef, ha, -⟩ := ne_take_of_mem_brokenPairs _ hb
        refine ⟨_, _, _, by rw [TopSetExpr.erase, TopSetExpr.erase, he, he'], ?_,
          @yieldsClaimed_left _ _ _ op all _ _ _ _ _ hy hr⟩
        rwa [setOperation_passLeft op all _ hbef, setOperation_passLeft op all _ ha]
    · rw [Bool.not_eq_true] at hl
      have hr : right.claims = true := by rwa [TopSetExpr.claims, hl, Bool.false_or] at hc
      by_cases hs : right.isSelect = true
      · -- The `SELECT` is the right arm.
        obtain ⟨-, hrows, hb⟩ := breakRight_mem op all
        obtain ⟨right', he, hy⟩ :=
          @exists_yieldsClaimed_select _ _ e right hs hr (breakRight op).1
        obtain ⟨left', he', hy'⟩ :=
          @exists_yieldsSetExpr _ _ e left (fun _ => (breakRight op).2) fun _ => hrows
        have hc' : left'.claims = false := by
          rw [← TopSetExpr.claims_erase, he', TopSetExpr.claims_erase, hl]
        exact ⟨_, _, _, by rw [TopSetExpr.erase, TopSetExpr.erase, he, he'], hb,
          yieldsClaimed_right hc' hy' hy⟩
      · obtain ⟨right', bf, af, he, hb, hy⟩ :=
          exists_yieldsClaimed right hr (Bool.not_eq_true _ ▸ hs)
        obtain ⟨left', he', hy'⟩ :=
          @exists_yieldsSetExpr _ _ e left (fun _ => passRight op) fun _ => passRight_mem op
        have hc' : left'.claims = false := by
          rw [← TopSetExpr.claims_erase, he', TopSetExpr.claims_erase, hl]
        exact ⟨_, _, _, by rw [TopSetExpr.erase, TopSetExpr.erase, he, he'],
          passRight_mem_brokenPairs op all _ hb,
          yieldsClaimed_right hc' hy' hy⟩

def Differ (before after : List (Fin 3)) : Prop :=
  before ∈ picked ∧ after ∈ picked ∧ before ≠ after

lemma yieldsQuery_of_claimed {b : TopSetExpr ρ}
    {cl : Option LimitClause} {bf af before' after' : List (Fin 3)}
    (hy : YieldsClaimed e b bf af) (hl : hasLimit cl = false)
    (hb : applyLimit cl (bf.map e) = before'.map e)
    (ha : ∀ o, ensureLimitClause cl = some (none, o) →
      applyLimit (some (.limitOffset (some 1) o)) (af.map e) = after'.map e) :
    YieldsQuery e (.mk d b cl) (fun _ => before') fun _ => after' := by
  intro cs
  refine ⟨?_, fun query' hp => ?_⟩
  · rw [evalQuery, (hy _).1, hb]
  · obtain ⟨cteTables', body', clause', -, hbod, rfl⟩ := processQuery_eq_some.mp hp
    obtain ⟨hev, o, he, rfl⟩ :=
      (hy (evalCtes cteTables' cs)).2 _ _ _ hl hbod
    rw [evalQuery, hev, ha o he]

section NotLimitSafe

variable {ct : TopQueries ρ} {b : TopSetExpr ρ} {cl : Option LimitClause}

lemma exists_yieldsQuery_of_setOperation (hc : b.claims = true)
    (hs : b.isSelect = false) (hl : hasLimit cl = false) :
    ∃ query' bf after, query'.erase = (TopQuery.mk ct b cl).erase ∧
      Differ bf after ∧ YieldsQuery e query' (fun _ => bf) fun _ => after := by
  obtain ⟨body', bf, after, her, hbr, hy⟩ :=
    @exists_yieldsClaimed _ _ e b hc hs
  obtain ⟨hb, ha, ht, hne⟩ := ne_take_of_mem_brokenPairs _ hbr
  refine ⟨.mk ct body' (bigClause cl), bf, after.take 1, ?_,
    ⟨hb, ht, hne⟩, yieldsQuery_of_claimed hy ?_ ?_ fun offset he => ?_⟩
  · rw [erase, erase, her, erase_bigClause]
  · rw [hasLimit_bigClause, hl]
  · exact applyLimit_bigClause (length_map_le hb) cl
  · rw [applyLimit, getD_offset_bigClause he, List.drop_zero, List.map_take]

lemma exists_yieldsQuery_of_offset (hc : b.claims = true) (hs : b.isSelect = true) :
    ∃ query' bf after, query'.erase = (TopQuery.mk ct b (some (.limitOffset none (some i)))).erase ∧
      Differ bf after ∧ YieldsQuery e query' (fun _ => bf) fun _ => after := by
  obtain ⟨body', he, hy⟩ :=
    @exists_yieldsClaimed_select _ _ e b hs hc [0, 1]
  refine ⟨.mk ct body' (some (.limitOffset none (some 1))), [], [1], ?_,
    ⟨by decide, by decide, by decide⟩, yieldsQuery_of_claimed hy rfl rfl ?_⟩
  · rw [erase, erase, he]
    rfl
  · rintro o' ⟨⟩
    rfl

lemma exists_yieldsQuery_of_offsetCommaLimit {o l : ℕ} (ha : b.asks = true) : ∃ query' bf after,
    query'.erase = (TopQuery.mk ct b (some (.offsetCommaLimit o l))).erase ∧
    Differ bf after ∧ YieldsQuery e query' (fun _ => bf) fun _ => after := by
  obtain ⟨body', he, hy⟩ :=
    @exists_yieldsSetExpr _ _ e b (fun _ => []) fun _ => by decide
  have ha' : body'.asks = true := by rw [← TopSetExpr.asks_erase, he, TopSetExpr.asks_erase, ha]
  refine ⟨.mk ct body' (some (.offsetCommaLimit o l)), [], [1], ?_,
    ⟨by decide, by decide, by decide⟩, fun ctes => ⟨?_, fun query' hp => ?_⟩⟩
  · rw [erase, erase, he]
  · rw [evalQuery, (hy _).1]
    simp [applyLimit]
  · obtain ⟨cteTables', body'', clause', -, hb, -⟩ := processQuery_eq_some.mp hp
    rw [processSetExpr_offsetCommaLimit o l body' ha'] at hb
    cases hb

lemma exists_yieldsQuery_of_not_limitSafe (h : ¬ LimitSafe b cl) :
    ∃ query' bf after, query'.erase = (TopQuery.mk ct b cl).erase ∧
      Differ bf after ∧ YieldsQuery e query' (fun _ => bf) fun _ => after := by
  rcases cl with - | ⟨⟨- | limit, - | offset⟩ | ⟨o, l⟩⟩
  · simp only [LimitSafe, Classical.not_imp, Bool.not_eq_true] at h
    exact exists_yieldsQuery_of_setOperation h.1 h.2 rfl
  · simp only [LimitSafe, Classical.not_imp, Bool.not_eq_true] at h
    exact exists_yieldsQuery_of_setOperation h.1 h.2 rfl
  · have hc : b.claims = true := by simpa [LimitSafe] using h
    by_cases hs : b.isSelect = true
    · exact exists_yieldsQuery_of_offset hc hs
    · exact exists_yieldsQuery_of_setOperation hc (Bool.not_eq_true _ ▸ hs) rfl
  · exact absurd trivial h
  · exact absurd trivial h
  · have ha : b.asks = true := by simpa [LimitSafe] using h
    exact exists_yieldsQuery_of_offsetCommaLimit ha

end NotLimitSafe

def readRows (e : Fin 3 ↪ ρ) (before after : List (Fin 3)) (i : ℕ) (results : List (List ρ)) :
    List (Fin 3) :=
  if results[i]? = some (before.map e) then before else after

lemma readRows_mem {bf af : List (Fin 3)} (h : Differ bf af) (i : ℕ)
    (rs : List (List ρ)) : readRows e bf af i rs ∈ picked := by
  rw [readRows]
  split_ifs
  · exact h.1
  · exact h.2.1

lemma readRows_before {before af : List (Fin 3)}
    (h : rs[i]? = some (before.map e)) : readRows e before af i rs = before :=
  if_pos h

lemma readRows_after {bf after : List (Fin 3)} (hd : Differ bf after)
    (h : rs[i]? = some (after.map e)) : readRows e bf after i rs = after := by
  refine if_neg fun h' => ?_
  rw [h] at h'
  exact hd.2.2 (List.map_injective_iff.mpr e.injective (Option.some.inj h')).symm

mutual

lemma exists_differing_setExpr : ∀ b : TopSetExpr ρ, ¬ b.Safe →
  ∃ body' bf af, body'.erase = b.erase ∧ Differ bf af ∧
    YieldsSetExpr e body' (fun _ => bf) fun _ => af
  | .select top derived rest, h => by
    obtain ⟨derived', bf, af, he, hd, -, i, hder⟩ :=
      exists_differing_queries derived h
    refine ⟨.select (bigTop top) derived' fun _ rs =>
      (readRows e bf af i rs).map e, bf, af, ?_, hd,
      yieldsSetExpr_select (fun _ => hd.1) (fun _ => hd.2.1) ?_ ?_⟩
    · rw [TopSetExpr.erase, TopSetExpr.erase, erase_bigTop, he]
    · intro cs
      rw [readRows_before (hder cs).1]
    · intro derived'' hp cs
      rw [readRows_after hd ((hder cs).2 _ hp)]
  | .query query, h => by
    obtain ⟨query', bf, af, he, hd, hy⟩ := exists_differing query h
    exact ⟨.query query', bf, af, by rw [TopSetExpr.erase, TopSetExpr.erase, he],
      hd, yieldsSetExpr_query hy⟩
  | .setOperation op all left right, h => by
    by_cases hl : left.Safe
    · have hr : ¬ right.Safe := fun hr => h ⟨hl, hr⟩
      obtain ⟨right', bf, af, he, hd, hy⟩ :=
        exists_differing_setExpr right hr
      obtain ⟨left', he', hy'⟩ :=
        @exists_yieldsSetExpr _ _ e left (fun _ => passRight op) fun _ => passRight_mem op
      obtain ⟨hb, hinj⟩ := setOperation_passRight op all _ hd.1
      refine ⟨_, _, _, by rw [TopSetExpr.erase, TopSetExpr.erase, he, he'],
        ⟨hb, (setOperation_passRight op all _ hd.2.1).1, fun heq => ?_⟩,
        @yieldsSetExpr_setOperation _ _ _ op all _ _ _ _ _ _ hy' hy⟩
      exact hd.2.2 (hinj _ hd.2.1 heq)
    · obtain ⟨left', bf, af, he, hd, hy⟩ :=
        exists_differing_setExpr left hl
      obtain ⟨right', he', hy'⟩ :=
        @exists_yieldsSetExpr _ _ e right (fun _ => passLeft op) fun _ => passLeft_mem op
      have hy'' := @yieldsSetExpr_setOperation _ _ _ op all _ _ _ _ _ _ hy hy'
      rw [setOperation_passLeft op all _ hd.1, setOperation_passLeft op all _ hd.2.1] at hy''
      exact ⟨_, bf, af, by rw [TopSetExpr.erase, TopSetExpr.erase, he, he'], hd, hy''⟩
  | .other _, h => absurd trivial h

lemma exists_differing : ∀ q : TopQuery ρ, ¬ q.Safe →
  ∃ q' bf af, q'.erase = q.erase ∧ Differ bf af ∧ YieldsQuery e q' (fun _ => bf) fun _ => af
  | .mk ct b cl, h => by
    by_cases hl : LimitSafe b cl
    swap
    · exact exists_yieldsQuery_of_not_limitSafe hl
    by_cases hb : b.Safe
    · have hc : ¬ ct.Safe := fun hc => h ⟨hc, hb, hl⟩
      obtain ⟨cteTables', bf, af, he, hd, ⟨i, hs⟩, -⟩ :=
        exists_differing_queries ct hc
      obtain ⟨body', he', hy⟩ :=
        @exists_yieldsSetExpr _ _ e b (readRows e bf af i) (readRows_mem hd i)
      refine ⟨.mk cteTables' body' (bigClause cl), bf, af, ?_, hd, yieldsQuery_mk hy ?_ ?_⟩
      · rw [erase, erase, he, he', erase_bigClause]
      · exact fun cs => ⟨readRows_before (hs cs).1, hd.1⟩
      · exact fun _ hp cs =>
          ⟨readRows_after hd ((hs cs).2 _ hp), hd.2.1⟩
    · obtain ⟨body', bf, af, he, hd, hy⟩ :=
        exists_differing_setExpr b hb
      refine ⟨.mk ct body' (bigClause cl), bf, af, ?_, hd,
        yieldsQuery_mk hy (fun _ => ⟨rfl, hd.1⟩) fun _ _ _ => ⟨rfl, hd.2.1⟩⟩
      rw [erase, erase, he, erase_bigClause]

lemma exists_differing_queries : ∀ qs : TopQueries ρ, ¬ qs.Safe →
  ∃ qs' bf af, qs'.erase = qs.erase ∧ Differ bf af ∧
    (∃ i : ℕ, ∀ cs, (evalCtes qs' cs)[i]? = some (bf.map e) ∧
      ∀ qs'', processQueries qs' = some qs'' → (evalCtes qs'' cs)[i]? = some (af.map e)) ∧
    ∃ i : ℕ, ∀ cs, (evalDerived qs' cs)[i]? = some (bf.map e) ∧
      ∀ qs'', processQueries qs' = some qs'' → (evalDerived qs'' cs)[i]? = some (af.map e)
  | .nil, h => absurd trivial h
  | .cons query qs, h => by
    by_cases hque : query.Safe
    · have hq : ¬ qs.Safe := fun hq => h ⟨hque, hq⟩
      obtain ⟨qs', bf, af, he, hd, ⟨i, hs⟩, j, hder⟩ :=
        exists_differing_queries qs hq
      refine ⟨.cons query qs', bf, af, ?_, hd, ⟨i, fun cs => ?_⟩, j + 1, fun cs => ?_⟩
      · rw [TopQueries.erase, TopQueries.erase, he]
      · refine ⟨(hs _).1, fun qs'' hp => ?_⟩
        obtain ⟨query', r, -, hr, rfl⟩ := processQueries_cons_eq_some.mp hp
        exact (hs _).2 r hr
      · refine ⟨(hder cs).1, fun qs'' hp => ?_⟩
        obtain ⟨query', r, -, hr, rfl⟩ := processQueries_cons_eq_some.mp hp
        exact (hder cs).2 r hr
    · obtain ⟨query', bf, af, he, hd, hy⟩ := exists_differing query hque
      have hl : ∀ (qs : TopQueries ρ) (rows : List ρ) (cs : CteRows ρ),
          (evalCtes qs (rows :: cs))[qs.length]? = some rows := by
        intro qs rows cs
        rw [← List.head?_drop, drop_evalCtes]
        rfl
      refine ⟨.cons query' qs, bf, af, ?_, hd, ⟨qs.length, fun cs => ?_⟩, 0, fun cs => ?_⟩
      · rw [TopQueries.erase, TopQueries.erase, he]
      · refine ⟨by rw [evalCtes, hl, (hy cs).1], fun qs'' hp => ?_⟩
        obtain ⟨query'', r, hq'', hr, rfl⟩ := processQueries_cons_eq_some.mp hp
        rw [evalCtes, ← length_of_processQueries hr, hl, (hy cs).2 _ hq'']
      · refine ⟨by rw [evalDerived, (hy cs).1]; rfl, fun qs'' hp => ?_⟩
        obtain ⟨query'', r, hq'', hr, rfl⟩ := processQueries_cons_eq_some.mp hp
        rw [evalDerived, (hy cs).2 _ hq'']
        rfl

end

/-! ### Main result -/

/-- **`TOP` becomes `LIMIT`** with the same rows exactly for `Safe` queries. -/
theorem processQuery_iff_safe (e : Fin 3 ↪ ρ) (query : TopQuery ρ) :
    (∀ query' : TopQuery ρ, query'.SameShape query → ∃ query'', processQuery query' = some query'' ∧
          evalQuery query'' [] = evalQuery query' []) ↔
      query.Safe := by
  constructor
  · intro h
    by_contra hsaf
    obtain ⟨query', before, after, hs, hd, hy⟩ := @exists_differing _ _ e query hsaf
    obtain ⟨query'', hp, heq⟩ := h query' hs
    rw [(hy []).1, (hy []).2 query'' hp] at heq
    exact hd.2.2 (List.map_injective_iff.mpr e.injective heq).symm
  · intro hsaf query' hs
    obtain ⟨query'', hp, he⟩ := processQuery_keeps query' (hs.safe_iff.mpr hsaf)
    exact ⟨query'', hp, he []⟩

end Yields

def selectRows (top : Option ℕ) (rows : List ℕ) : TopSetExpr ℕ :=
  .select (top.map fun n => ⟨some (.constant n), false, false⟩) .nil fun _ _ => rows

theorem processQuery_changes :
    let query := TopQuery.mk .nil
      (.setOperation .union true (selectRows (some 1) [1, 2]) (selectRows none [3])) none
    evalQuery query [] = [1, 3] ∧ (processQuery query).map (evalQuery · []) = some [1] ∧
      (processQuery (.mk .nil (selectRows (some 1) [1, 2])
        (some (.offsetCommaLimit 0 5)))).isNone := by
  decide

end Rustice
