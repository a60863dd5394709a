import Rustice.SetOperation

/-!
# TOP as LIMIT

`SELECT TOP n` is not known to the planner, so a visitor moves the quantity to the `LIMIT` of the
query around the `SELECT`.
-/

namespace Rustice

inductive TopQuantity where
  | expr (rows : ℕ)
  | constant (rows : ℕ)
  deriving DecidableEq

def TopQuantity.toExpr : TopQuantity → ℕ
  | expr rows => rows
  | constant rows => rows

open TopQuantity

structure Top where
  quantity : Option TopQuantity
  percent : Bool
  withTies : Bool

inductive LimitClause where
  | limitOffset (limit offset : Option ℕ)
  | offsetCommaLimit (offset limit : ℕ)

abbrev CteRows (ρ : Type) := List (List ρ)

mutual

inductive TopQuery (ρ : Type) where
  | mk (cteTables : TopQueries ρ) (body : TopSetExpr ρ) (limitClause : Option LimitClause)

inductive TopQueries (ρ : Type) where
  | nil
  | cons (query : TopQuery ρ) (queries : TopQueries ρ)

inductive TopSetExpr (ρ : Type) where
  | select (top : Option Top) (derived : TopQueries ρ)
      (rest : CteRows ρ → List (List ρ) → List ρ)
  | query (query : TopQuery ρ)
  | setOperation (op : SetOperator) (all : Bool) (left right : TopSetExpr ρ)
  | other (rows : CteRows ρ → List ρ)

end

variable {ρ : Type} {ct : TopQueries ρ}

def ensureLimitClause (limitClause : Option LimitClause) : Option (Option ℕ × Option ℕ) :=
  match limitClause with
  | none => some (none, none)
  | some (.limitOffset limit offset) => some (limit, offset)
  | some (.offsetCommaLimit _ _) => none

def processTop (top : Option Top) (limitClause : Option LimitClause) :
    Option (Option Top × Option LimitClause) :=
  match top with
  | none => some (none, limitClause)
  | some top =>
    if !top.percent && !top.withTies then
      match ensureLimitClause limitClause with
      | none => none
      | some (some limit, offset) => some (some top, some (.limitOffset (some limit) offset))
      | some (none, offset) =>
        match top.quantity.map toExpr with
        | some rows => some (none, some (.limitOffset (some rows) offset))
        | none => some (some top, some (.limitOffset none offset))
    else some (some top, limitClause)

mutual

def processSetExpr :
    TopSetExpr ρ → Option LimitClause → Option (TopSetExpr ρ × Option LimitClause)
  | .select top derived rest, outerLimitClause => do
    let derived ← processQueries derived
    let (top, outerLimitClause) ← processTop top outerLimitClause
    some (.select top derived rest, outerLimitClause)
  | .query query, outerLimitClause => do
    let query ← processQuery query
    some (.query query, outerLimitClause)
  | .setOperation op all left right, outerLimitClause => do
    let (left, outerLimitClause) ← processSetExpr left outerLimitClause
    let (right, outerLimitClause) ← processSetExpr right outerLimitClause
    some (.setOperation op all left right, outerLimitClause)
  | .other rows, outerLimitClause => some (.other rows, outerLimitClause)

def processQuery : TopQuery ρ → Option (TopQuery ρ)
  | .mk cteTables body limitClause => do
    let cteTables ← processQueries cteTables
    let (body, limitClause) ← processSetExpr body limitClause
    some (.mk cteTables body limitClause)

def processQueries : TopQueries ρ → Option (TopQueries ρ)
  | .nil => some .nil
  | .cons query queries => do
    let query ← processQuery query
    let queries ← processQueries queries
    some (.cons query queries)

end

/-! What the visitor returns, if it does not panic. -/

section Inversion

variable {body' : TopSetExpr ρ} {cl clause' : Option LimitClause} {q : TopQuery ρ}

lemma processSetExpr_select_eq_some {top : Option Top} {r : CteRows ρ → List (List ρ) → List ρ} :
    processSetExpr (.select top ct r) cl = some (body', clause') ↔
      ∃ d' top', processQueries ct = some d' ∧
        processTop top cl = some (top', clause') ∧ .select top' d' r = body' := by
  simp [processSetExpr, Option.bind_eq_some_iff]

lemma processSetExpr_query_eq_some : processSetExpr (.query q) cl = some (body', clause') ↔
    ∃ q', processQuery q = some q' ∧ .query q' = body' ∧ cl = clause' := by
  simp [processSetExpr, Option.bind_eq_some_iff]

lemma processSetExpr_setOperation_eq_some {op : SetOperator} {a : Bool} {l r : TopSetExpr ρ} :
    processSetExpr (.setOperation op a l r) cl = some (body', clause') ↔
      ∃ l' c, processSetExpr l cl = some (l', c) ∧
        ∃ r', processSetExpr r c = some (r', clause') ∧ .setOperation op a l' r' = body' := by
  simp [processSetExpr, Option.bind_eq_some_iff]

lemma processQuery_eq_some {query' : TopQuery ρ} :
    processQuery (.mk ct body' cl) = some query' ↔ ∃ ct' b' clause', processQueries ct = some ct' ∧
        processSetExpr body' cl = some (b', clause') ∧ .mk ct' b' clause' = query' := by
  simp [processQuery, Option.bind_eq_some_iff]

lemma processQueries_cons_eq_some {qs qs' : TopQueries ρ} : processQueries (.cons q qs) = some qs' ↔
    ∃ q' r, processQuery q = some q' ∧ processQueries qs = some r ∧ .cons q' r = qs' := by
  simp [processQueries, Option.bind_eq_some_iff]

end Inversion

variable {top : Option Top} {n : ℕ}

def Top.rows : Option Top → Option ℕ
  | some ⟨quantity, false, false⟩ => quantity.map toExpr
  | _ => none

def applyTop (top : Option Top) (rows : List ρ) : List ρ :=
  match Top.rows top with
  | some n => rows.take n
  | none => rows

lemma applyTop_of_rows (h : Top.rows top = some n) (rs : List ρ) : applyTop top rs = rs.take n := by
  rw [applyTop, h]

def applyLimit (limitClause : Option LimitClause) (rows : List ρ) : List ρ :=
  match limitClause with
  | none => rows
  | some (.limitOffset limit offset) =>
    let rows := rows.drop (offset.getD 0)
    match limit with
    | some n => rows.take n
    | none => rows
  | some (.offsetCommaLimit offset limit) => (rows.drop offset).take limit

section Eval

variable [DecidableEq ρ]

mutual

def evalSetExpr : TopSetExpr ρ → CteRows ρ → List ρ
  | .select top derived rest, ctes => applyTop top (rest ctes (evalDerived derived ctes))
  | .query query, ctes => evalQuery query ctes
  | .setOperation op all left right, ctes =>
    setOperation op all (evalSetExpr left ctes) (evalSetExpr right ctes)
  | .other rows, ctes => rows ctes

def evalQuery : TopQuery ρ → CteRows ρ → List ρ
  | .mk cteTables body limitClause, ctes =>
    applyLimit limitClause (evalSetExpr body (evalCtes cteTables ctes))

def evalCtes : TopQueries ρ → CteRows ρ → CteRows ρ
  | .nil, ctes => ctes
  | .cons query queries, ctes => evalCtes queries (evalQuery query ctes :: ctes)

def evalDerived : TopQueries ρ → CteRows ρ → List (List ρ)
  | .nil, _ => []
  | .cons query queries, ctes => evalQuery query ctes :: evalDerived queries ctes

end

end Eval

def hasLimit : Option LimitClause → Bool
  | some (.limitOffset limit _) => limit.isSome
  | some (.offsetCommaLimit _ _) => true
  | none => false

namespace TopSetExpr

/-- A plain `TOP` with a quantity asks for the limit. -/
def claims : TopSetExpr ρ → Bool
  | select top _ _ => (Top.rows top).isSome
  | setOperation _ _ left right => left.claims || right.claims
  | _ => false

/-- A plain `TOP`, with or without a quantity. -/
def asks : TopSetExpr ρ → Bool
  | select top _ _ => top.any fun top => !top.percent && !top.withTies
  | setOperation _ _ left right => left.asks || right.asks
  | _ => false

def isSelect : TopSetExpr ρ → Bool
  | select _ _ _ => true
  | _ => false

end TopSetExpr

/-- The clause has a limit, no `TOP` asks for it, or it moves from a single `SELECT` without
`OFFSET`. -/
def LimitSafe (body : TopSetExpr ρ) : Option LimitClause → Prop
  | none => body.claims = true → body.isSelect = true
  | some (.limitOffset none none) => body.claims = true → body.isSelect = true
  | some (.limitOffset none (some _)) => body.claims = false
  | some (.limitOffset (some _) _) => True
  | some (.offsetCommaLimit _ _) => body.asks = false

mutual

def TopSetExpr.Safe : TopSetExpr ρ → Prop
  | .select _ derived _ => derived.Safe
  | .query query => query.Safe
  | .setOperation _ _ left right => left.Safe ∧ right.Safe
  | .other _ => True

def TopQuery.Safe : TopQuery ρ → Prop
  | .mk cteTables body limitClause => cteTables.Safe ∧ body.Safe ∧ LimitSafe body limitClause

def TopQueries.Safe : TopQueries ρ → Prop
  | .nil => True
  | .cons query queries => query.Safe ∧ queries.Safe

end

variable {before bf after r clause cl : Option LimitClause}

def SameLimit (before after : Option LimitClause) : Prop :=
  after = before ∨ before = none ∧ after = some (.limitOffset none none)

lemma SameLimit.trans {x y z : Option LimitClause} (hxy : SameLimit x y) (hyz : SameLimit y z) :
    SameLimit x z := by
  rcases hxy with rfl | ⟨rfl, rfl⟩
  · exact hyz
  · rcases hyz with rfl | ⟨h, -⟩
    · exact .inr ⟨rfl, rfl⟩
    · cases h

lemma SameLimit.applyLimit_eq (h : SameLimit bf r)
    (rows : List ρ) : applyLimit r rows = applyLimit bf rows := by
  rcases h with rfl | ⟨rfl, rfl⟩
  · rfl
  · simp [applyLimit]

lemma SameLimit.hasLimit_eq (h : SameLimit before r) : hasLimit r = hasLimit before := by
  rcases h with rfl | ⟨rfl, rfl⟩ <;> rfl

lemma processTop_keeps (ha : ∀ o l, cl = some (.offsetCommaLimit o l) →
      (top.any fun top => !top.percent && !top.withTies) = false)
    (hc : hasLimit cl = false → Top.rows top = none) :
    ∃ clause', processTop top cl = some (top, clause') ∧ SameLimit cl clause' := by
  rcases top with - | ⟨q, p, wt⟩
  · exact ⟨cl, rfl, .inl rfl⟩
  rcases p with - | -
  swap
  · exact ⟨cl, rfl, .inl rfl⟩
  rcases wt with - | -
  swap
  · exact ⟨cl, rfl, .inl rfl⟩
  match cl with
  | none =>
    have hn : q.map toExpr = none := hc rfl
    exact ⟨_, by simp [processTop, ensureLimitClause, hn], .inr ⟨rfl, rfl⟩⟩
  | some (.limitOffset none off) =>
    have hn : q.map toExpr = none := hc rfl
    exact ⟨_, by simp [processTop, ensureLimitClause, hn], .inl rfl⟩
  | some (.limitOffset (some limit) off) => exact ⟨_, rfl, .inl rfl⟩
  | some (.offsetCommaLimit o l) =>
    have := ha o l rfl
    simp at this

lemma processTop_claims {n : ℕ} (hr : Top.rows top = some n) (hl : hasLimit clause = false) :
    ∃ off, (∀ rs : List ρ, applyLimit clause rs = rs.drop (off.getD 0)) ∧
      ensureLimitClause clause = some (none, off) ∧
      processTop top clause = some (none, some (.limitOffset (some n) off)) := by
  rcases top with - | ⟨q, (- | -), (- | -)⟩
  · cases hr
  · have hq : q.map toExpr = some n := hr
    match clause with
    | none => exact ⟨none, fun rs => rfl, rfl, by simp [processTop, ensureLimitClause, hq]⟩
    | some (.limitOffset none off) =>
      exact ⟨off, fun rs => rfl, rfl, by simp [processTop, ensureLimitClause, hq]⟩
    | some (.limitOffset (some limit) off) => cases hl
    | some (.offsetCommaLimit o l) => cases hl
  · cases hr
  · cases hr
  · cases hr

lemma SameLimit.eq_offsetCommaLimit {o l : ℕ}
    (h : SameLimit bf r) (ha : r = some (.offsetCommaLimit o l)) :
    bf = some (.offsetCommaLimit o l) := by
  rcases h with rfl | ⟨rfl, rfl⟩
  · exact ha
  · cases ha

lemma applyLimit_of_handedOver (n : ℕ)
    (h : ensureLimitClause cl = some (none, none)) (rows : List ρ) :
    applyLimit (some (.limitOffset (some n) none)) rows = applyLimit cl (rows.take n) := by
  match cl, h with
  | none, _ => rfl
  | some (.limitOffset none none), _ => rfl

section Keeps

variable [DecidableEq ρ]

/-- Both keep their meaning, or a single `SELECT` hands its `TOP` over. -/
def KeepsSetExpr (body body' : TopSetExpr ρ) (clause clause' : Option LimitClause) : Prop :=
  (SameLimit clause clause' ∧ ∀ cs, evalSetExpr body' cs = evalSetExpr body cs) ∨
    body.claims = true ∧ hasLimit clause = false ∧
      ∃ n o, ensureLimitClause clause = some (none, o) ∧ clause' = some (.limitOffset (some n) o) ∧
        ∀ cs, evalSetExpr body cs = (evalSetExpr body' cs).take n

mutual

lemma processSetExpr_keeps : ∀ (b : TopSetExpr ρ) (cl : Option LimitClause), b.Safe →
  (∀ o l, cl = some (.offsetCommaLimit o l) → b.asks = false) →
  (hasLimit cl = false → b.claims = true → b.isSelect = true) →
  ∃ b' clause', processSetExpr b cl = some (b', clause') ∧ KeepsSetExpr b b' cl clause'
  | .select top derived rest, cl, hs, ha, _ => by
    obtain ⟨derived', hd, -, he⟩ := processQueries_keeps derived hs
    by_cases hk : hasLimit cl = false → Top.rows top = none
    · obtain ⟨clause', ht, hsa⟩ := processTop_keeps ha hk
      refine ⟨.select top derived' rest, clause', ?_, .inl ⟨hsa, fun cs => ?_⟩⟩
      · simp [processSetExpr, hd, ht]
      · rw [evalSetExpr, evalSetExpr, he]
    · push Not at hk
      obtain ⟨hl, hrow⟩ := hk
      obtain ⟨n, hn⟩ := Option.ne_none_iff_exists'.mp hrow
      obtain ⟨off, -, hen, ht⟩ := @processTop_claims ρ _ _ _ hn hl
      refine ⟨.select none derived' rest, _, ?_, .inr ⟨?_, hl, n, off, hen, rfl, fun cs => ?_⟩⟩
      · simp [processSetExpr, hd, ht]
      · simp [TopSetExpr.claims, hn]
      · rw [evalSetExpr, evalSetExpr, applyTop_of_rows hn, he]
        rfl
  | .query query, cl, hs, _, _ => by
    obtain ⟨query', hq, he⟩ := processQuery_keeps query hs
    refine ⟨.query query', cl, ?_, .inl ⟨.inl rfl, fun cs => ?_⟩⟩
    · simp [processSetExpr, hq]
    · rw [evalSetExpr, evalSetExpr, he]
  | .setOperation op all left right, cl, hs, ha, hsel => by
    -- No `TOP` below takes the limit, so neither arm changes the clause.
    have hnon : hasLimit cl = false → left.claims = false ∧ right.claims = false := by
      intro hl
      rw [← Bool.or_eq_false_iff, Bool.eq_false_iff]
      exact fun hcl => Bool.noConfusion (hsel hl hcl)
    have ha' : ∀ o l, cl = some (.offsetCommaLimit o l) →
        left.asks = false ∧ right.asks = false := fun o l h =>
      Bool.or_eq_false_iff.mp (ha o l h)
    obtain ⟨left', c, hlef, hk⟩ := processSetExpr_keeps left cl hs.1
      (fun o l h => (ha' o l h).1) fun h hc => absurd hc (by simp [(hnon h).1])
    rcases hk with ⟨hsa, he⟩ | ⟨hcl, hl, -⟩
    swap
    · exact absurd hcl (by simp [(hnon hl).1])
    obtain ⟨right', cls, hr, hk'⟩ := processSetExpr_keeps right c hs.2
      (fun o l h => (ha' o l (hsa.eq_offsetCommaLimit h)).2)
      fun h hc => absurd hc (by simp [(hnon (hsa.hasLimit_eq ▸ h)).2])
    rcases hk' with ⟨hs', he'⟩ | ⟨hcl, hl, -⟩
    swap
    · exact absurd hcl (by simp [(hnon (hsa.hasLimit_eq ▸ hl)).2])
    refine ⟨.setOperation op all left' right', cls, ?_, .inl ⟨hsa.trans hs', fun cs => ?_⟩⟩
    · simp [processSetExpr, hlef, hr]
    · rw [evalSetExpr, evalSetExpr, he, he']
  | .other rows, cl, _, _, _ => ⟨.other rows, cl, rfl, .inl ⟨.inl rfl, fun _ => rfl⟩⟩

lemma processQuery_keeps : ∀ q : TopQuery ρ, q.Safe →
  ∃ q', processQuery q = some q' ∧ ∀ cs, evalQuery q' cs = evalQuery q cs
  | .mk cteTables body cl, hsaf => by
    obtain ⟨hcts, hb, hls⟩ := hsaf
    obtain ⟨cteTables', hct, hec, -⟩ := processQueries_keeps cteTables hcts
    have ha : ∀ o l, cl = some (.offsetCommaLimit o l) → body.asks = false := by
      rintro o l rfl
      exact hls
    have hs : hasLimit cl = false → body.claims = true → body.isSelect = true := by
      intro hl hc
      match cl, hl, hls with
      | none, _, h => exact h hc
      | some (.limitOffset none none), _, h => exact h hc
      | some (.limitOffset none (some _)), _, h => exact Bool.noConfusion (hc.symm.trans h)
    obtain ⟨body', clause', hp, hk⟩ :=
      processSetExpr_keeps body cl hb ha hs
    refine ⟨.mk cteTables' body' clause', by simp [processQuery, hct, hp], fun cs => ?_⟩
    rw [evalQuery, evalQuery, hec]
    rcases hk with ⟨hsam, hev⟩ | ⟨hc, hl, n, offset, he, rfl, hev⟩
    · rw [hev, hsam.applyLimit_eq]
    · have ho : offset = none := by
        match cl, he, hls with
        | none, rfl, _ => rfl
        | some (.limitOffset none none), rfl, _ => rfl
        | some (.limitOffset none (some _)), _, h => exact Bool.noConfusion (hc.symm.trans h)
      subst ho
      rw [hev, applyLimit_of_handedOver n he]

lemma processQueries_keeps : ∀ qs : TopQueries ρ, qs.Safe → ∃ qs', processQueries qs = some qs' ∧
    (∀ cs, evalCtes qs' cs = evalCtes qs cs) ∧ ∀ cs, evalDerived qs' cs = evalDerived qs cs
  | .nil, _ => ⟨.nil, rfl, fun _ => rfl, fun _ => rfl⟩
  | .cons query qs, hs => by
    obtain ⟨query', hque, he⟩ := processQuery_keeps query hs.1
    obtain ⟨qs', hq, hc, hd⟩ := processQueries_keeps qs hs.2
    refine ⟨.cons query' qs', by simp [processQueries, hque, hq], fun cs => ?_, fun cs => ?_⟩
    · rw [evalCtes, evalCtes, he, hc]
    · rw [evalDerived, evalDerived, he, hd]

end

end Keeps

lemma processTop_hasLimit {top' : Option Top}
    (hl : hasLimit clause = true) (h : processTop top clause = some (top', r)) :
    top' = top ∧ r = clause := by
  rcases top with - | ⟨quantity, percent, withTies⟩
  · cases h
    exact ⟨rfl, rfl⟩
  rw [processTop] at h
  split_ifs at h
  · match clause, hl with
    | some (.limitOffset (some limit) offset), _ =>
      cases h
      exact ⟨rfl, rfl⟩
    | some (.offsetCommaLimit o l), _ => cases h
  · cases h
    exact ⟨rfl, rfl⟩

lemma processSetExpr_hasLimit : ∀ (b : TopSetExpr ρ) {b' : TopSetExpr ρ}
  {cl clause' : Option LimitClause}, hasLimit cl = true →
  processSetExpr b cl = some (b', clause') → clause' = cl
  | .select top derived rest, b', cl, clause', hl, h => by
    obtain ⟨derived', top', -, ht, rfl⟩ := processSetExpr_select_eq_some.mp h
    exact (processTop_hasLimit hl ht).2
  | .query query, b', cl, clause', _, h => by
    obtain ⟨query', -, rfl, rfl⟩ := processSetExpr_query_eq_some.mp h
    rfl
  | .setOperation op all left right, b', cl, clause', hl, h => by
    obtain ⟨left', clause₁, hlef, right', hr, rfl⟩ :=
      processSetExpr_setOperation_eq_some.mp h
    obtain rfl := processSetExpr_hasLimit left hl hlef
    exact processSetExpr_hasLimit right hl hr
  | .other rows, b', cl, clause', _, h => by
    cases h
    rfl

lemma processSetExpr_unclaimed : ∀ (b : TopSetExpr ρ) {b' : TopSetExpr ρ}
  {cl clause' : Option LimitClause}, b.claims = false →
  processSetExpr b cl = some (b', clause') → SameLimit cl clause'
  | .select top derived rest, b', cl, clause', hc, h => by
    obtain ⟨derived', top', -, ht, rfl⟩ := processSetExpr_select_eq_some.mp h
    have hrow : Top.rows top = none := by simpa [TopSetExpr.claims] using hc
    by_cases hcom : ∃ o l, cl = some (.offsetCommaLimit o l)
    · obtain ⟨o, l, rfl⟩ := hcom
      exact .inl (processTop_hasLimit rfl ht).2
    · obtain ⟨clause₂, ht', hs⟩ := processTop_keeps
        (fun o l h => absurd ⟨o, l, h⟩ hcom) fun _ => hrow
      rw [ht'] at ht
      cases ht
      exact hs
  | .query query, b', cl, clause', _, h => by
    obtain ⟨query', -, rfl, rfl⟩ := processSetExpr_query_eq_some.mp h
    exact .inl rfl
  | .setOperation op all left right, b', cl, clause', hc, h => by
    obtain ⟨left', clause₁, hl, right', hr, rfl⟩ :=
      processSetExpr_setOperation_eq_some.mp h
    obtain ⟨hcl, hcr⟩ := Bool.or_eq_false_iff.mp hc
    exact (processSetExpr_unclaimed left hcl hl).trans (processSetExpr_unclaimed right hcr hr)
  | .other rows, b', cl, clause', _, h => by
    cases h
    exact .inl rfl

lemma processSetExpr_offsetCommaLimit (o l : ℕ) : ∀ b : TopSetExpr ρ, b.asks = true →
  processSetExpr b (some (.offsetCommaLimit o l)) = none
  | .select (some ⟨quantity, false, false⟩) derived rest, _ => by
    simp [processSetExpr, processTop, ensureLimitClause]
  | .setOperation op all left right, ha => by
    rw [processSetExpr]
    rcases hl : processSetExpr left (some (.offsetCommaLimit o l)) with - | ⟨left', clause'⟩
    · rfl
    · have har : right.asks = true := by
        rcases Bool.or_eq_true_iff.mp ha with h | h
        · rw [processSetExpr_offsetCommaLimit o l left h] at hl
          cases hl
        · exact h
      obtain rfl := processSetExpr_hasLimit left rfl hl
      simp [processSetExpr_offsetCommaLimit o l right har]

end Rustice
