import Mathlib.Data.List.Sort
import Rustice.LogicalPlan

/-!
# Splitting Ordered Aggregates

`SplitOrderedAggregates` rewrites an aggregation whose aggregate expressions have different
`ORDER BY` lists.
-/

namespace Rustice

open List

variable {V : Type} {kgc : Bool}

def findOrderingInAggregate : AggrExpr V → Option (List SortExpr)
  | .aggregateFunction _ orderBy _ => some orderBy
  | .aliased expr _ => findOrderingInAggregate expr
  | .cast expr _ => findOrderingInAggregate expr
  | .tryCast expr _ => findOrderingInAggregate expr
  | .other _ _ => none

def orderingSignature (orderBy : List SortExpr) : String :=
  ";".intercalate (orderBy.map fun s =>
    s.expr ++ "|" ++ toString s.asc ++ "|" ++ toString s.nullsFirst)

abbrev IndexedAggr (V : Type) := ℕ × AggrExpr V

abbrev OrderedClasses (V : Type) := List (String × List (IndexedAggr V))

def pushClass (sig : String) (item : IndexedAggr V) : OrderedClasses V → OrderedClasses V
  | [] => [(sig, [item])]
  | (s, items) :: classes =>
    if s = sig then (s, items ++ [item]) :: classes
    else (s, items) :: pushClass sig item classes

def addToClass (acc : OrderedClasses V × List (IndexedAggr V)) (item : IndexedAggr V) :
    OrderedClasses V × List (IndexedAggr V) :=
  match findOrderingInAggregate item.2 with
  | some orderBy => (pushClass (orderingSignature orderBy) item acc.1, acc.2)
  | none => (acc.1, acc.2 ++ [item])

def partitionAggregates (aggrExprs : List (AggrExpr V)) :
    OrderedClasses V × List (IndexedAggr V) :=
  (aggrExprs.zipIdx.map Prod.swap).foldl addToClass ([], [])

def classItems (classes : OrderedClasses V) : List (IndexedAggr V) :=
  classes.flatMap Prod.snd

structure Branch (V : Type) where
  plan : LogicalPlan V
  nameMap : List (ℕ × String)
  keys : List String

def aggName (idx : ℕ) : String := "agg_" ++ toString idx

def nameEntry (a : IndexedAggr V) : ℕ × String := (a.1, aggName a.1)

/-- The group columns, if kept, those under their key names, and the aggregate values. -/
def branchExprs (fields : List String) (aggs : List (IndexedAggr V)) (keyPrefix : String)
    (keepGroupCols : Bool) : List (String × String) × List (String × String) :=
  let groupNames := fields.take (fields.length - aggs.length)
  let kept := if keepGroupCols then groupNames.map fun n => (n, n) else []
  let keys := groupNames.zipIdx.map fun p => (p.1, keyPrefix ++ toString p.2)
  let outs := ((fields.drop (fields.length - aggs.length)).zip aggs).map fun p =>
    (p.1, aggName p.2.1)
  (kept ++ keys ++ outs, keys)

open LogicalPlan

def buildBranch (input : LogicalPlan V) (group : GroupBy V) (aggs : List (IndexedAggr V))
    (keyPrefix : String) (keepGroupCols : Bool) : Except PlanError (Branch V) := do
  let branch ← buildAggregate input group (aggs.map Prod.snd)
  let (exprs, keys) := branchExprs branch.schema aggs keyPrefix keepGroupCols
  let projected ← buildProject branch exprs
  pure ⟨projected, aggs.map nameEntry, keys.map Prod.snd⟩

def joinBranch (leftKeys : List String) (acc : LogicalPlan V × List (ℕ × String))
    (branch : Branch V) : Except PlanError (LogicalPlan V × List (ℕ × String)) := do
  let plan ← (if leftKeys.isEmpty then buildCrossJoin acc.1 branch.plan
    else buildJoinOn acc.1 branch.plan (leftKeys.zip branch.keys))
  pure (plan, acc.2 ++ branch.nameMap)

def mergeBranches : List (Branch V) → Except PlanError (LogicalPlan V × List (ℕ × String))
  | [] => .error (.internal "removal index (is 0) should be < len (is 0)")
  | first :: rest => rest.foldlM (joinBranch first.keys) (first.plan, first.nameMap)

def finalExprs (originalFieldNames : List String) (originalGroupCount : ℕ)
    (nameMap : List (ℕ × String)) : List (String × String) :=
  let sorted := nameMap.insertionSort fun a b => a.1 ≤ b.1
  (originalFieldNames.take originalGroupCount).map (fun n => (n, n)) ++
    (sorted.zip (originalFieldNames.drop originalGroupCount)).map fun p => (p.1.2, p.2)

def buildFinalProjection (accPlan : LogicalPlan V) (originalFieldNames : List String)
    (originalGroupCount : ℕ) (nameMap : List (ℕ × String)) :
    Except PlanError (LogicalPlan V) :=
  buildProject accPlan
    (finalExprs originalFieldNames originalGroupCount nameMap)

/-- The first branch takes the expressions without an ordering. -/
def buildBranches (input : LogicalPlan V) (group : GroupBy V)
    (classes : OrderedClasses V) (unordered : List (IndexedAggr V)) :
    Except PlanError (List (Branch V)) :=
  match classes with
  | [] => pure []
  | (_, aggs₀) :: rest => do
    let first ← buildBranch input group (aggs₀ ++ unordered) "gk" true
    let others ← rest.zipIdx.mapM fun p =>
      buildBranch input group p.1.2 ("rgk" ++ toString p.2 ++ "_") false
    pure (first :: others)

def rewrite (enumerate : OrderedClasses V → OrderedClasses V) (plan : LogicalPlan V) :
    Except PlanError (LogicalPlan V) :=
  match plan with
  | .aggregate input group aggrExpr => do
    let (orderedClasses, unordered) := partitionAggregates aggrExpr
    if orderedClasses.length ≤ 1 then pure plan
    else do
      let branches ← buildBranches input group (enumerate orderedClasses) unordered
      let (accPlan, nameMap) ← mergeBranches branches
      let originalFieldNames := plan.schema
      let originalGroupCount := originalFieldNames.length - aggrExpr.length
      let rewritten ← buildFinalProjection accPlan originalFieldNames originalGroupCount
        nameMap
      pure (.projection rewritten (plan.schema.map fun n => (n, n)))
  | _ => pure plan

lemma classItems_pushClass (sg : String) (x : IndexedAggr V) (cs : OrderedClasses V) :
    (classItems (pushClass sg x cs)).Perm (classItems cs ++ [x]) := by
  simp only [classItems]
  induction cs with
  | nil => exact .refl _
  | cons c cs ih =>
    obtain ⟨s, items⟩ := c
    rw [pushClass]
    split
    · rw [flatMap_cons, flatMap_cons, append_assoc, append_assoc]
      exact perm_append_comm.append_left _
    · rw [flatMap_cons, flatMap_cons, append_assoc]
      exact ih.append_left _

lemma addToClass_perm (acc : OrderedClasses V × List (IndexedAggr V)) (x : IndexedAggr V) :
    (classItems (addToClass acc x).1 ++ (addToClass acc x).2).Perm
      (classItems acc.1 ++ acc.2 ++ [x]) := by
  rw [addToClass]
  cases findOrderingInAggregate x.2 with
  | none => rw [append_assoc]
  | some orderBy =>
    refine ((classItems_pushClass _ x acc.1).append_right _).trans ?_
    rw [append_assoc, append_assoc]
    exact perm_append_comm.append_left _

lemma partitionAggregates_perm (ae : List (AggrExpr V)) : (classItems (partitionAggregates ae).1 ++
    (partitionAggregates ae).2).Perm (ae.zipIdx.map Prod.swap) := by
  have hf : ∀ (xs : List (IndexedAggr V))
      (acc : OrderedClasses V × List (IndexedAggr V)),
      (classItems (xs.foldl addToClass acc).1 ++ (xs.foldl addToClass acc).2).Perm
        (classItems acc.1 ++ acc.2 ++ xs) := by
    intro xs
    induction xs with
    | nil =>
      intro acc
      simp
    | cons x xs ih =>
      intro acc
      rw [foldl_cons]
      refine (ih _).trans (((addToClass_perm acc x).append_right _).trans ?_)
      rw [append_assoc, singleton_append]
  exact hf _ ([], [])

section Carries

variable [DecidableEq V] {input inp : LogicalPlan V} {group : GroupBy V}
  {aggrExpr : List (AggrExpr V)}
  {kp : String}

def aggValue (aggrExpr : List (AggrExpr V)) (idx : ℕ) (g : Group V) : Option V :=
  aggrExpr[idx]?.bind (AggrExpr.eval g.2)

/-- One row for each group, with its key and its aggregate values. -/
structure Carries (aggrExpr : List (AggrExpr V)) (width : ℕ) (plan : LogicalPlan V)
    (gs : List (Group V)) (f : Group V → NamedRow V) (keyCols : List (List String))
    (nameMap : List (ℕ × String)) : Prop where
  eval_eq : plan.eval = gs.map f
  keys : ∀ cols ∈ keyCols, cols ⊆ plan.schema ∧ cols.length = width ∧ ∀ g ∈ gs, cols.map (f g) = g.1
  values : ∀ p ∈ nameMap, p.2 ∈ plan.schema ∧ ∀ g ∈ gs, f g p.2 = aggValue aggrExpr p.1 g

omit [DecidableEq V] in
lemma branchExprs_eq (group : GroupBy V) (inp : LogicalPlan V)
    (ag : List (IndexedAggr V)) (kp : String) (k : Bool) :
    branchExprs (aggregate inp group (ag.map Prod.snd)).schema ag kp k =
      ((if k then group.names.map fun n => (n, n) else []) ++
          (group.names.zipIdx.map fun p => (p.1, kp ++ toString p.2)) ++
          ag.map fun a => (a.2.schemaName, aggName a.1),
        group.names.zipIdx.map fun p => (p.1, kp ++ toString p.2)) := by
  have hlen : (group.names ++ (ag.map Prod.snd).map AggrExpr.schemaName).length -
      ag.length = group.names.length := by simp
  have hz : (((ag.map Prod.snd).map AggrExpr.schemaName).zip ag).map
      (fun p => (p.1, aggName p.2.1)) = ag.map fun a => (a.2.schemaName, aggName a.1) := by
    rw [map_map]
    induction ag with
    | nil => rfl
    | cons a ag ih => simpa using ih (by simp)
  rw [branchExprs, schema]
  simp only [hlen, take_left, drop_left, hz]

omit [DecidableEq V] in
lemma buildBranch_nameMap {a : List (IndexedAggr V)}
    {b : Branch V} (h : buildBranch inp group a kp kgc = .ok b) : b.nameMap = a.map nameEntry := by
  obtain ⟨branch, -, h⟩ := bind_eq_ok.mp h
  obtain ⟨projected, -, h⟩ := bind_eq_ok.mp h
  obtain rfl := pure_eq_ok.mp h
  rfl

lemma buildBranch_carries {ags : List (IndexedAggr V)} {b : Branch V}
    (hag : ∀ a ∈ ags, aggrExpr[a.1]? = some a.2)
    (h : buildBranch inp group ags kp kgc = .ok b) :
    ∃ f, Carries aggrExpr group.names.length b.plan (group.groups inp.eval) f
      (b.keys :: if kgc then [group.names] else []) b.nameMap := by
  obtain ⟨branch, hbr, h⟩ := bind_eq_ok.mp h
  obtain ⟨hnd, rfl⟩ := checkNames_eq_ok.mp hbr
  rw [branchExprs_eq] at h
  obtain ⟨projected, hpr, h⟩ := bind_eq_ok.mp h
  obtain ⟨rfl, hn⟩ := buildProject_eq_ok hpr
  obtain rfl := pure_eq_ok.mp h
  generalize hex : (if kgc then group.names.map fun n => (n, n) else []) ++
    (group.names.zipIdx.map fun p => (p.1, kp ++ toString p.2)) ++
    ags.map (fun a => (a.2.schemaName, aggName a.1)) = exprs at hn ⊢
  have hr := fun g (hg : g ∈ group.groups inp.eval) =>
    map_aggregateRow hnd (GroupBy.length_key_of_mem_groups hg)
  -- Columns that are read from the grouping columns carry the key of a group.
  have hk : ∀ cs : List (String × String), cs ⊆ exprs → cs.map Prod.fst = group.names →
      ∀ g ∈ group.groups inp.eval, (cs.map Prod.snd).map (bindRow (exprs.map Prod.snd)
        (exprs.map fun e => aggregateRow group (ags.map Prod.snd) g e.1)) = g.1 := by
    intro cs hc hn' g hg
    rw [map_bindRow_project hn _ hc, hn', (hr g hg).1]
  refine ⟨_, map_map, fun cs hc => ?_, fun p hp => ?_⟩
  · rcases mem_cons.mp hc with rfl | hc
    · have hm : ∀ e ∈ group.names.zipIdx.map fun p => (p.1, kp ++ toString p.2), e ∈ exprs := by
        intro e he
        rw [← hex]
        exact mem_append_left _ (mem_append_right _ he)
      refine ⟨map_subset _ hm, by simp, hk _ hm ?_⟩
      rw [map_map]
      exact zipIdx_map_fst 0 group.names
    · cases kgc with
      | false => exact absurd hc not_mem_nil
      | true =>
        obtain rfl := mem_singleton.mp hc
        have hm : ∀ e ∈ group.names.map fun n => (n, n), e ∈ exprs := by
          intro e he
          rw [← hex]
          exact mem_append_left _ (mem_append_left _ he)
        have hc : (group.names.map fun n => (n, n)).map Prod.snd = group.names := by
          rw [map_map]
          exact map_id _
        have hcar := hk _ hm (by rw [map_map]; exact map_id _)
        rw [hc] at hcar
        exact ⟨hc ▸ map_subset _ hm, rfl, hcar⟩
  · obtain ⟨a, ha, rfl⟩ := mem_map.mp hp
    have hm : (a.2.schemaName, aggName a.1) ∈ exprs := by
      rw [← hex]
      exact mem_append_right _ (mem_map_of_mem ha)
    refine ⟨mem_map_of_mem (f := Prod.snd) hm, fun g hg => ?_⟩
    refine (bindRow_project hn _ hm).trans ?_
    rw [(hr g hg).2 a.2 (mem_map_of_mem ha), aggValue, nameEntry, hag a ha]
    rfl

def keyComplete (g : Group V) : Bool :=
  none ∉ g.1

lemma keysEq_carried {rows : List (NamedRow V)} {g g' : Group V}
    (hg : g ∈ group.groups rows) (hg' : g' ∈ group.groups rows)
    {leftKeys rk : List String} (hleft : leftKeys.length = group.names.length)
    (hright : rk.length = group.names.length) {l r : NamedRow V}
    (hl : leftKeys.map l = g.1) (hr : rk.map r = g'.1) :
    keysEq ((leftKeys.zip rk).map fun p => l p.1)
        ((leftKeys.zip rk).map fun p => r p.2) = some true ↔ g = g' ∧ keyComplete g = true := by
  have hfst : ((leftKeys.zip rk).map fun p => l p.1) = g.1 := by
    have hz := map_fst_zip (hleft.trans hright.symm).le
    rw [← hl, ← congrArg (List.map l) hz, map_map]
    rfl
  have hsnd : ((leftKeys.zip rk).map fun p => r p.2) = g'.1 := by
    have hz := map_snd_zip (hright.trans hleft.symm).le
    rw [← hr, ← congrArg (List.map r) hz, map_map]
    rfl
  have hlen := (GroupBy.length_key_of_mem_groups hg).trans
    (GroupBy.length_key_of_mem_groups hg').symm
  rw [hfst, hsnd, keysEq_eq_true_iff hlen, keyComplete, decide_eq_true_eq]
  refine and_congr_left' ⟨fun hk => ?_, fun h => h ▸ rfl⟩
  exact inj_on_of_nodup_map (GroupBy.nodup_keys_groups group rows) hg hg' hk

section JoinBranch

variable {aggrExpr : List (AggrExpr V)} {group : GroupBy V} {rows : List (NamedRow V)}
  {acc acc' : LogicalPlan V × List (ℕ × String)} {gs : List (Group V)}
  {f h : Group V → NamedRow V} {leftKeys : List String} {keyCols keyCols' : List (List String)}
  {b : Branch V} (hacc : Carries aggrExpr group.names.length acc.1 gs f keyCols acc.2)
  (hleft : leftKeys ∈ keyCols) (hsub : ∀ g ∈ gs, g ∈ group.groups rows)
  (hb : Carries aggrExpr group.names.length b.plan (group.groups rows) h keyCols' b.nameMap)
  (hright : b.keys ∈ keyCols') (hjoin : joinBranch leftKeys acc b = .ok acc')
include hacc hleft hsub hb hright hjoin

lemma joinBranch_eval :
    acc'.2 = acc.2 ++ b.nameMap ∧ acc'.1.schema = acc.1.schema ++ b.plan.schema ∧
      acc'.1.schema.Nodup ∧ acc'.1.eval = (gs.filter keyComplete).map fun g =>
        mergeRows acc.1.schema (f g) (h g) := by
  obtain ⟨plan, hp, hjoin⟩ := bind_eq_ok.mp hjoin
  obtain rfl := pure_eq_ok.mp hjoin
  have hnd : (group.groups rows).Nodup := (GroupBy.nodup_keys_groups group rows).of_map _
  obtain ⟨-, hll, hlk⟩ := hacc.keys leftKeys hleft
  obtain ⟨-, hrl, hrk⟩ := hb.keys b.keys hright
  by_cases hnil : leftKeys.isEmpty = true
  · -- without keys there is one group on each side
    rw [if_pos hnil] at hp
    obtain ⟨hn, rfl⟩ := checkNames_eq_ok.mp hp
    refine ⟨rfl, rfl, hn, ?_⟩
    have hw : group.names = [] := by
      rw [List.isEmpty_iff.mp hnil] at hll
      exact length_eq_zero_iff.mp hll.symm
    rw [eval, hacc.eval_eq, hb.eval_eq, innerJoin_map_map hnd hsub keyComplete, map_map]
    · rfl
    · intro g hg g' hg'
      have hg := hsub g hg
      rw [GroupBy.groups_of_names_eq_nil hw, mem_singleton] at hg hg'
      simp [hg, hg', keyComplete]
  · rw [if_neg hnil] at hp
    obtain ⟨rfl, hn⟩ := buildJoinOn_eq_ok hp
    refine ⟨rfl, rfl, hn, ?_⟩
    rw [eval, hacc.eval_eq, hb.eval_eq, innerJoin_map_map hnd hsub keyComplete, map_map]
    · rfl
    · intro g hg g' hg'
      exact keysEq_carried (hsub g hg) hg' hll hrl (hlk g hg)
        (hrk g' hg')

lemma joinBranch_carries : acc'.2 = acc.2 ++ b.nameMap ∧
    ∃ f', Carries aggrExpr group.names.length acc'.1 (gs.filter keyComplete) f' keyCols acc'.2 := by
  obtain ⟨hmap, hs, hnam, he⟩ := joinBranch_eval hacc hleft hsub hb hright hjoin
  rw [hs] at hnam
  refine ⟨hmap, _, he, fun cs hcol => ?_, fun p hp => ?_⟩
  · obtain ⟨hsb, hlen, hk⟩ := hacc.keys cs hcol
    refine ⟨?_, hlen, fun g hg => ?_⟩
    · rw [hs]
      exact subset_append_of_subset_left _ hsb
    · rw [← hk g (mem_of_mem_filter hg)]
      exact map_congr_left fun n hn => mergeRows_left (hsb hn)
  · rw [hs]
    rw [hmap] at hp
    rcases mem_append.mp hp with hp | hp
    · obtain ⟨hm, hv⟩ := hacc.values p hp
      refine ⟨mem_append_left _ hm, fun g hg => ?_⟩
      rw [mergeRows_left hm, hv g (mem_of_mem_filter hg)]
    · obtain ⟨hm, hv⟩ := hb.values p hp
      refine ⟨mem_append_right _ hm, fun g hg => ?_⟩
      have hnm : p.2 ∉ acc.1.schema := fun hc =>
        disjoint_of_nodup_append hnam hc hm
      rw [mergeRows_right hnm, hv g (hsub g (mem_of_mem_filter hg))]

end JoinBranch

lemma foldlM_joinBranch_carries
    {rows : List (NamedRow V)} {leftKeys : List String} {keyCols : List (List String)}
    {r : List (Branch V)} (hleft : leftKeys ∈ keyCols)
    (hr : ∀ b ∈ r, ∃ h keyCols', b.keys ∈ keyCols' ∧
      Carries aggrExpr group.names.length b.plan (group.groups rows) h keyCols' b.nameMap) :
    ∀ {acc acc' : LogicalPlan V × List (ℕ × String)} {gs : List (Group V)}
      {f : Group V → NamedRow V},
      Carries aggrExpr group.names.length acc.1 gs f keyCols acc.2 →
      (∀ g ∈ gs, g ∈ group.groups rows) → r.foldlM (joinBranch leftKeys) acc = .ok acc' →
      acc'.2 = acc.2 ++ r.flatMap Branch.nameMap ∧ ∃ f', Carries aggrExpr group.names.length acc'.1
          (if r.isEmpty then gs else gs.filter keyComplete) f' keyCols acc'.2 := by
  induction r with
  | nil =>
    intro acc acc' gs f hacc _ h
    obtain rfl := pure_eq_ok.mp h
    exact ⟨by simp, f, hacc⟩
  | cons b r ih =>
    intro acc acc' gs f hacc hsub h
    rw [foldlM_cons] at h
    obtain ⟨mid, hm, h⟩ := bind_eq_ok.mp h
    obtain ⟨hb, keyCols', hbk, hbc⟩ := hr b mem_cons_self
    obtain ⟨hmap, f₁, hc⟩ := joinBranch_carries hacc hleft hsub hbc hbk hm
    obtain ⟨hm', f₂, hc'⟩ := ih (fun b' hb' => hr b' (mem_cons_of_mem _ hb'))
      hc (fun g hg => hsub g (mem_of_mem_filter hg)) h
    refine ⟨?_, f₂, ?_⟩
    · rw [hm', hmap, flatMap_cons, append_assoc]
    · simpa using hc'

lemma buildBranches_carries {c : String × List (IndexedAggr V)} {cs : OrderedClasses V}
    {u : List (IndexedAggr V)} {bs : List (Branch V)}
    (hi : ∀ a ∈ classItems (c :: cs) ++ u, aggrExpr[a.1]? = some a.2)
    (h : buildBranches inp group (c :: cs) u = .ok bs) :
    ∃ fi r, bs = fi :: r ∧ r.length = cs.length ∧
      (∃ f, Carries aggrExpr group.names.length fi.plan (group.groups inp.eval) f
        [fi.keys, group.names] fi.nameMap) ∧
      (∀ b ∈ r, ∃ f keyCols, b.keys ∈ keyCols ∧ Carries aggrExpr group.names.length
        b.plan (group.groups inp.eval) f keyCols b.nameMap) ∧
      (fi.nameMap ++ r.flatMap Branch.nameMap).Perm
        ((classItems (c :: cs) ++ u).map nameEntry) := by
  obtain ⟨fi, hfir, h⟩ := bind_eq_ok.mp h
  obtain ⟨r, hr, h⟩ := bind_eq_ok.mp h
  obtain rfl := pure_eq_ok.mp h
  have hc : ∀ a ∈ c.2 ++ u, aggrExpr[a.1]? = some a.2 := by
    intro a ha
    refine hi a ?_
    rcases mem_append.mp ha with ha | ha
    · exact mem_append_left _ (mem_append_left _ ha)
    · exact mem_append_right _ ha
  have hcs : ∀ p ∈ cs.zipIdx, ∀ a ∈ p.1.2, aggrExpr[a.1]? = some a.2 := by
    intro p hp a ha
    refine hi a (mem_append_left _ (mem_append_right _ ?_))
    exact mem_flatMap.mpr ⟨p.1, fst_mem_of_mem_zipIdx hp, ha⟩
  have hal := mapM_eq_ok_iff.mp hr
  have hm : r.flatMap Branch.nameMap = (classItems cs).map nameEntry := by
    have hn : r.map Branch.nameMap = cs.zipIdx.map fun p => p.1.2.map nameEntry := by
      rw [← forall₂_eq_eq_eq, forall₂_map_left_iff, forall₂_map_right_iff]
      exact (hal.imp fun p b hb => buildBranch_nameMap hb).flip
    rw [flatMap_def, hn, classItems, map_flatMap, flatMap_def, ← zipIdx_map_fst 0 cs, map_map]
    simp [Function.comp_def]
  refine ⟨fi, r, rfl, ?_, buildBranch_carries hc hfir, fun b hb => ?_, ?_⟩
  · rw [← hal.length_eq, length_zipIdx]
  · obtain ⟨p, hp, hbui⟩ := exists_of_mem_mapM hr hb
    obtain ⟨f, hf⟩ := buildBranch_carries (hcs p hp) hbui
    exact ⟨f, _, mem_cons_self, hf⟩
  · have hcon : classItems (c :: cs) = c.2 ++ classItems cs := flatMap_cons
    rw [buildBranch_nameMap hfir, hm, ← map_append, hcon, append_assoc, append_assoc]
    exact (perm_append_comm.append_left _).map _

variable {nameMap nm : List (ℕ × String)} {n : ℕ}

lemma insertionSort_nameMap (h : nm.Perm ((List.range n).map fun i => (i, aggName i))) :
    nm.insertionSort (fun a b => a.1 ≤ b.1) = (List.range n).map fun i => (i, aggName i) := by
  have : Std.Total fun a b : ℕ × String => a.1 ≤ b.1 := ⟨fun a b => Nat.le_total a.1 b.1⟩
  have : IsTrans (ℕ × String) fun a b => a.1 ≤ b.1 := ⟨fun _ _ _ => Nat.le_trans⟩
  refine List.Perm.eq_of_pairwise ?_ (pairwise_insertionSort _ _) ?_
    ((perm_insertionSort _ _).trans h)
  · intro a b ha hb hab hba
    obtain ⟨i, -, rfl⟩ := mem_map.mp (h.mem_iff.mp ((mem_insertionSort _).mp ha))
    obtain ⟨j, -, rfl⟩ := mem_map.mp hb
    obtain rfl : i = j := le_antisymm hab hba
    rfl
  · exact pairwise_map.mpr pairwise_le_range

lemma finalExprs_map (names an : List String) (hn : an.length = n)
    (h : nm.Perm ((List.range n).map fun i => (i, aggName i))) :
    (finalExprs (names ++ an) names.length nm).map Prod.snd = names ++ an ∧
      (finalExprs (names ++ an) names.length nm).map Prod.fst =
        names ++ (List.range n).map aggName := by
  rw [finalExprs]
  simp only [insertionSort_nameMap h, take_left, drop_left, map_append, map_map]
  constructor
  · exact congrArg₂ _ (map_id _) (map_snd_zip (by simp [hn]))
  · have hz : ((((List.range n).map fun i => (i, aggName i)).zip
        an).map Prod.fst).map Prod.snd = (List.range n).map aggName := by
      rw [map_fst_zip (by simp [hn]), map_map]
      rfl
    rw [map_map] at hz
    exact congrArg₂ _ (map_id _) hz

omit [DecidableEq V] in
lemma map_aggValue_range (aggrExpr : List (AggrExpr V)) (g : Group V) :
    (List.range aggrExpr.length).map (aggValue aggrExpr · g) =
      aggrExpr.map (AggrExpr.eval g.2) := by
  refine ext_getElem (by simp) fun i _ hi => ?_
  rw [length_map] at hi
  simp [aggValue, hi]

lemma tuples_restored {ap r : LogicalPlan V} {gs : List (Group V)}
    {f : Group V → NamedRow V} {keyCols : List (List String)}
    (hnd : (aggregate inp group aggrExpr).schema.Nodup)
    (hc : Carries aggrExpr group.names.length ap gs f keyCols nameMap) (hn : group.names ∈ keyCols)
    (hmap : nameMap.Perm ((List.range aggrExpr.length).map fun i => (i, aggName i)))
    (h : buildFinalProjection ap (aggregate inp group aggrExpr).schema
      ((aggregate inp group aggrExpr).schema.length - aggrExpr.length) nameMap = .ok r) :
    (projection r ((aggregate inp group aggrExpr).schema.map fun n => (n, n))).tuples =
      gs.map fun g => g.1 ++ aggrExpr.map (AggrExpr.eval g.2) := by
  have hcou : (aggregate inp group aggrExpr).schema.length -
      aggrExpr.length = group.names.length := by simp [schema]
  obtain ⟨hsnd, hfst⟩ := finalExprs_map group.names (aggrExpr.map AggrExpr.schemaName)
    (length_map _) hmap
  rw [hcou] at h
  obtain ⟨rfl, hp⟩ := buildProject_eq_ok h
  obtain ⟨-, -, hk⟩ := hc.keys _ hn
  have hs : (projection ap (finalExprs
      (aggregate inp group aggrExpr).schema group.names.length nameMap)).schema =
        (aggregate inp group aggrExpr).schema := hsnd
  have hr := tuples_projection_schema _ (hs.symm ▸ hnd)
  rw [hs] at hr
  rw [hr, tuples_projection hp, hc.eval_eq, map_map]
  refine map_congr_left fun g hg => ?_
  rw [Function.comp_apply, schema, hfst, map_append, hk g hg, map_map, ← map_aggValue_range]
  refine congrArg _ (map_congr_left fun i hi => ?_)
  have hm : (i, aggName i) ∈ nameMap := hmap.mem_iff.mpr (mem_map_of_mem hi)
  exact (hc.values _ hm).2 g hg

omit [DecidableEq V] in
lemma nameEntry_perm {xs : List (IndexedAggr V)} (h : xs.Perm (aggrExpr.zipIdx.map Prod.swap)) :
    (xs.map nameEntry).Perm ((List.range aggrExpr.length).map fun i => (i, aggName i)) := by
  refine (h.map _).trans (.of_eq ?_)
  rw [map_map, range_eq_range', ← zipIdx_map_snd 0 aggrExpr, map_map]
  rfl

lemma tuples_split {e : OrderedClasses V → OrderedClasses V}
    (he : ∀ cl, (e cl).Perm cl) (hnd : (aggregate inp group aggrExpr).schema.Nodup)
    (hs : ¬ (partitionAggregates aggrExpr).1.length ≤ 1)
    (h : rewrite e (.aggregate inp group aggrExpr) = .ok input) :
    input.schema = (aggregate inp group aggrExpr).schema ∧
      input.tuples = ((group.groups inp.eval).filter keyComplete).map fun g =>
        g.1 ++ aggrExpr.map (AggrExpr.eval g.2) := by
  simp only [rewrite, hs, if_false] at h
  obtain ⟨branches, hbr, h⟩ := bind_eq_ok.mp h
  obtain ⟨⟨accPlan, nm⟩, hm, h⟩ := bind_eq_ok.mp h
  obtain ⟨rewritten, hr, h⟩ := bind_eq_ok.mp h
  obtain rfl := pure_eq_ok.mp h
  refine ⟨by simp [schema, Function.comp_def], ?_⟩
  have hper := he (partitionAggregates aggrExpr).1
  have hi := ((hper.flatMap_right Prod.snd).append_right _).trans
    (partitionAggregates_perm aggrExpr)
  cases hcl : e (partitionAggregates aggrExpr).1 with
  | nil =>
    rw [hcl] at hper
    exact absurd hper.length_eq (by simp only [length_nil]; omega)
  | cons c cs =>
    rw [hcl] at hbr hi hper
    have hin : ∀ a ∈ classItems (c :: cs) ++ (partitionAggregates aggrExpr).2,
        aggrExpr[a.1]? = some a.2 := by
      intro a ha
      obtain ⟨p, hp, rfl⟩ := mem_map.mp (hi.mem_iff.mp ha)
      exact mem_zipIdx_iff_getElem?.mp hp
    obtain ⟨first, r, rfl, hlen, ⟨f, hf⟩, hres, hn⟩ :=
      buildBranches_carries hin hbr
    obtain ⟨hmap, f', hc⟩ := foldlM_joinBranch_carries mem_cons_self hres hf (fun _ hg => hg) hm
    have hne : r.isEmpty = false := by
      have hl := hper.length_eq
      rw [length_cons] at hl
      rw [isEmpty_eq_false_iff_exists_mem, ← length_pos_iff_exists_mem]
      omega
    rw [hne] at hc
    simp only at hmap hc
    refine tuples_restored hnd hc (mem_cons_of_mem _ mem_cons_self) ?_
      hr
    rw [hmap]
    exact hn.trans (nameEntry_perm hi)

/-! ### Main result -/

/-- **Splitting preserves the rows** exactly when no group key has a `NULL`. -/
theorem split_preserves_iff (enumerate : OrderedClasses V → OrderedClasses V)
    (henum : ∀ classes, (enumerate classes).Perm classes) (input : LogicalPlan V)
    (group : GroupBy V) (aggrExpr : List (AggrExpr V))
    (hnd : (aggregate input group aggrExpr).schema.Nodup)
    (plan : LogicalPlan V)
    (h : rewrite enumerate (.aggregate input group aggrExpr) = .ok plan) :
    (plan.schema = (aggregate input group aggrExpr).schema ∧
        plan.tuples.Perm (aggregate input group aggrExpr).tuples) ↔
      (partitionAggregates aggrExpr).1.length ≤ 1 ∨ ∀ g ∈ group.groups input.eval, none ∉ g.1 := by
  by_cases hle : (partitionAggregates aggrExpr).1.length ≤ 1
  · have hpl : aggregate input group aggrExpr = plan := by
      simpa only [rewrite, hle, if_true, pure_eq_ok] using h
    subst hpl
    exact iff_of_true ⟨rfl, .refl _⟩ (.inl hle)
  · obtain ⟨hs, ht⟩ := tuples_split henum hnd hle h
    rw [ht, tuples_aggregate hnd]
    constructor
    · rintro ⟨-, hp⟩
      -- a group with a `NULL` in its key has no row after the join
      have hlen := hp.length_eq
      rw [length_map, length_map] at hlen
      refine .inr fun g hg => ?_
      simpa [keyComplete] using length_filter_eq_length_iff.mp hlen g hg
    · rintro (hc | hcom)
      · exact absurd hc hle
      · refine ⟨hs, ?_⟩
        rw [filter_eq_self.mpr fun g hg => by simpa [keyComplete] using hcom g hg]

end Carries

def keyedRows : LogicalPlan ℤ :=
  .scan ["k", "x"] [bindRow ["k", "x"] [none, some 1], bindRow ["k", "x"] [some 7, some 2]]

def groupByK : GroupBy ℤ :=
  .plain [("k", fun row => row "k")]

def orderedAndPlain : List (AggrExpr ℤ) :=
  [.aggregateFunction "first" [⟨"x", true, false⟩] fun rows => (rows.map (· "x")).head?.join,
    .aggregateFunction "count" [] fun rows => some rows.length]

theorem split_loses_null_group :
    (aggregate keyedRows groupByK orderedAndPlain).tuples =
        [[none, some 1, some 1], [some 7, some 2, some 1]] ∧
      ∃ plan, rewrite id (.aggregate keyedRows groupByK orderedAndPlain) = .ok plan ∧
        plan.tuples = [[some 7, some 2, some 1]] :=
  ⟨by decide, _, rfl, by decide⟩

theorem split_preserves_iff_on_keyedRows :
    ∃ plan, rewrite id (.aggregate keyedRows groupByK orderedAndPlain) = .ok plan ∧
      ((plan.schema = (aggregate keyedRows groupByK orderedAndPlain).schema ∧ plan.tuples.Perm
            (aggregate keyedRows groupByK orderedAndPlain).tuples) ↔
        (partitionAggregates orderedAndPlain).1.length ≤ 1 ∨
          ∀ g ∈ groupByK.groups keyedRows.eval, none ∉ g.1) :=
  ⟨_, rfl, split_preserves_iff id (fun _ => .refl _) keyedRows groupByK orderedAndPlain
    (by decide) _ rfl⟩

end Rustice
