import Mathlib.Data.List.Basic

/-!
# Trees of Expressions and Plans

A query plan is a tree of nodes with expressions, and expressions can hold the plans of subqueries.
-/

namespace Rustice

open List

mutual

inductive QueryExpr (L O V : Type) where
  | literal (value : V)
  | scalarFunction (name : String) (args : List (QueryExpr L O V))
  | aliased (expr : QueryExpr L O V) (name : String)
  | other (op : O) (children : List (QueryExpr L O V)) (subqueries : List (QueryPlan L O V))

inductive QueryPlan (L O V : Type) where
  | node (label : L) (exprs : List (QueryExpr L O V)) (inputs : List (QueryPlan L O V))

end

variable {L O V F : Type} (v : V) {motive : QueryExpr L O V → Prop}

lemma QueryExpr.induction_both {Q : QueryPlan L O V → Prop} (literal : ∀ v, motive (.literal v))
    (scalarFunction : ∀ nm ars, (∀ a ∈ ars, motive a) → motive (.scalarFunction nm ars))
    (aliased : ∀ e nm, motive e → motive (.aliased e nm))
    (other : ∀ op cs qs, (∀ c ∈ cs, motive c) → (∀ q ∈ qs, Q q) → motive (.other op cs qs))
    (node : ∀ l es is, (∀ e ∈ es, motive e) → (∀ i ∈ is, Q i) → Q (.node l es is)) :
    (∀ e, motive e) ∧ ∀ p, Q p := by
  have hnil : ∀ {α : Type} {R : α → Prop}, ∀ x ∈ ([] : List α), R x :=
    fun x hx => absurd hx not_mem_nil
  have hc : ∀ {α : Type} {R : α → Prop} (y : α) (ys : List α), R y → (∀ x ∈ ys, R x) →
      ∀ x ∈ y :: ys, R x := fun y ys hy hys => forall_mem_cons.mpr ⟨hy, hys⟩
  exact
    ⟨@QueryExpr.rec L O V motive Q (fun es => ∀ e ∈ es, motive e) (fun ps => ∀ p ∈ ps, Q p) literal
        scalarFunction aliased other node hnil hc hnil hc,
      @QueryPlan.rec L O V motive Q (fun es => ∀ e ∈ es, motive e) (fun ps => ∀ p ∈ ps, Q p) literal
        scalarFunction aliased other node hnil hc hnil hc⟩

@[elab_as_elim]
lemma QueryExpr.induction (literal : ∀ v, motive (.literal v))
    (scalarFunction : ∀ nm ars, (∀ a ∈ ars, motive a) → motive (.scalarFunction nm ars))
    (aliased : ∀ e nm, motive e → motive (.aliased e nm))
    (other : ∀ op cs qs, (∀ c ∈ cs, motive c) → motive (.other op cs qs))
    (e : QueryExpr L O V) : motive e :=
  (QueryExpr.induction_both (Q := fun _ => True) literal scalarFunction aliased
    (fun op cs qs hcs _ => other op cs qs hcs) fun _ _ _ _ _ => trivial).1 e

section Rewrite

variable (deep d : Bool) (f : QueryExpr L O V → QueryExpr L O V)

mutual

def QueryExpr.rewrite : QueryExpr L O V → QueryExpr L O V
  | .literal v => f (.literal v)
  | .scalarFunction name args => f (.scalarFunction name (QueryExpr.rewriteExprs args))
  | .aliased e name => f (.aliased e.rewrite name)
  | .other op cs qs =>
    f (.other op (QueryExpr.rewriteExprs cs) (if deep then QueryPlan.rewritePlans qs else qs))

def QueryExpr.rewriteExprs : List (QueryExpr L O V) → List (QueryExpr L O V)
  | [] => []
  | e :: es => e.rewrite :: QueryExpr.rewriteExprs es

def QueryPlan.rewrite : QueryPlan L O V → QueryPlan L O V
  | .node l es is => .node l (QueryExpr.rewriteExprs es) (QueryPlan.rewritePlans is)

def QueryPlan.rewritePlans : List (QueryPlan L O V) → List (QueryPlan L O V)
  | [] => []
  | p :: ps => p.rewrite :: QueryPlan.rewritePlans ps

end

lemma QueryExpr.rewriteExprs_eq_map (es : List (QueryExpr L O V)) :
    rewriteExprs d f es = es.map (rewrite d f) := by
  induction es with
  | nil => rw [rewriteExprs]; rfl
  | cons e es ih => rw [rewriteExprs, ih, map_cons]

lemma QueryPlan.rewritePlans_eq_map (ps : List (QueryPlan L O V)) :
    rewritePlans d f ps = ps.map (rewrite d f) := by
  induction ps with
  | nil => rw [rewritePlans]; rfl
  | cons p ps ih => rw [rewritePlans, ih, map_cons]

@[simp] lemma QueryExpr.rewrite_literal :
    rewrite d f (.literal v : QueryExpr L O V) = f (.literal v) := by
  rw [rewrite]

@[simp] lemma QueryExpr.rewrite_scalarFunction (nm : String) (ars : List (QueryExpr L O V)) :
    rewrite d f (.scalarFunction nm ars) = f (.scalarFunction nm (ars.map (rewrite d f))) := by
  rw [rewrite, rewriteExprs_eq_map]

@[simp] lemma QueryExpr.rewrite_aliased (e : QueryExpr L O V) (nm : String) :
    rewrite d f (.aliased e nm) = f (.aliased (rewrite d f e) nm) := by
  rw [rewrite]

@[simp] lemma QueryExpr.rewrite_other (op : O) (cs : List (QueryExpr L O V))
    (qs : List (QueryPlan L O V)) : rewrite d f (.other op cs qs) =
      f (.other op (cs.map (rewrite d f)) (if d then qs.map (QueryPlan.rewrite d f) else qs)) := by
  rw [rewrite, rewriteExprs_eq_map, QueryPlan.rewritePlans_eq_map]

@[simp] lemma QueryPlan.rewrite_node (l : L) (es : List (QueryExpr L O V))
    (is : List (QueryPlan L O V)) : rewrite d f (.node l es is) =
      .node l (es.map (QueryExpr.rewrite d f)) (is.map (rewrite d f)) := by
  rw [rewrite, QueryExpr.rewriteExprs_eq_map, rewritePlans_eq_map]

end Rewrite

mutual

inductive QueryExpr.Calls (p : String → Prop) : QueryExpr L O V → Prop where
  | call {name args} : p name → QueryExpr.Calls p (.scalarFunction name args)
  | arg {name args a} : a ∈ args → QueryExpr.Calls p a →
      QueryExpr.Calls p (.scalarFunction name args)
  | expr {e name} : QueryExpr.Calls p e → QueryExpr.Calls p (.aliased e name)
  | child {op cs qs c} : c ∈ cs → QueryExpr.Calls p c → QueryExpr.Calls p (.other op cs qs)
  | subquery {op cs qs q} : q ∈ qs → QueryPlan.Calls p q → QueryExpr.Calls p (.other op cs qs)

inductive QueryPlan.Calls (p : String → Prop) : QueryPlan L O V → Prop where
  | expr {l es is e} : e ∈ es → QueryExpr.Calls p e → QueryPlan.Calls p (.node l es is)
  | input {l es is i} : i ∈ is → QueryPlan.Calls p i → QueryPlan.Calls p (.node l es is)

end

section Calls

variable {p : String → Prop} {name nm : String} {cs : List (QueryExpr L O V)}
  {qs : List (QueryPlan L O V)} {op : O}

@[simp] lemma QueryExpr.not_calls_literal :
    ¬Calls p (.literal v : QueryExpr L O V) := fun h => by cases h

@[simp] lemma QueryExpr.calls_scalarFunction :
    Calls p (.scalarFunction nm cs) ↔ p nm ∨ ∃ a ∈ cs, Calls p a := by
  constructor
  · intro h
    cases h with
    | call h => exact .inl h
    | arg ha h => exact .inr ⟨_, ha, h⟩
  · rintro (h | ⟨a, ha, h⟩)
    · exact .call h
    · exact .arg ha h

@[simp] lemma QueryExpr.calls_aliased {e : QueryExpr L O V} :
    Calls p (.aliased e nm) ↔ Calls p e := by
  constructor
  · intro h
    cases h with
    | expr h => exact h
  · exact .expr

@[simp] lemma QueryExpr.calls_other :
    Calls p (.other op cs qs) ↔ (∃ c ∈ cs, Calls p c) ∨ ∃ q ∈ qs, QueryPlan.Calls p q := by
  constructor
  · intro h
    cases h with
    | child hc h => exact .inl ⟨_, hc, h⟩
    | subquery hq h => exact .inr ⟨_, hq, h⟩
  · rintro (⟨c, hc, h⟩ | ⟨q, hq, h⟩)
    · exact .child hc h
    · exact .subquery hq h

@[simp] lemma QueryPlan.calls_node {l : L} :
    Calls p (.node l cs qs) ↔ (∃ e ∈ cs, QueryExpr.Calls p e) ∨ ∃ i ∈ qs, Calls p i := by
  constructor
  · intro h
    cases h with
    | expr he h => exact .inl ⟨_, he, h⟩
    | input hi h => exact .inr ⟨_, hi, h⟩
  · rintro (⟨e, he, h⟩ | ⟨i, hi, h⟩)
    · exact .expr he h
    · exact .input hi h

inductive QueryExpr.Missed (p : String → Prop) : QueryExpr L O V → Prop where
  | arg {name args a} : ¬p name → a ∈ args → Missed p a → Missed p (.scalarFunction name args)
  | expr {e name} : Missed p e → Missed p (.aliased e name)
  | child {op cs qs c} : c ∈ cs → Missed p c → Missed p (.other op cs qs)
  | subquery {op cs qs q} : q ∈ qs → QueryPlan.Calls p q → Missed p (.other op cs qs)

@[simp] lemma QueryExpr.not_missed_literal :
    ¬Missed p (.literal v : QueryExpr L O V) := fun h => by cases h

@[simp] lemma QueryExpr.missed_scalarFunction :
    Missed p (.scalarFunction nm cs) ↔ ¬p nm ∧ ∃ a ∈ cs, Missed p a := by
  constructor
  · intro h
    cases h with
    | arg hn ha h => exact ⟨hn, _, ha, h⟩
  · rintro ⟨hn, a, ha, h⟩
    exact .arg hn ha h

@[simp] lemma QueryExpr.missed_aliased {e : QueryExpr L O V} :
    Missed p (.aliased e nm) ↔ Missed p e := by
  constructor
  · intro h
    cases h with
    | expr h => exact h
  · exact .expr

@[simp] lemma QueryExpr.missed_other :
    Missed p (.other op cs qs) ↔ (∃ c ∈ cs, Missed p c) ∨ ∃ q ∈ qs, QueryPlan.Calls p q := by
  constructor
  · intro h
    cases h with
    | child hc h => exact .inl ⟨_, hc, h⟩
    | subquery hq h => exact .inr ⟨_, hq, h⟩
  · rintro (⟨c, hc, h⟩ | ⟨q, hq, h⟩)
    · exact .child hc h
    · exact .subquery hq h

end Calls

lemma exists_mem_map_congr {α β : Type} {g : α → β} {l : List α} {P : β → Prop} {Q : α → Prop}
    (h : ∀ a ∈ l, P (g a) ↔ Q a) : (∃ b ∈ l.map g, P b) ↔ ∃ a ∈ l, Q a := by
  simp only [mem_map, exists_exists_and_eq_and]
  exact exists_congr fun a => and_congr_right (h a)

def QueryExpr.dropAlias : QueryExpr L O V → QueryExpr L O V
  | .aliased e _ => e
  | e => e

lemma QueryExpr.dropAlias_scalarFunction (nm : String) (args : List (QueryExpr L O V)) :
    dropAlias (.scalarFunction nm args) = .scalarFunction nm args := rfl

lemma QueryExpr.dropAlias_other (op : O) (cs : List (QueryExpr L O V))
    (qs : List (QueryPlan L O V)) : dropAlias (.other op cs qs) = .other op cs qs := rfl

def QueryExpr.erase : QueryExpr L O V → QueryExpr L O V := rewrite true dropAlias

def QueryPlan.erase : QueryPlan L O V → QueryPlan L O V := rewrite true QueryExpr.dropAlias

lemma QueryExpr.calls_erase_both {p : String → Prop} :
    (∀ e : QueryExpr L O V, e.erase.Calls p ↔ e.Calls p) ∧
      ∀ q : QueryPlan L O V, q.erase.Calls p ↔ q.Calls p := by
  simp only [erase, QueryPlan.erase]
  apply QueryExpr.induction_both
  case literal => intro v; simp [dropAlias]
  case scalarFunction =>
    intro nm ars ih
    rw [rewrite_scalarFunction, dropAlias_scalarFunction, calls_scalarFunction,
      calls_scalarFunction, exists_mem_map_congr ih]
  case aliased =>
    intro e nm ih
    rw [rewrite_aliased, dropAlias, ih, calls_aliased]
  case other =>
    intro op cs qs ihc ihq
    rw [rewrite_other, dropAlias_other, calls_other, calls_other, if_pos rfl,
      exists_mem_map_congr ihc, exists_mem_map_congr ihq]
  case node =>
    intro l es is ihe ihi
    rw [QueryPlan.rewrite_node, QueryPlan.calls_node, QueryPlan.calls_node,
      exists_mem_map_congr ihe, exists_mem_map_congr ihi]

def QueryExpr.literal? : QueryExpr L O V → Option V
  | .literal v => some v
  | _ => none

section Replace

variable (function? : String → Option F) (value : F → Option V → V)

def replaceCall : QueryExpr L O V → QueryExpr L O V
  | .scalarFunction name args =>
    match function? name with
    | some function =>
      .aliased (.literal (value function (args.head?.bind QueryExpr.literal?))) name
    | none => .scalarFunction name args
  | e => e

variable {function? value} {name nm : String} {args ars : List (QueryExpr L O V)}

lemma replaceCall_of_some {function : F} (h : function? name = some function) :
    replaceCall function? value (.scalarFunction name ars) =
      .aliased (.literal (value function (ars.head?.bind QueryExpr.literal?))) name := by
  rw [replaceCall, h]

lemma replaceCall_of_none (h : function? nm = none) :
    replaceCall function? value (.scalarFunction nm args) = .scalarFunction nm args := by
  rw [replaceCall, h]

lemma replaceCall_aliased (e : QueryExpr L O V) (name : String) :
    replaceCall function? value (.aliased e name) = .aliased e name := rfl

lemma replaceCall_other (op : O) (cs : List (QueryExpr L O V)) (qs : List (QueryPlan L O V)) :
    replaceCall function? value (.other op cs qs) = .other op cs qs := rfl

lemma QueryExpr.literal?_rewrite (d : Bool) (e : QueryExpr L O V) :
    (e.rewrite d (replaceCall function? value)).literal? = e.literal? := by
  cases e with
  | literal v => rw [rewrite_literal]; rfl
  | scalarFunction nm ars =>
    rw [rewrite_scalarFunction]
    cases h : function? nm with
    | none => rw [replaceCall_of_none h]; rfl
    | some function => rw [replaceCall_of_some h]; rfl
  | aliased e nm => rw [rewrite_aliased]; rfl
  | other op cs qs => rw [rewrite_other]; rfl

lemma QueryExpr.calls_rewrite_iff (e : QueryExpr L O V) :
    (e.rewrite false (replaceCall function? value)).Calls (fun nm => (function? nm).isSome) ↔
      e.Missed fun nm => (function? nm).isSome := by
  induction e using QueryExpr.induction with
  | literal v => simp [replaceCall]
  | scalarFunction nm ars ih =>
    rw [rewrite_scalarFunction, missed_scalarFunction]
    cases h : function? nm with
    | none =>
      rw [replaceCall_of_none h, calls_scalarFunction, exists_mem_map_congr ih]
      simp [h]
    | some function =>
      rw [replaceCall_of_some h]
      simp
  | aliased e nm ih => rw [rewrite_aliased, replaceCall_aliased, calls_aliased, ih, missed_aliased]
  | other op cs qs ih =>
    rw [rewrite_other, replaceCall_other, calls_other, missed_other, exists_mem_map_congr ih]
    rfl

lemma QueryExpr.rewrite_eq_self_both :
    (∀ e : QueryExpr L O V, ¬e.Calls (fun nm => (function? nm).isSome) →
        e.rewrite true (replaceCall function? value) = e) ∧
      ∀ q : QueryPlan L O V, ¬q.Calls (fun nm => (function? nm).isSome) →
        q.rewrite true (replaceCall function? value) = q := by
  apply QueryExpr.induction_both
  case literal => exact fun v _ => rewrite_literal ..
  case scalarFunction =>
    intro nm ars ih h
    simp only [calls_scalarFunction, not_or, Option.not_isSome_iff_eq_none, not_exists, not_and]
      at h
    rw [rewrite_scalarFunction, replaceCall_of_none h.1,
      map_congr_left fun a ha => ih a ha (h.2 a ha), map_id']
  case aliased =>
    intro e nm ih h
    rw [rewrite_aliased, replaceCall_aliased, ih fun he => h (.expr he)]
  case other =>
    intro op cs qs ihc ihq h
    simp only [calls_other, not_or, not_exists, not_and] at h
    rw [rewrite_other, replaceCall_other, if_pos rfl,
      map_congr_left fun c hc => ihc c hc (h.1 c hc), map_id',
      map_congr_left fun q hq => ihq q hq (h.2 q hq), map_id']
  case node =>
    intro l es is ihe ihi h
    simp only [QueryPlan.calls_node, not_or, not_exists, not_and] at h
    rw [QueryPlan.rewrite_node, map_congr_left fun e he => ihe e he (h.1 e he), map_id',
      map_congr_left fun i hi => ihi i hi (h.2 i hi), map_id']

lemma QueryExpr.rewrite_eq_of_not_missed (e : QueryExpr L O V)
    (h : ¬e.Missed fun nm => (function? nm).isSome) :
    e.rewrite false (replaceCall function? value) =
      e.rewrite true (replaceCall function? value) := by
  induction e using QueryExpr.induction with
  | literal v => rw [rewrite_literal, rewrite_literal]
  | scalarFunction nm ars ih =>
    rw [rewrite_scalarFunction, rewrite_scalarFunction]
    cases hn : function? nm with
    | none => rw [map_congr_left fun a ha => ih a ha fun ha' => h (.arg (by simp [hn]) ha ha')]
    | some function =>
      -- the arguments are dropped, whatever the pass has made of them
      have hf : ∀ d, ((ars.map (rewrite d (replaceCall function? value))).head?.bind literal?) =
            ars.head?.bind literal? := by
        intro d
        cases ars with
        | nil => rfl
        | cons a ars => exact literal?_rewrite d a
      rw [replaceCall_of_some hn, replaceCall_of_some hn, hf, hf]
  | aliased e nm ih => rw [rewrite_aliased, rewrite_aliased, ih fun he => h (.expr he)]
  | other op cs qs ih =>
    have hp : qs.map (QueryPlan.rewrite true (replaceCall function? value)) = qs := by
      rw [map_congr_left fun q hq =>
        rewrite_eq_self_both.2 q fun hq' => h (.subquery hq hq'), map_id']
    rw [rewrite_other, rewrite_other, if_neg Bool.false_ne_true, if_pos rfl, hp,
      map_congr_left fun c hc => ih c hc fun hc' => h (.child hc hc')]

end Replace

end Rustice
