import Rustice.AsciiCase
import Rustice.StringMap

/-!
# Inlining References to Common Table Expressions

A table with the name of a common table expression is replaced by a copy of its query, in which
references are inlined again; the names of the copies are on a stack.
-/

namespace Rustice

open Option

variable {L M : Type}

/-- A syntax tree, with the type `M` of the names that copies of queries are marked with. A query
as it is parsed has no copies: its type `M` is empty. -/
inductive SqlTree (L M : Type) where
  | nil
  | siblings (first rest : SqlTree L M)
  | node (label : L) (children : SqlTree L M)
  | table (name : String) (tableAlias : L) (children : SqlTree L M)
  | derived (mark : M) (tableAlias : L) (subquery : SqlTree L M)

namespace SqlTree

/-- The traversal of `VisitMut`, which leaves a table factor after its children. -/
def visit (postVisit : String → L → SqlTree L M → Option (SqlTree L M)) :
    SqlTree L Empty → Option (SqlTree L M)
  | nil => some nil
  | siblings first rest =>
    (visit postVisit first).bind fun first => (visit postVisit rest).map (siblings first)
  | node label children => (visit postVisit children).map (node label)
  | table name tableAlias children => (visit postVisit children).bind (postVisit name tableAlias)

/-- A table `name` with the copies `marks` around it, the outermost first. -/
inductive Occurs (name : String) : List M → SqlTree L M → Prop where
  | here {tableAlias children} : Occurs name [] (table name tableAlias children)
  | first {marks first rest} : Occurs name marks first → Occurs name marks (siblings first rest)
  | rest {marks first rest} : Occurs name marks rest → Occurs name marks (siblings first rest)
  | node {marks label children} : Occurs name marks children →
      Occurs name marks (node label children)
  | table {marks name' tableAlias children} : Occurs name marks children →
      Occurs name marks (table name' tableAlias children)
  | derived {marks mark tableAlias subquery} : Occurs name marks subquery →
      Occurs name (mark :: marks) (derived mark tableAlias subquery)

lemma exists_visit {pv : String → L → SqlTree L M → Option (SqlTree L M)}
    (h : ∀ nm ta c, ∃ t, pv nm ta c = some t) (t : SqlTree L Empty) :
    ∃ t', visit pv t = some t' := by
  induction t with
  | nil => exact ⟨nil, rfl⟩
  | siblings a r i ihr =>
    obtain ⟨a', hf⟩ := i
    obtain ⟨r', hr⟩ := ihr
    exact ⟨siblings a' r', by rw [visit, hf, hr]; rfl⟩
  | node l c ih =>
    obtain ⟨c', hc⟩ := ih
    exact ⟨node l c', by rw [visit, hc]; rfl⟩
  | table nm ta c ih =>
    obtain ⟨c', hc⟩ := ih
    rw [visit, hc]
    exact h nm ta c'
  | derived m => exact m.elim

/-- Each table in the tree that `P` holds of is in a copy of `Q`. -/
def Covered (P : String → Prop) (Q : String → List M → Prop) (t : SqlTree L M) : Prop :=
  ∀ name marks, Occurs name marks t → P name → Q name marks

lemma covered_of_visit {P : String → Prop} {Q : String → List M → Prop}
    {postVisit : String → L → SqlTree L M → Option (SqlTree L M)}
    (h : ∀ {nm ta c t}, Covered P Q c →
      postVisit nm ta c = some t → Covered P Q t)
    {t : SqlTree L Empty} {t' : SqlTree L M} (ht : visit postVisit t = some t') :
    Covered P Q t' := by
  induction t generalizing t' with
  | nil =>
    cases ht
    intro nm ms ho
    cases ho
  | siblings first rest ihf ihr =>
    obtain ⟨first', hf, ht⟩ := bind_eq_some_iff.mp ht
    obtain ⟨rest', hr, rfl⟩ := map_eq_some_iff.mp ht
    intro nm ms ho
    cases ho with
    | first ho => exact ihf hf nm ms ho
    | rest ho => exact ihr hr nm ms ho
  | node label c ih =>
    obtain ⟨c', hc, rfl⟩ := map_eq_some_iff.mp ht
    intro nm ms ho
    cases ho with
    | node ho => exact ih hc nm ms ho
  | table nm ta c ih =>
    obtain ⟨c', hc, ht⟩ := bind_eq_some_iff.mp ht
    exact h (ih hc) ht
  | derived mark => exact mark.elim

end SqlTree

open SqlTree

/-- The queries by the names of their common table expressions in lower case. -/
abbrev CteMap (L : Type) := AList fun _ : String => SqlTree L Empty

namespace CteMap

variable (ctes : CteMap L)

def postVisitTableFactor (stack : List String)
    (visitCopy : String → SqlTree L Empty → Option (SqlTree L String)) (name : String)
    (tableAlias : L)
    (children : SqlTree L String) : Option (SqlTree L String) :=
  let key := toAsciiLowercase name
  if key ∈ stack then some (table name tableAlias children)
  else
    match ctes.lookup key with
    | none => some (table name tableAlias children)
    | some query => (visitCopy key query).map (derived key tableAlias)

/-- The inliner with room for `room` more names on the stack. -/
def inline : ℕ → List String → SqlTree L Empty → Option (SqlTree L String)
  | 0, stack => SqlTree.visit (ctes.postVisitTableFactor stack fun _ _ => none)
  | room + 1, stack => SqlTree.visit (ctes.postVisitTableFactor stack fun key query =>
      inline room (key :: stack) query)

def inlineCteRefsInQuery (query : SqlTree L Empty) : Option (SqlTree L String) :=
  ctes.inline ctes.keys.length [] query

variable {ctes} {stack s : List String} {vc : String → SqlTree L Empty → Option (SqlTree L String)}
  {r : ℕ}

lemma exists_postVisit
    (h : ∀ {k q}, k ∉ s → ctes.lookup k = some q → ∃ t, vc k q = some t) (nm : String) (ta : L)
    (c : SqlTree L String) : ∃ t, ctes.postVisitTableFactor s vc nm ta c = some t := by
  rw [postVisitTableFactor]
  split
  case isTrue => exact ⟨_, rfl⟩
  case isFalse hm =>
    split
    case h_1 => exact ⟨_, rfl⟩
    case h_2 q hq =>
      obtain ⟨t, ht⟩ := h hm hq
      exact ⟨_, map_eq_some_iff.mpr ⟨t, ht, rfl⟩⟩

lemma exists_inline (hn : s.Nodup) (hs : s ⊆ ctes.keys)
    (hr : ctes.keys.length ≤ r + s.length) (q : SqlTree L Empty) :
    ∃ t, ctes.inline r s q = some t := by
  induction r generalizing s q with
  | zero =>
    -- The stack has all names, so that no copy is made.
    have hall := ((List.subperm_of_subset hn hs).perm_of_length_le (by omega)).symm.subset
    exact exists_visit (exists_postVisit fun hm hq => absurd (hall (mem_of_lookup hq)) hm) q
  | succ r ih =>
    refine exists_visit (exists_postVisit fun hm hq => ?_) q
    refine ih (List.nodup_cons.mpr ⟨hm, hn⟩) (List.cons_subset.mpr ⟨mem_of_lookup hq, hs⟩) ?_ _
    rw [List.length_cons]
    omega

/-- In a copy or on the stack. -/
def Held (stack : List String) (name : String) (marks : List String) : Prop :=
  toAsciiLowercase name ∈ marks ∨ toAsciiLowercase name ∈ stack

def Named (ctes : CteMap L) (name : String) : Prop := toAsciiLowercase name ∈ ctes

lemma covered_postVisit (hv : ∀ {k q t}, vc k q = some t → Covered ctes.Named (Held (k :: s)) t)
    {nm : String} {ta : L} {c t : SqlTree L String} (hc : Covered ctes.Named (Held s) c)
    (h : ctes.postVisitTableFactor s vc nm ta c = some t) : Covered ctes.Named (Held s) t := by
  have hs : Held s nm [] ∨ ¬ctes.Named nm → Covered ctes.Named (Held s) (table nm ta c) := by
    intro hn nm' ms ho hm
    cases ho with
    | here => exact hn.resolve_right (not_not_intro hm)
    | table ho => exact hc nm' ms ho hm
  rw [postVisitTableFactor] at h
  split at h
  case isTrue hk =>
    cases h
    exact hs (.inl (.inr hk))
  case isFalse =>
    split at h
    case h_1 hl =>
      cases h
      exact hs (.inr (AList.lookup_eq_none.mp hl))
    case h_2 q hl =>
      obtain ⟨subquery, hq, rfl⟩ := map_eq_some_iff.mp h
      intro nm' ms ho hm
      cases ho with
      | derived ho =>
        obtain hk | hk := hv hq nm' _ ho hm
        · exact .inl (List.mem_cons_of_mem _ hk)
        · obtain hk | hk := List.mem_cons.mp hk
          · exact .inl (hk ▸ List.mem_cons_self)
          · exact .inr hk

lemma covered_inline {q : SqlTree L Empty} {t : SqlTree L String}
    (h : ctes.inline r s q = some t) : Covered ctes.Named (Held s) t := by
  induction r generalizing s q t with
  | zero => exact covered_of_visit (covered_postVisit fun hq => by cases hq) h
  | succ r ih => exact covered_of_visit (covered_postVisit ih) h

/-! ### Main result -/

/-- **Inlining ends with at most as many names on the stack as there are common table expressions,
and each table that is left with the name of one is in a copy of it.** -/
theorem inlineCteRefsInQuery_complete (ctes : CteMap L) (query : SqlTree L Empty) :
    ∃ t, ctes.inlineCteRefsInQuery query = some t ∧
      ∀ name marks, Occurs name marks t → toAsciiLowercase name ∈ ctes →
        toAsciiLowercase name ∈ marks := by
  obtain ⟨t, ht⟩ := @exists_inline L ctes [] ctes.keys.length .nil (List.nil_subset _) le_rfl query
  refine ⟨t, ht, fun name marks ho hm => ?_⟩
  exact (covered_inline ht name marks ho hm).resolve_right List.not_mem_nil

end CteMap

end Rustice
