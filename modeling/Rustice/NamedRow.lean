import Rustice.Join

/-!
# Rows with Named Columns

A row gives each column name a value, `none` for `NULL`.
-/

namespace Rustice

open List

variable {V : Type*} {cs : List String} {n : String}

abbrev NamedRow (V : Type*) := String → Option V

def bindRow : List String → List (Option V) → NamedRow V
  | n :: ns, v :: vs => fun m => if m = n then v else bindRow ns vs m
  | _, _ => fun _ => none

lemma map_bindRow {nm : List String} {values : List (Option V)}
    (hnd : nm.Nodup) (hle : nm.length = values.length) : nm.map (bindRow nm values) = values := by
  induction nm generalizing values with
  | nil => exact (length_eq_zero_iff.mp hle.symm).symm
  | cons n nm ih =>
    cases values with
    | nil => exact absurd hle (by simp)
    | cons v values =>
      obtain ⟨hnm, hnd⟩ := nodup_cons.mp hnd
      have hr : nm.map (bindRow (n :: nm) (v :: values)) = nm.map (bindRow nm values) := by
        refine map_congr_left fun m hm => ?_
        have hne : m ≠ n := fun h => hnm (h ▸ hm)
        simp [bindRow, hne]
      rw [map_cons, hr, ih hnd (Nat.succ.inj hle)]
      simp [bindRow]

lemma bindRow_project {es : List (String × String)} (hnd : (es.map Prod.snd).Nodup)
    (r : NamedRow V) {e : String × String} (he : e ∈ es) :
    bindRow (es.map Prod.snd) (es.map fun e => r e.1) e.2 = r e.1 := by
  have hmap : (es.map Prod.snd).map (bindRow (es.map Prod.snd)
      (es.map fun e => r e.1)) = es.map fun e => r e.1 :=
    map_bindRow hnd (by simp)
  rw [map_map] at hmap
  exact map_inj_left.mp hmap e he

lemma map_bindRow_project {es cs : List (String × String)}
    (hnd : (es.map Prod.snd).Nodup) (row : NamedRow V) (hc : cs ⊆ es) :
    (cs.map Prod.snd).map (bindRow (es.map Prod.snd) (es.map fun e => row e.1)) =
      (cs.map Prod.fst).map row := by
  rw [map_map, map_map]
  exact map_congr_left fun e he => bindRow_project hnd row (hc he)

def mergeRows (columns : List String) (l r : NamedRow V) : NamedRow V :=
  fun n => if n ∈ columns then l n else r n

lemma mergeRows_left {l r : NamedRow V} (h : n ∈ cs) : mergeRows cs l r n = l n :=
  if_pos h

lemma mergeRows_right {l r : NamedRow V} (h : n ∉ cs) : mergeRows cs l r n = r n :=
  if_neg h

section Equality

variable [DecidableEq V]

def sqlEq : Option V → Option V → Truth
  | some a, some b => some (a == b)
  | _, _ => none

def keysEq (k k' : List (Option V)) : Truth :=
  ((k.zip k').map fun p => sqlEq p.1 p.2).foldl Truth.and (some true)

lemma sqlEq_eq_true_iff {a b : Option V} : sqlEq a b = some true ↔ a = b ∧ a ≠ none := by
  cases a <;> cases b <;> simp [sqlEq]

lemma keysEq_eq_true_iff {k k' : List (Option V)} (hle : k.length = k'.length) :
    keysEq k k' = some true ↔ k = k' ∧ none ∉ k := by
  rw [keysEq]
  rw [Truth.foldl_and_eq_true_iff, forall_mem_map]
  simp only [sqlEq_eq_true_iff, true_and]
  induction k generalizing k' with
  | nil =>
    have hk' : k' = [] := length_eq_zero_iff.mp hle.symm
    simp [hk']
  | cons v k ih =>
    cases k' with
    | nil => exact absurd hle (by simp)
    | cons v' k' =>
      rw [zip_cons_cons, forall_mem_cons, ih (Nat.succ.inj hle),
        List.cons.injEq, mem_cons, not_or, ne_comm]
      constructor
      · rintro ⟨⟨hv, hn⟩, hk, hm⟩
        exact ⟨⟨hv, hk⟩, hn, hm⟩
      · rintro ⟨⟨hv, hk⟩, hn, hm⟩
        exact ⟨⟨hv, hn⟩, hk, hm⟩

end Equality

end Rustice
