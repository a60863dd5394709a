import Mathlib.Algebra.Order.BigOperators.Group.List
import Mathlib.Data.List.GetD
import Mathlib.Data.List.Sort
import Mathlib.Data.Rat.Floor

/-!
# Interpolated Order Statistics

The `p`-quantile of `n` numbers stands at the index `p * (n - 1)` of the sorted numbers, with
interpolation, and with a tolerance above an integer.
-/

namespace Rustice

open List

namespace OrderStatistic

variable {tol p : ℚ} {n : ℕ}

def lowerRank (p : ℚ) (n : ℕ) : ℕ :=
  ⌊p * (n - 1)⌋₊

def fraction (tol p : ℚ) (n : ℕ) : ℚ :=
  if p * (n - 1) - lowerRank p n < tol then 0 else p * (n - 1) - lowerRank p n

def interpolate (tol p : ℚ) (values : List ℚ) : ℚ :=
  let sorted := values.insertionSort (· ≤ ·)
  let lower := sorted.getD (lowerRank p values.length) 0
  let upper := sorted.getD (lowerRank p values.length + 1) 0
  lower + fraction tol p values.length * (upper - lower)

section Index

lemma lowerRank_one : lowerRank p 1 = 0 := by simp [lowerRank]

lemma lowerRank_le (hp : 0 ≤ p) (hn : 1 ≤ n) : (lowerRank p n : ℚ) ≤ p * (n - 1) := by
  refine Nat.floor_le (mul_nonneg hp ?_)
  have : (1 : ℚ) ≤ n := by exact_mod_cast hn
  linarith

lemma lt_lowerRank_add_one (p : ℚ) (n : ℕ) : p * (n - 1) < lowerRank p n + 1 :=
  Nat.lt_floor_add_one _

lemma fraction_nonneg (tol : ℚ) (hp : 0 ≤ p) (hn : 1 ≤ n) : 0 ≤ fraction tol p n := by
  have hle := lowerRank_le hp hn
  rw [fraction]
  split_ifs
  · exact le_refl 0
  · linarith

lemma fraction_lt_one (tol p : ℚ) (n : ℕ) : fraction tol p n < 1 := by
  have hlt := lt_lowerRank_add_one p n
  rw [fraction]
  split_ifs
  · exact one_pos
  · linarith

lemma fraction_pos_iff (hp : 0 ≤ p) (hn : 1 ≤ n) : 0 < fraction tol p n ↔ fraction tol p n ≠ 0 :=
  (fraction_nonneg tol hp hn).lt_iff_ne'

lemma eq_of_fraction_pos (h : 0 < fraction tol p n) :
    p * (n - 1) = lowerRank p n + fraction tol p n := by
  rw [fraction] at h ⊢
  split_ifs at h ⊢ with hlt
  · exact absurd h (lt_irrefl 0)
  · ring

lemma lt_of_fraction_eq_zero (htol : 0 < tol) (h : fraction tol p n = 0) :
    p * (n - 1) < lowerRank p n + tol := by
  rw [fraction] at h
  split_ifs at h with hlt
  · linarith
  · linarith

lemma fraction_one (htol : 0 < tol) : fraction tol p 1 = 0 := by
  simp [fraction, lowerRank_one, htol]

lemma lowerRank_add_two_le (hp : 0 ≤ p) (hp1 : p < 1) (hn : 2 ≤ n) : lowerRank p n + 2 ≤ n := by
  have hle := lowerRank_le hp (by omega : 1 ≤ n)
  have hn' : (2 : ℚ) ≤ n := by exact_mod_cast hn
  have hlt : (lowerRank p n : ℚ) < n - 1 := by nlinarith
  have hc : ((lowerRank p n + 1 : ℕ) : ℚ) < (n : ℚ) := by
    push_cast
    linarith
  have := Nat.cast_lt.mp hc
  omega

lemma lowerRank_lt (hp : 0 ≤ p) (hp1 : p < 1) (hn : 1 ≤ n) : lowerRank p n < n := by
  rcases Nat.eq_or_lt_of_le hn with rfl | hn
  · simp [lowerRank_one]
  · have := lowerRank_add_two_le hp hp1 hn
    omega

lemma eq_one_of_not_lowerRank_lt (hp : 0 ≤ p) (hp1 : p < 1) (hn : 1 ≤ n)
    (h : ¬ lowerRank p n + 1 < n) : n = 1 := by
  by_contra hm
  have := lowerRank_add_two_le hp hp1 (by omega : 2 ≤ n)
  omega

end Index

section Sorted

lemma interpolate_of_perm {values sorted : List ℚ} (hperm : values.Perm sorted)
    (hs : sorted.Pairwise (· ≤ ·)) : interpolate tol p values =
      sorted.getD (lowerRank p sorted.length) 0 + fraction tol p sorted.length *
        (sorted.getD (lowerRank p sorted.length + 1) 0 -
          sorted.getD (lowerRank p sorted.length) 0) := by
  have hsor : values.insertionSort (· ≤ ·) = sorted :=
    ((perm_insertionSort _ values).trans hperm).eq_of_pairwise' (pairwise_insertionSort _ values) hs
  rw [interpolate, hsor, hperm.length_eq]

lemma interpolate_perm {xs ys : List ℚ} (h : xs.Perm ys) :
    interpolate tol p xs = interpolate tol p ys := by
  rw [interpolate_of_perm (h.trans (perm_insertionSort (· ≤ ·) ys).symm)
    (pairwise_insertionSort _ ys),
    interpolate_of_perm (perm_insertionSort (· ≤ ·) ys).symm
      (pairwise_insertionSort _ ys)]

end Sorted

section Blocks

def blocks (lows : List ℚ) (b : ℕ) (x : ℚ) (d : ℕ) (y : ℚ) : List ℚ :=
  lows.insertionSort (· ≤ ·) ++ (List.replicate b x ++ List.replicate d y)

variable {values lows : List ℚ} {b d : ℕ} {x y : ℚ}

lemma length_blocks : (blocks lows b x d y).length = lows.length + (b + d) := by
  simp [blocks, length_insertionSort]

lemma count_blocks (c : ℚ) : (blocks lows b x d y).count c =
    lows.count c + ((List.replicate b x).count c + (List.replicate d y).count c) := by
  rw [blocks, count_append, count_append, (perm_insertionSort (· ≤ ·) lows).count_eq]

lemma perm_blocks : (lows ++ (List.replicate b x ++ List.replicate d y)).Perm
    (blocks lows b x d y) :=
  (perm_insertionSort (· ≤ ·) lows).symm.append_right _

lemma pairwise_blocks (hlows : ∀ z ∈ lows, z ≤ x) (hxy : x ≤ y) :
    (blocks lows b x d y).Pairwise (· ≤ ·) := by
  refine pairwise_append.mpr ⟨pairwise_insertionSort _ _, pairwise_append.mpr ⟨?_, ?_, ?_⟩, ?_⟩
  · exact pairwise_replicate.mpr (.inr (le_refl x))
  · exact pairwise_replicate.mpr (.inr (le_refl y))
  · intro u hu v hv
    rwa [eq_of_mem_replicate hu, eq_of_mem_replicate hv]
  · intro u hu v hv
    have hux : u ≤ x := hlows u ((mem_insertionSort _).mp hu)
    rcases mem_append.mp hv with hv | hv
    · rwa [eq_of_mem_replicate hv]
    · rw [eq_of_mem_replicate hv]
      exact hux.trans hxy

lemma blocks_getD_mid (hi : lows.length ≤ n) (hi' : n < lows.length + b) :
    (blocks lows b x d y).getD n 0 = x := by
  rw [blocks, getD_append_right _ _ _ _ (by rwa [length_insertionSort]),
    length_insertionSort, getD_append _ _ _ _ (by simp; omega),
      getD_eq_getElem _ _ (by simp; omega)]
  simp

lemma blocks_getD_top (hi : lows.length + b ≤ n) (hi' : n < lows.length + (b + d)) :
    (blocks lows b x d y).getD n 0 = y := by
  rw [blocks, getD_append_right _ _ _ _ (by rw [length_insertionSort]; omega),
    length_insertionSort, getD_append_right _ _ _ _ (by simp; omega),
    getD_eq_getElem _ _ (by simp; omega)]
  simp

variable (hp : 0 ≤ p) (hp1 : p < 1) (htol : 0 < tol) (hlows : ∀ z ∈ lows, z ≤ x) (hxy : x ≤ y)
  (hperm : values.Perm (blocks lows b x d y)) (hne : 1 ≤ values.length)

include hp hp1 htol hlows hxy hperm hne

lemma interpolate_before_top {z : ℚ}
    (hz : (blocks lows b x d y).getD (lowerRank p values.length) 0 = z)
    (h : lows.length + b ≤ lowerRank p values.length + 1) :
    interpolate tol p values = z + fraction tol p values.length * (y - z) := by
  have hl := hperm.length_eq.trans length_blocks
  rw [interpolate_of_perm hperm (pairwise_blocks hlows hxy), ← hperm.length_eq, hz]
  by_cases hn : lowerRank p values.length + 1 < values.length
  · rw [blocks_getD_top h (by omega)]
  · rw [eq_one_of_not_lowerRank_lt hp hp1 hne hn, fraction_one htol]
    ring

lemma interpolate_eq_top (h : lows.length + b ≤ lowerRank p values.length) :
    interpolate tol p values = y := by
  have hl := hperm.length_eq.trans length_blocks
  have hlt := lowerRank_lt hp hp1 hne
  rw [interpolate_before_top hp hp1 htol hlows hxy hperm hne (blocks_getD_top h (by omega))
    (by omega)]
  ring

lemma interpolate_eq_between (hb : 1 ≤ b) (h : lows.length + b = lowerRank p values.length + 1) :
    interpolate tol p values = x + fraction tol p values.length * (y - x) :=
  interpolate_before_top hp hp1 htol hlows hxy hperm hne (blocks_getD_mid (by omega) (by omega))
    (by omega)

omit hp1 htol hne hp in
lemma interpolate_eq_bottom (h : lows.length ≤ lowerRank p values.length)
    (h' : lowerRank p values.length + 2 ≤ lows.length + b) : interpolate tol p values = x := by
  rw [interpolate_of_perm hperm (pairwise_blocks hlows hxy), ← hperm.length_eq,
    blocks_getD_mid h (by omega), blocks_getD_mid (by omega) (by omega)]
  ring

end Blocks

/-- The quantile of the quantiles of parts of these sizes is that of the whole. -/
def Composes (tol p : ℚ) (sizes : List ℕ) : Prop :=
  ∀ parts : List (List ℚ), (parts.map List.length).Perm sizes →
    interpolate tol p (parts.map (interpolate tol p)) = interpolate tol p parts.flatten

lemma one_le_sum {sizes : List ℕ} (hpos : ∀ m ∈ sizes, 1 ≤ m) (hne : sizes ≠ []) :
    1 ≤ sizes.sum := by
  obtain ⟨m, hm⟩ := exists_mem_of_ne_nil _ hne
  exact (hpos m hm).trans (single_le_sum (fun _ _ => Nat.zero_le _) m hm)

def stepPart (p : ℚ) (m : ℕ) (x y : ℚ) : List ℚ :=
  List.replicate (lowerRank p m + 1) x ++ List.replicate (m - (lowerRank p m + 1)) y

section Parts

variable {m : ℕ} {x y : ℚ} (ms : List ℕ)

lemma flatten_replicates (x : ℚ) :
    (ms.map fun m => List.replicate m x).flatten = List.replicate ms.sum x := by
  induction ms with
  | nil => rfl
  | cons m ms ih => rw [map_cons, flatten_cons, ih, replicate_append_replicate, sum_cons]

lemma flatten_append_replicates_perm (l : ℕ → List ℚ) (high : ℕ → ℕ) (y : ℚ) :
    (ms.map fun m => l m ++ List.replicate (high m) y).flatten.Perm
      ((ms.map l).flatten ++ List.replicate (ms.map high).sum y) := by
  induction ms with
  | nil => exact List.Perm.refl _
  | cons m ms ih =>
    refine perm_iff_count.mpr fun z => ?_
    have hc := ih.count_eq z
    simp only [map_cons, flatten_cons, sum_cons, count_append, count_replicate] at hc ⊢
    split_ifs at hc ⊢ <;> omega

lemma map_interpolate_eq {ms : List ℕ} {pt : ℕ → List ℚ}
    (h : ∀ m ∈ ms, interpolate tol p (pt m) = x) :
    (ms.map pt).map (interpolate tol p) = List.replicate ms.length x := by
  rw [map_map, ← map_const']
  exact map_congr_left h

variable (hp : 0 ≤ p) (hp1 : p < 1) (htol : 0 < tol)

include hp hp1 htol

lemma interpolate_replicate (hm : 1 ≤ m) (x : ℚ) : interpolate tol p (List.replicate m x) = x :=
  @interpolate_eq_top tol p _ [] 0 m x x hp hp1 htol (forall_mem_nil _) (le_refl x)
    (List.Perm.refl _) (by simpa using hm) (Nat.zero_le _)

omit htol in
lemma length_stepPart (hm : 1 ≤ m) : (stepPart p m x y).length = m := by
  have := lowerRank_lt hp hp1 hm
  simp only [stepPart, length_append, length_replicate]
  omega

lemma interpolate_stepPart (hm : 1 ≤ m) (hxy : x ≤ y) :
    interpolate tol p (stepPart p m x y) = x + fraction tol p m * (y - x) := by
  have hl := length_stepPart (x := x) (y := y) hp hp1 hm
  have heq := @interpolate_eq_between tol p _ [] _ _ _ _ hp hp1 htol (forall_mem_nil _) hxy
    (List.Perm.refl (stepPart p m x y)) (by omega) (Nat.le_add_left 1 (lowerRank p m))
    (by rw [hl, length_nil, Nat.zero_add])
  rwa [hl] at heq

lemma interpolate_lowerRank_zeros (hm : 1 ≤ m) :
    interpolate tol p (List.replicate (lowerRank p m) 0 ++ List.replicate (m - lowerRank p m) 1) =
      1 := by
  have := lowerRank_lt hp hp1 hm
  have hl : (List.replicate (lowerRank p m) (0 : ℚ) ++
      List.replicate (m - lowerRank p m) 1).length = m := by
    simp only [length_append, length_replicate]
    omega
  exact @interpolate_eq_top tol p _ [] _ _ _ _ hp hp1 htol (forall_mem_nil _) zero_le_one
    (List.Perm.refl _) (by omega) (by rw [hl, length_nil, Nat.zero_add])

end Parts

section Compose

variable {sizes zs os : List ℕ} {j : ℕ}
  (h : Composes tol p sizes) (hp : 0 < p) (hp1 : p < 1) (htol : 0 < tol)
  (hpos : ∀ m ∈ sizes, 1 ≤ m) (hparts : 2 ≤ sizes.length)

include h hp hp1 htol hpos hparts

lemma Composes.step_eq (hperm : (zs ++ j :: os).Perm sizes)
    (hr : lowerRank p sizes.length = zs.length) {c : ℚ} (hc : 0 ≤ c) (hc1 : c ≤ 1) :
    interpolate tol p (blocks (List.replicate (zs.sum + (lowerRank p j + 1)) 0)
      (j - (lowerRank p j + 1)) c os.sum 1) =
        fraction tol p j * c + fraction tol p sizes.length * (1 - fraction tol p j * c) := by
  have hj : 1 ≤ j := hpos j (hperm.subset (by simp))
  have hzp : ∀ m ∈ zs, 1 ≤ m := fun m hm => hpos m (hperm.subset (by simp [hm]))
  have ho : ∀ m ∈ os, 1 ≤ m := fun m hm => hpos m (hperm.subset (by simp [hm]))
  let parts : List (List ℚ) := zs.map (fun m => List.replicate m 0) ++ stepPart p j 0 c ::
    os.map (fun m => List.replicate m 1)
  have hl : (parts.map List.length).Perm sizes := by
    simpa [parts, Function.comp_def, length_stepPart hp.le hp1 hj] using hperm
  have hq : parts.map (interpolate tol p) = List.replicate zs.length 0 ++
      (List.replicate 1 (fraction tol p j * c) ++ List.replicate os.length 1) := by
    rw [map_append, map_cons, interpolate_stepPart hp.le hp1 htol hj hc, zero_add, sub_zero,
      map_interpolate_eq fun m hm => interpolate_replicate hp.le hp1 htol (hzp m hm) 0,
      map_interpolate_eq fun m hm => interpolate_replicate hp.le hp1 htol (ho m hm) 1]
    rfl
  have hf : (blocks (List.replicate (zs.sum + (lowerRank p j + 1)) 0)
      (j - (lowerRank p j + 1)) c os.sum 1).Perm parts.flatten := by
    rw [flatten_append, flatten_cons, flatten_replicates, flatten_replicates, stepPart]
    refine perm_iff_count.mpr fun z => ?_
    simp only [count_blocks, count_append, count_replicate]
    split_ifs <;> omega
  have hcou : (List.replicate zs.length 0 ++ (List.replicate 1 (fraction tol p j * c) ++
      List.replicate os.length 1)).length = sizes.length := by
    rw [← hperm.length_eq]
    simp
  have hlows : ∀ z ∈ List.replicate zs.length (0 : ℚ), z ≤ fraction tol p j * c := fun z hz =>
    (eq_of_mem_replicate hz).trans_le (mul_nonneg (fraction_nonneg tol hp.le hj) hc)
  have hval : fraction tol p j * c ≤ 1 := mul_le_one₀ (fraction_lt_one tol p j).le hc hc1
  have hv := interpolate_eq_between hp.le hp1 htol hlows hval perm_blocks
    (d := os.length) (by omega) (Nat.le_refl 1) (by rw [hcou, length_replicate, hr])
  rw [interpolate_perm hf, ← h parts hl, hq, hv, hcou]

lemma Composes.sum_le (hperm : (zs ++ os).Perm sizes) (hr : lowerRank p sizes.length = zs.length) :
    zs.sum + (os.map (lowerRank p)).sum ≤ lowerRank p sizes.sum := by
  have hzp : ∀ m ∈ zs, 1 ≤ m := fun m hm => hpos m (hperm.subset (by simp [hm]))
  have hop : ∀ m ∈ os, 1 ≤ m := fun m hm => hpos m (hperm.subset (by simp [hm]))
  let parts : List (List ℚ) := zs.map (fun m => List.replicate m 0) ++
    os.map (fun m => List.replicate (lowerRank p m) 0 ++ List.replicate (m - lowerRank p m) 1)
  have hl : (parts.map List.length).Perm sizes := by
    have hos : os.map (fun m => lowerRank p m + (m - lowerRank p m)) = os :=
      (map_congr_left fun m hm => Nat.add_sub_cancel'
        (lowerRank_lt hp.le hp1 (hop m hm)).le).trans (map_id os)
    simpa [parts, Function.comp_def, hos] using hperm
  have hsum : parts.flatten.length = sizes.sum := by rw [length_flatten, hl.sum_eq]
  have hq : parts.map (interpolate tol p) = List.replicate zs.length 0 ++
      (List.replicate 0 0 ++ List.replicate os.length 1) := by
    rw [map_append, map_interpolate_eq fun m hm => interpolate_replicate hp.le hp1 htol
        (hzp m hm) 0,
      map_interpolate_eq fun m hm => interpolate_lowerRank_zeros hp.le hp1 htol (hop m hm)]
    rfl
  have hc : (parts.map (interpolate tol p)).length = sizes.length := by
    rw [← hl.length_eq, length_map, length_map]
  have ho : interpolate tol p (parts.map (interpolate tol p)) = 1 :=
    interpolate_eq_top hp.le hp1 htol (fun z hz => (eq_of_mem_replicate hz).le) zero_le_one
      (hq ▸ perm_blocks) (by omega) (by rw [hc, length_replicate, hr, Nat.add_zero])
  have hf : parts.flatten.Perm (blocks [] (zs.sum + (os.map (lowerRank p)).sum) 0
      (os.map fun m => m - lowerRank p m).sum 1) := by
    have hos := flatten_append_replicates_perm os (fun m => List.replicate (lowerRank p m) 0)
      (fun m => m - lowerRank p m) 1
    have hzer : os.map (fun m => List.replicate (lowerRank p m) (0 : ℚ)) =
        (os.map (lowerRank p)).map fun m => List.replicate m 0 := by
      rw [map_map]
      rfl
    rw [hzer, flatten_replicates] at hos
    rw [flatten_append, flatten_replicates, blocks, insertionSort_nil, nil_append,
      ← replicate_append_replicate, append_assoc]
    exact hos.append_left _
  have hne : 1 ≤ parts.flatten.length := hsum ▸ one_le_sum hpos (length_pos_iff.mp (by omega))
  rw [h parts hl] at ho
  by_contra hlt
  rw [← hsum] at hlt
  rcases Nat.eq_or_lt_of_le (not_le.mp hlt) with heq | hl'
  · rw [interpolate_eq_between hp.le hp1 htol (forall_mem_nil _) zero_le_one hf hne (by omega)
      (by rw [length_nil, Nat.zero_add, ← heq])] at ho
    have := fraction_lt_one tol p parts.flatten.length
    linarith
  · rw [interpolate_eq_bottom (forall_mem_nil _) zero_le_one hf (Nat.zero_le _)
      (by rw [length_nil, Nat.zero_add]; exact hl')] at ho
    exact zero_ne_one ho

lemma Composes.le_sum (hperm : (zs ++ os).Perm sizes)
    (hr : lowerRank p sizes.length + 1 = zs.length) (hf : fraction tol p sizes.length = 0) :
    lowerRank p sizes.sum + 1 ≤ (zs.map fun m => lowerRank p m + 1).sum := by
  have hzp : ∀ m ∈ zs, 1 ≤ m := fun m hm => hpos m (hperm.subset (by simp [hm]))
  have ho : ∀ m ∈ os, 1 ≤ m := fun m hm => hpos m (hperm.subset (by simp [hm]))
  let low := fun m => -(fraction tol p m / (1 - fraction tol p m))
  have hlw : ∀ m, 1 ≤ m → low m ≤ 0 := fun m hm =>
    neg_nonpos.mpr (div_nonneg (fraction_nonneg tol hp.le hm)
      (sub_nonneg.mpr (fraction_lt_one tol p m).le))
  let parts : List (List ℚ) :=
    zs.map (fun m => stepPart p m (low m) 1) ++ os.map (fun m => List.replicate m 1)
  have hl : (parts.map List.length).Perm sizes := by
    have hzs : zs.map (fun m => (stepPart p m (low m) 1).length) = zs :=
      (map_congr_left fun m hm => length_stepPart hp.le hp1 (hzp m hm)).trans (map_id zs)
    simpa [parts, Function.comp_def, hzs] using hperm
  have hsum : parts.flatten.length = sizes.sum := by rw [length_flatten, hl.sum_eq]
  have hzer : ∀ m ∈ zs, interpolate tol p (stepPart p m (low m) 1) = 0 := by
    intro m hm
    have hlt := fraction_lt_one tol p m
    rw [interpolate_stepPart hp.le hp1 htol (hzp m hm) ((hlw m (hzp m hm)).trans zero_le_one)]
    have hne : 1 - fraction tol p m ≠ 0 := by linarith
    simp only [low]
    field_simp
    ring
  have hq : parts.map (interpolate tol p) =
      [] ++ (List.replicate zs.length 0 ++ List.replicate os.length 1) := by
    rw [map_append, map_interpolate_eq hzer,
      map_interpolate_eq fun m hm => interpolate_replicate hp.le hp1 htol (ho m hm) 1]
    rfl
  have hc : (parts.map (interpolate tol p)).length = sizes.length := by
    rw [← hl.length_eq, length_map, length_map]
  have hv := interpolate_eq_between hp.le hp1 htol (forall_mem_nil _) zero_le_one
    (hq ▸ perm_blocks) (by omega) (by omega)
    (by rw [hc, length_nil, Nat.zero_add, hr])
  rw [hc, hf, zero_mul, add_zero, h parts hl] at hv
  let lows := (zs.map fun m => List.replicate (lowerRank p m + 1) (low m)).flatten
  have hlows : ∀ z ∈ lows, z ≤ 1 := by
    intro z hz
    obtain ⟨part, hpar, hz⟩ := mem_flatten.mp hz
    obtain ⟨m, hm, rfl⟩ := mem_map.mp hpar
    exact (eq_of_mem_replicate hz).trans_le ((hlw m (hzp m hm)).trans zero_le_one)
  have hlen : lows.length = (zs.map fun m => lowerRank p m + 1).sum := by
    simp [lows, length_flatten, Function.comp_def]
  have hfl : parts.flatten.Perm (blocks lows 0 1
      ((zs.map fun m => m - (lowerRank p m + 1)).sum + os.sum) 1) := by
    rw [flatten_append, flatten_replicates]
    refine ((flatten_append_replicates_perm zs _ _ 1).append_right _).trans ?_
    rw [append_assoc, replicate_append_replicate]
    exact @perm_blocks lows 0 _ _ _
  have hne : 1 ≤ parts.flatten.length := hsum ▸ one_le_sum hpos (length_pos_iff.mp (by omega))
  by_contra hlt
  rw [interpolate_eq_top hp.le hp1 htol hlows (le_refl 1) hfl hne (by rw [hsum]; omega)] at hv
  exact one_ne_zero hv

omit h hp hp1 htol hpos hparts in
lemma exists_perm {m s : ℕ} (hm : m ∈ sizes) (hs : s < sizes.length) :
    ∃ zs os, zs.length = s ∧ (zs ++ m :: os).Perm sizes := by
  refine ⟨(sizes.erase m).take s, (sizes.erase m).drop s, ?_, ?_⟩
  · rw [length_take, length_erase_of_mem hm]
    omega
  · refine perm_middle.trans ?_
    rw [take_append_drop]
    exact (perm_cons_erase hm).symm

lemma Composes.not_fraction_pos (hf : 0 < fraction tol p sizes.length)
    (hpar : ∃ m ∈ sizes, 2 ≤ m) : False := by
  obtain ⟨j, hj, hj2⟩ := hpar
  have hk := lowerRank_add_two_le hp.le hp1 hparts
  have hr := lowerRank_add_two_le hp.le hp1 hj2
  obtain ⟨zs, os, hzs, hperm⟩ := exists_perm hj (show lowerRank p sizes.length < _ by omega)
  have ho : 1 ≤ os.sum := by
    refine one_le_sum (fun m hm => hpos m (hperm.subset (by simp [hm]))) (length_pos_iff.mp ?_)
    have := hperm.length_eq
    rw [length_append, length_cons] at this
    omega
  have hsum : zs.sum + (j + os.sum) = sizes.sum := by rw [← hperm.sum_eq, sum_append, sum_cons]
  have hlt := fraction_lt_one tol p sizes.length
  -- Without a middle level the whole is zeros and ones, and its quantile lies between them.
  have he := h.step_eq hp hp1 htol hpos hparts hperm hzs.symm (le_refl 0) zero_le_one
  have hlev : (blocks (List.replicate (zs.sum + (lowerRank p j + 1)) 0)
      (j - (lowerRank p j + 1)) 0 os.sum 1).Perm (blocks [] (zs.sum + j) 0 os.sum 1) := by
    refine perm_iff_count.mpr fun z => ?_
    simp only [count_blocks, count_replicate, count_nil]
    split_ifs <;> omega
  have hl : (blocks (List.replicate (zs.sum + (lowerRank p j + 1)) 0)
      (j - (lowerRank p j + 1)) 0 os.sum 1).length = sizes.sum := by
    rw [hlev.length_eq, length_blocks, length_nil]
    omega
  have hne : 1 ≤ (blocks (List.replicate (zs.sum + (lowerRank p j + 1)) 0)
      (j - (lowerRank p j + 1)) 0 os.sum 1).length := by omega
  rw [mul_zero, zero_add, sub_zero, mul_one] at he
  rcases lt_trichotomy (zs.sum + j) (lowerRank p sizes.sum + 1) with hb | hat | ha
  · rw [interpolate_eq_top hp.le hp1 htol (forall_mem_nil _) zero_le_one hlev hne
      (by rw [hl, length_nil]; omega)] at he
    linarith
  · rw [interpolate_eq_between hp.le hp1 htol (forall_mem_nil _) zero_le_one hlev hne (by omega)
      (by rw [hl, length_nil]; omega), hl, zero_add, sub_zero, mul_one] at he
    -- A middle level shows how far the quantile of the part is from its high numbers.
    have hmid := h.step_eq hp hp1 htol hpos hparts hperm hzs.symm (c := 1 / 2) (by norm_num)
      (by norm_num)
    have hl' : (blocks (List.replicate (zs.sum + (lowerRank p j + 1)) 0)
        (j - (lowerRank p j + 1)) (1 / 2) os.sum 1).length = sizes.sum := by
      rw [length_blocks, length_replicate]
      omega
    rw [interpolate_eq_between hp.le hp1 htol
      (fun z hz => (eq_of_mem_replicate hz).trans_le (by norm_num)) (by norm_num)
      (List.Perm.refl _) (by omega) (by omega) (by rw [hl', length_replicate]; omega), hl',
      he] at hmid
    have hpos := mul_pos (sub_pos.mpr hlt) (sub_pos.mpr (fraction_lt_one tol p j))
    linarith
  · rw [interpolate_eq_bottom (forall_mem_nil _) zero_le_one hlev (Nat.zero_le _)
      (by rw [hl, length_nil]; omega)] at he
    linarith

omit h hparts htol in
lemma sum_lowerRank_le (hms : zs ⊆ sizes) : (zs.map fun m => lowerRank p m + 1).sum ≤ zs.sum := by
  conv_rhs => rw [← map_id zs]
  exact sum_le_sum fun m hm => lowerRank_lt hp.le hp1 (hpos m (hms hm))

lemma Composes.not_rank_pos (hf : fraction tol p sizes.length = 0)
    (hran : 0 < lowerRank p sizes.length) (hpar : ∃ m ∈ sizes, 2 ≤ m) : False := by
  obtain ⟨m, hm, hm2⟩ := hpar
  have hk := lowerRank_add_two_le hp.le hp1 hparts
  have hr := lowerRank_add_two_le hp.le hp1 hm2
  obtain ⟨zs, os, hzs, hperm⟩ := exists_perm hm
    (show lowerRank p sizes.length - 1 < sizes.length by omega)
  have hl := hperm.length_eq
  rw [length_append, length_cons] at hl
  obtain ⟨j, os, rfl⟩ := exists_cons_of_ne_nil (length_pos_iff.mp (show 0 < os.length by omega))
  have hle :=
    @Composes.sum_le tol p sizes (zs ++ [m]) _ h hp hp1 htol hpos hparts (by simpa using hperm)
    (by rw [length_append, length_singleton]; omega)
  have hge :=
    @Composes.le_sum tol p sizes (zs ++ [m, j]) _ h hp hp1 htol hpos hparts (by simpa using hperm)
    (by simp only [length_append, length_cons, length_nil]; omega) hf
  have hsum := sum_lowerRank_le hp hp1 hpos
    (show zs ⊆ sizes from fun x hx => hperm.subset (by simp [hx]))
  simp only [map_append, map_cons, map_nil, sum_append, sum_cons, sum_nil] at hle hge
  omega

lemma Composes.lt_tol_of_rank_zero (hr : lowerRank p sizes.length = 0)
    (hf : fraction tol p sizes.length = 0) : p * (sizes.sum - 1) < tol := by
  obtain ⟨a, b, rest, rfl⟩ : ∃ a b rest, sizes = a :: b :: rest := by
    match sizes, hparts with
    | a :: b :: rest, _ => exact ⟨a, b, rest, rfl⟩
  have hle := @Composes.sum_le tol p _ [] _ h hp hp1 htol hpos hparts (List.Perm.refl _) hr
  have ha := @Composes.le_sum tol p _ [a] _ h hp hp1 htol hpos hparts
    (List.Perm.refl (a :: b :: rest)) (by rw [hr]; rfl) hf
  have hb := @Composes.le_sum tol p _ [b] _ h hp hp1 htol hpos hparts (List.Perm.swap a b rest)
    (by rw [hr]; rfl) hf
  have ho := @Composes.step_eq tol p _ [] _ _ h hp hp1 htol hpos hparts
    (List.Perm.refl (a :: b :: rest)) hr 1 zero_le_one (le_refl 1)
  have ha1 := hpos a (by simp)
  have hb1 := hpos b (by simp)
  have hsum : (a :: b :: rest).sum = a + (b + rest.sum) := by rw [sum_cons, sum_cons]
  generalize hN : (a :: b :: rest).sum = N at *
  simp only [map_cons, map_nil, sum_cons, sum_nil] at hle ha hb
  have hra : lowerRank p a = 0 := by omega
  have hrN : lowerRank p N = 0 := by omega
  rw [hra, hf] at ho
  have hl : (blocks (List.replicate (([] : List ℕ).sum + (0 + 1)) 0) (a - (0 + 1)) 1
      (b :: rest).sum 1).length = N := by
    simp only [length_blocks, length_replicate, sum_nil, sum_cons]
    omega
  have hperm : (blocks (List.replicate (([] : List ℕ).sum + (0 + 1)) 0) (a - (0 + 1)) 1
      (b :: rest).sum 1).Perm (blocks [] 1 0 (N - 1) 1) := by
    refine perm_iff_count.mpr fun z => ?_
    simp only [count_blocks, count_replicate, count_nil, sum_nil, sum_cons]
    split_ifs <;> omega
  rw [interpolate_eq_between hp.le hp1 htol (forall_mem_nil _) zero_le_one hperm (by omega)
    (Nat.le_refl 1) (by rw [hl, hrN]; rfl), hl] at ho
  by_cases hz : fraction tol p N = 0
  · have hlt := lt_of_fraction_eq_zero htol hz
    rwa [hrN, Nat.cast_zero, zero_add] at hlt
  · have hN' := (fraction_pos_iff hp.le (by omega)).mpr hz
    have hen := eq_of_fraction_pos hN'
    have he := @eq_of_fraction_pos tol p a (by linarith)
    rw [hrN] at hen
    rw [hra] at he
    have heq : p * ((N : ℚ) - 1) = p * ((a : ℚ) - 1) := by linarith
    have hc : (N : ℚ) = a := by linarith [mul_left_cancel₀ hp.ne' heq]
    have : N = a := by exact_mod_cast hc
    omega

end Compose

section Extreme

variable {sizes : List ℕ} {values : List ℚ}

lemma interpolate_singleton (htol : 0 < tol) (x : ℚ) : interpolate tol p [x] = x := by
  simp [interpolate, lowerRank_one, fraction_one htol]

lemma interpolate_of_fraction_eq_zero (hf : fraction tol p values.length = 0)
    (hr : lowerRank p values.length < values.length) :
    interpolate tol p values ∈ values ∧ ∀ y ∈ values,
      (lowerRank p values.length = 0 → interpolate tol p values ≤ y) ∧
      (lowerRank p values.length + 1 = values.length → y ≤ interpolate tol p values) := by
  have hs := pairwise_insertionSort (· ≤ ·) values
  have hl := length_insertionSort (· ≤ ·) values
  have hm : ∀ y, y ∈ values.insertionSort (· ≤ ·) ↔ y ∈ values :=
    fun y => mem_insertionSort _
  have heq : interpolate tol p values =
      (values.insertionSort (· ≤ ·)).getD (lowerRank p values.length) 0 := by
    rw [interpolate, hf]
    ring
  rw [heq, getD_eq_getElem _ _ (by omega)]
  refine ⟨(hm _).mp (getElem_mem _), fun y hy => ?_⟩
  obtain ⟨i, hi, rfl⟩ := mem_iff_getElem.mp ((hm y).mpr hy)
  refine ⟨fun hfir => ?_, fun hlas => ?_⟩
  · rcases Nat.eq_or_lt_of_le (by omega : lowerRank p values.length ≤ i) with rfl | hlt
    · exact le_refl _
    · exact pairwise_iff_getElem.mp hs _ _ _ _ hlt
  · rcases Nat.eq_or_lt_of_le (by omega : i ≤ lowerRank p values.length) with rfl | hlt
    · exact le_refl _
    · exact pairwise_iff_getElem.mp hs _ _ _ _ hlt

lemma composes_of_extreme (R : ℚ → ℚ → Prop) (ht : ∀ x y z, R x y → R y z → R x z)
    (ha : ∀ x y, R x y → R y x → x = y) (hpos : ∀ m ∈ sizes, 1 ≤ m)
    (he : ∀ values : List ℚ, 1 ≤ values.length → values.length ≤ sizes.sum →
      interpolate tol p values ∈ values ∧ ∀ y ∈ values, R (interpolate tol p values) y) :
    Composes tol p sizes := by
  intro ps hl
  rcases Nat.eq_zero_or_pos ps.length with hn | hsom
  · rw [length_eq_zero_iff] at hn
    subst hn
    rfl
  have hc : ps.length = sizes.length := by rw [← hl.length_eq, length_map]
  have hsum : ps.flatten.length = sizes.sum := by rw [length_flatten, hl.sum_eq]
  have hle : sizes.length ≤ sizes.sum := length_le_sum_of_one_le sizes hpos
  have hpar : ∀ pt ∈ ps, interpolate tol p pt ∈ pt ∧ ∀ y ∈ pt, R (interpolate tol p pt) y := by
    intro pt hm
    have hs : pt.length ∈ sizes := hl.subset (mem_map_of_mem hm)
    exact he pt (hpos _ hs)
      (single_le_sum (fun _ _ => Nat.zero_le _) _ hs)
  obtain ⟨hmer, hm'⟩ := he (ps.map (interpolate tol p))
    (by rwa [length_map]) (by rw [length_map, hc]; exact hle)
  obtain ⟨hw, hw'⟩ := he ps.flatten (by omega) hsum.le
  -- Each of the two is among the numbers, and extreme there.
  refine ha _ _ ?_ ?_
  · obtain ⟨pt, hm, hy⟩ := mem_flatten.mp hw
    exact ht _ _ _ (hm' _ (mem_map_of_mem hm)) ((hpar pt hm).2 _ hy)
  · obtain ⟨pt, hm, heq⟩ := mem_map.mp hmer
    rw [← heq]
    exact hw' _ (mem_flatten.mpr ⟨pt, hm, (hpar pt hm).1⟩)

lemma composes_of_lt_tol (hp : 0 ≤ p) (ht1 : tol ≤ 1)
    (hpos : ∀ m ∈ sizes, 1 ≤ m) (h : p * (sizes.sum - 1) < tol) : Composes tol p sizes := by
  refine composes_of_extreme (· ≤ ·) (fun _ _ _ => le_trans) (fun _ _ => le_antisymm) hpos
    fun values hv hle => ?_
  have hc : (values.length : ℚ) ≤ sizes.sum := by exact_mod_cast hle
  have hi : p * (values.length - 1) < tol :=
    (mul_le_mul_of_nonneg_left (by linarith) hp).trans_lt h
  have hr : lowerRank p values.length = 0 :=
    Nat.floor_eq_zero.mpr (hi.trans_le ht1)
  have hf : fraction tol p values.length = 0 := by
    rw [fraction, hr, Nat.cast_zero, sub_zero, if_pos hi]
  obtain ⟨hm, hl⟩ := interpolate_of_fraction_eq_zero hf (by omega)
  exact ⟨hm, fun y hy => (hl y hy).1 hr⟩

lemma composes_one (htol : 0 < tol) (hpos : ∀ m ∈ sizes, 1 ≤ m) : Composes tol 1 sizes := by
  refine composes_of_extreme (· ≥ ·) (fun _ _ _ => ge_trans) (fun _ _ => ge_antisymm) hpos
    fun values hv _ => ?_
  have hi : (1 : ℚ) * ((values.length : ℚ) - 1) = (values.length - 1 : ℕ) := by
    push_cast [hv]
    ring
  have hr : lowerRank 1 values.length = values.length - 1 := by
    rw [lowerRank, hi, Nat.floor_natCast]
  have hf : fraction tol 1 values.length = 0 := by rw [fraction, hr, hi, sub_self, if_pos htol]
  obtain ⟨hm, hg⟩ := interpolate_of_fraction_eq_zero hf (by omega)
  exact ⟨hm, fun y hy => (hg y hy).2 (by omega)⟩

lemma composes_of_singletons (htol : 0 < tol) (h : ∀ m ∈ sizes, m = 1) : Composes tol p sizes := by
  intro ps hl
  have ho : ∀ pt ∈ ps, pt.length = 1 := fun pt hm =>
    h _ (hl.subset (mem_map_of_mem hm))
  suffices heq : ps.map (interpolate tol p) = ps.flatten by rw [heq]
  clear hl
  induction ps with
  | nil => rfl
  | cons pt ps ih =>
    rw [forall_mem_cons] at ho
    obtain ⟨x, rfl⟩ := length_eq_one_iff.mp ho.1
    rw [map_cons, flatten_cons, interpolate_singleton htol, ih ho.2]
    rfl

lemma composes_of_length_le_one (htol : 0 < tol) (h : sizes.length ≤ 1) : Composes tol p sizes := by
  intro ps hl
  have hc : ps.length ≤ 1 := by rwa [← hl.length_eq, length_map] at h
  match ps, hc with
  | [], _ => rfl
  | [part], _ => simpa using interpolate_singleton htol (interpolate tol p part)

lemma composes_iff (hp : 0 ≤ p) (hp1 : p ≤ 1) (htol : 0 < tol) (ht1 : tol ≤ 1)
    (hpos : ∀ m ∈ sizes, 1 ≤ m) : Composes tol p sizes ↔
      p * (sizes.sum - 1) < tol ∨ p = 1 ∨ sizes.length ≤ 1 ∨ ∀ m ∈ sizes, m = 1 := by
  constructor
  · intro h
    rcases hp.eq_or_lt with rfl | hp
    · left
      rwa [zero_mul]
    rcases hp1.eq_or_lt with rfl | hp1
    · exact .inr (.inl rfl)
    rcases Nat.lt_or_ge 1 sizes.length with hparts | hparts
    swap
    · exact .inr (.inr (.inl hparts))
    by_cases hs : ∀ m ∈ sizes, m = 1
    · exact .inr (.inr (.inr hs))
    have hpar : ∃ m ∈ sizes, 2 ≤ m := by
      push Not at hs
      obtain ⟨m, hm, hne⟩ := hs
      exact ⟨m, hm, by have := hpos m hm; omega⟩
    rcases (fraction_nonneg tol hp.le (by omega : 1 ≤ sizes.length)).eq_or_lt with hz | hps
    · rcases Nat.eq_zero_or_pos (lowerRank p sizes.length) with hr | hr
      · exact .inl (h.lt_tol_of_rank_zero hp hp1 htol hpos hparts hr hz.symm)
      · exact (h.not_rank_pos hp hp1 htol hpos hparts hz.symm hr hpar).elim
    · exact (h.not_fraction_pos hp hp1 htol hpos hparts hps hpar).elim
  · rintro (hmin | rfl | ho | hs)
    · exact composes_of_lt_tol hp ht1 hpos hmin
    · exact composes_one htol hpos
    · exact composes_of_length_le_one htol ho
    · exact composes_of_singletons htol hs

end Extreme

end OrderStatistic

end Rustice
