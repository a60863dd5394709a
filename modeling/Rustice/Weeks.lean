import Rustice.Calendar

/-!
# Weeks

Days are day numbers, and weekdays are counted from Monday.
-/

namespace Rustice

def daysFromMonday (n : ℤ) : ℕ := ((n + 3) % 7).toNat

def weekIndex (start : ℕ) (n : ℤ) : ℤ := (n + 3 - start) / 7

def daysIntoWeek (start : ℕ) (n : ℤ) : ℤ := (n + 3 - start) % 7

def weekFirstDay (start : ℕ) (n : ℤ) : ℤ := n - daysIntoWeek start n

lemma weekFirstDay_eq (s : ℕ) (n : ℤ) : weekFirstDay s n = 7 * weekIndex s n + s - 3 := by
  rw [weekFirstDay, daysIntoWeek, weekIndex]
  omega

lemma weekIndex_add (s : ℕ) (n k : ℤ) :
    weekIndex s (n + k) = weekIndex s n + (daysIntoWeek s n + k) / 7 := by
  rw [weekIndex, weekIndex, daysIntoWeek]
  omega

variable {start s : ℕ} {n : ℤ}

open CivilDate

def daysInWeek (start : ℕ) (n y : ℤ) : ℕ :=
  (List.range 7).countP fun i => (ofDayNumber (weekFirstDay start n + (i : ℕ))).year = y

def weekMiddle (start : ℕ) (n : ℤ) : ℤ := weekFirstDay start n + 3

def weekYear (start : ℕ) (n : ℤ) : ℤ := (ofDayNumber (weekMiddle start n)).year

def weekNumber (start : ℕ) (n : ℤ) : ℤ :=
  (weekMiddle start n - yearStart (weekYear start n)) / 7 + 1

lemma year_halfWeek (n : ℤ) :
    (∀ i < 4, (ofDayNumber (n + (i : ℕ))).year = (ofDayNumber (n + 3)).year) ∨ ∀ i < 7, 3 ≤ i →
        (ofDayNumber (n + (i : ℕ))).year = (ofDayNumber (n + 3)).year := by
  generalize hy : (ofDayNumber (n + 3)).year = y
  obtain ⟨hle, hlt⟩ := year_ofDayNumber_eq_iff.mp hy
  by_cases hs : yearStart y ≤ n
  · exact .inl fun i hi => year_ofDayNumber_eq_iff.mpr ⟨by omega, by omega⟩
  · have hsuc := yearStart_succ y
    have hl := daysInYear_bounds y
    exact .inr fun i hi hi' => year_ofDayNumber_eq_iff.mpr ⟨by omega, by omega⟩

lemma four_le_countP_range_seven {p : ℕ → Bool}
    (hp : (∀ i < 4, p i = p 3) ∨ ∀ i < 7, 3 ≤ i → p i = p 3) :
    4 ≤ (List.range 7).countP p ↔ p 3 = true := by
  have hbl : ∀ b : List ℕ, (∀ i ∈ b, p i = p 3) → b.countP p = if p 3 then b.length else 0 := by
    intro b hb
    split
    case isTrue h => exact List.countP_eq_length.mpr fun i hi => (hb i hi).trans h
    case isFalse h => exact List.countP_eq_zero.mpr fun i hi => (hb i hi).symm ▸ h
  obtain hf | hl := hp
  · have hc := hbl (List.range 4) fun i hi => hf i (List.mem_range.mp hi)
    have hres : ([4, 5, 6] : List ℕ).countP p ≤ 3 := List.countP_le_length
    have hr : List.range 7 = List.range 4 ++ [4, 5, 6] := rfl
    rw [hr, List.countP_append, hc, List.length_range]
    split
    case isTrue h => exact iff_of_true (by omega) h
    case isFalse h => exact iff_of_false (by omega) h
  · have hc := hbl [3, 4, 5, 6] fun i hi => by
      simp only [List.mem_cons, List.not_mem_nil, or_false] at hi
      exact hl i (by omega) (by omega)
    have hres : (List.range 3).countP p ≤ 3 := List.countP_le_length
    have hr : List.range 7 = List.range 3 ++ [3, 4, 5, 6] := rfl
    rw [hr, List.countP_append, hc]
    split
    case isTrue h => exact iff_of_true (Nat.le_add_left 4 _) h
    case isFalse h => exact iff_of_false (by omega) h

lemma four_le_daysInWeek_iff {n y : ℤ} : 4 ≤ daysInWeek s n y ↔ weekYear s n = y := by
  rw [daysInWeek, four_le_countP_range_seven]
  · rw [decide_eq_true_eq, weekYear, weekMiddle]
    rfl
  · obtain hf | hl := year_halfWeek (weekFirstDay s n)
    · exact .inl fun i hi => by rw [hf i hi, hf 3 (by omega)]
    · exact .inr fun i hi hi' => by rw [hl i hi hi', hl 3 (by omega) le_rfl]

/-- Weeks start on the weekday, and the first of a year has at least four days in it. -/
structure IsWeekNumbering (start : ℕ) (D : ℤ → Prop) (number : ℤ → Option (ℤ × ℤ)) : Prop where
  exists_number : ∀ n, D n → ∃ year week, number n = some (year, week)
  same_week : ∀ m n, D m → D n → weekIndex start m = weekIndex start n → number m = number n
  first_week : ∀ n year, D n → (number n = some (year, 1) ↔
    4 ≤ daysInWeek start n year ∧ ¬4 ≤ daysInWeek start (n - 7) year)
  next_week : ∀ n year week, D n → D (n + 7) → number n = some (year, week) →
    number (n + 7) = some (year, week + 1) ∨ number (n + 7) = some (year + 1, 1)

lemma weekMiddle_eq (start : ℕ) (n : ℤ) : weekMiddle start n = 7 * weekIndex start n + start := by
  rw [weekMiddle, weekFirstDay_eq]
  omega

lemma weekMiddle_add_seven (s : ℕ) (n : ℤ) : weekMiddle s (n + 7) = weekMiddle s n + 7 := by
  rw [weekMiddle_eq, weekMiddle_eq, weekIndex, weekIndex]
  omega

lemma weekMiddle_bounds (s : ℕ) (n : ℤ) :
    yearStart (weekYear s n) ≤ weekMiddle s n ∧ weekMiddle s n < yearStart (weekYear s n + 1) :=
  year_ofDayNumber_eq_iff.mp rfl

lemma weekNumber_eq_one_iff : weekNumber s n = 1 ↔ weekYear s (n - 7) ≠ weekYear s n := by
  have hb := weekMiddle_bounds s n
  have hp := weekMiddle_add_seven s (n - 7)
  rw [Int.sub_add_cancel] at hp
  rw [weekNumber, Ne, weekYear.eq_def s (n - 7), year_ofDayNumber_eq_iff]
  omega

lemma weekNumber_succ (h : weekYear s (n + 7) = weekYear s n) :
    weekNumber s (n + 7) = weekNumber s n + 1 := by
  rw [weekNumber, weekNumber, h, weekMiddle_add_seven]
  omega

lemma weekYear_succ (h : weekYear s (n + 7) ≠ weekYear s n) :
    weekYear s (n + 7) = weekYear s n + 1 := by
  obtain ⟨hle, hlt⟩ := weekMiddle_bounds s n
  have hs := yearStart_succ (weekYear s n + 1)
  have hl := daysInYear_bounds (weekYear s n + 1)
  rw [Ne, weekYear, year_ofDayNumber_eq_iff, weekMiddle_add_seven] at h
  rw [weekYear, year_ofDayNumber_eq_iff, weekMiddle_add_seven]
  omega

lemma isWeekNumbering_majority (s : ℕ) (D : ℤ → Prop) :
    IsWeekNumbering s D fun n => some (weekYear s n, weekNumber s n) where
  exists_number n _ := ⟨_, _, rfl⟩
  same_week m n _ _ hw := by
    rw [weekNumber, weekNumber, weekYear, weekYear, weekMiddle_eq, weekMiddle_eq, hw]
  first_week n year _ := by
    rw [four_le_daysInWeek_iff, four_le_daysInWeek_iff, Option.some.injEq, Prod.mk.injEq,
      weekNumber_eq_one_iff]
    constructor
    · rintro ⟨rfl, hne⟩
      exact ⟨rfl, hne⟩
    · rintro ⟨rfl, hne⟩
      exact ⟨rfl, hne⟩
  next_week n year week _ _ hn := by
    cases hn
    by_cases hy : weekYear s (n + 7) = weekYear s n
    · exact .inl (by rw [weekNumber_succ hy, hy])
    · have ho : weekNumber s (n + 7) = 1 :=
        weekNumber_eq_one_iff.mpr (by rw [Int.add_sub_cancel]; exact Ne.symm hy)
      exact .inr (by rw [ho, weekYear_succ hy])

end Rustice
