import Mathlib.Algebra.Order.Group.Nat
import Mathlib.Data.List.Basic

/-!
# Regular Expressions

A regular expression over any alphabet, with assertions about positions and numbered groups.
-/

namespace Rustice

open List

inductive Regex (α : Type) where
  | empty
  | set (chars : α → Bool)
  | look (holds : List α → ℕ → Bool)
  | cat (r₁ r₂ : Regex α)
  | alt (r₁ r₂ : Regex α)
  | rep (min : ℕ) (more : Option ℕ) (greedy : Bool) (r : Regex α)
  | group (index : ℕ) (r : Regex α)

def Rounds (R : ℕ → ℕ → Prop) : ℕ → ℕ → ℕ → Prop
  | 0, i, j => i = j
  | n + 1, i, j => ∃ k, R i k ∧ Rounds R n k j

namespace Regex

variable {α : Type}

def Matches (s : List α) : Regex α → ℕ → ℕ → Prop
  | empty, i, j => i = j
  | set chars, i, j => (∃ c, s[i]? = some c ∧ chars c = true) ∧ j = i + 1
  | look holds, i, j => holds s i = true ∧ i = j
  | cat r₁ r₂, i, j => ∃ k, Matches s r₁ i k ∧ Matches s r₂ k j
  | alt r₁ r₂, i, j => Matches s r₁ i j ∨ Matches s r₂ i j
  | rep min more _ r, i, j =>
    ∃ k, Rounds (Matches s r) min i k ∧ ∃ n, (∀ m ∈ more, n ≤ m) ∧ Rounds (Matches s r) n k j
  | group _ r, i, j => Matches s r i j

@[ext]
structure Span where
  start : ℕ
  stop : ℕ
  deriving DecidableEq

structure Path where
  pos : ℕ
  groups : List (ℕ × Span)

def copies (step : Path → List Path) : ℕ → Path → List Path
  | 0, p => [p]
  | n + 1, p => (step p).flatMap (copies step n)

def further (step : Path → List Path) (greedy : Bool) : ℕ → Path → List Path
  | 0, p => [p]
  | n + 1, p =>
    let more := ((step p).filter fun q => p.pos < q.pos).flatMap (further step greedy n)
    if greedy then more ++ [p] else p :: more

def paths (s : List α) : Regex α → Path → List Path
  | empty, p => [p]
  | set chars, p => if s[p.pos]?.any chars then [⟨p.pos + 1, p.groups⟩] else []
  | look holds, p => if holds s p.pos then [p] else []
  | cat r₁ r₂, p => (paths s r₁ p).flatMap (paths s r₂)
  | alt r₁ r₂, p => paths s r₁ p ++ paths s r₂ p
  | rep min more greedy r, p =>
    -- rounds that advance are at most as many as there are characters left
    (copies (paths s r) min p).flatMap fun q =>
      further (paths s r) greedy (more.getD (s.length - q.pos)) q
  | group index r, p =>
    (paths s r p).map fun q => ⟨q.pos, (index, ⟨p.pos, q.pos⟩) :: q.groups⟩

section Rounds

variable {R : ℕ → ℕ → Prop} {i j n : ℕ}

lemma le_of_rounds (hR : ∀ i j, R i j → i ≤ j) (h : Rounds R n i j) : i ≤ j := by
  induction n generalizing i with
  | zero => exact h.le
  | succ n ih =>
    obtain ⟨k, hi, hk⟩ := h
    exact (hR i k hi).trans (ih hk)

lemma rounds_le {L : ℕ} (hR : ∀ i j, R i j → i ≤ L → j ≤ L) (h : Rounds R n i j) (hi : i ≤ L) :
    j ≤ L := by
  induction n generalizing i with
  | zero => exact h ▸ hi
  | succ n ih =>
    obtain ⟨k, hik, hk⟩ := h
    exact ih hk (hR i k hik hi)

lemma exists_rounds_le (hR : ∀ i j, R i j → i ≤ j) (h : Rounds R n i j) :
    ∃ m, m ≤ n ∧ m ≤ j - i ∧ Rounds R m i j := by
  induction n generalizing i with
  | zero => exact ⟨0, le_rfl, Nat.zero_le _, h⟩
  | succ n ih =>
    obtain ⟨k, hi, hk⟩ := h
    obtain ⟨m, hmn, hm, hr⟩ := ih hk
    have hk' := le_of_rounds hR hk
    obtain rfl | hlt := (hR i k hi).eq_or_lt
    · exact ⟨m, by omega, hm, hr⟩
    · exact ⟨m + 1, by omega, by omega, k, hi, hr⟩

end Rounds

variable {s : List α} {r : Regex α} {i j : ℕ} {p q : Path} {g : Bool}

lemma le_of_matches (h : Matches s r i j) : i ≤ j := by
  induction r generalizing i j with
  | empty => exact h.le
  | set chars => exact h.2 ▸ Nat.le_succ i
  | look holds => exact h.2.le
  | cat r₁ r₂ ih₁ ih₂ =>
    obtain ⟨k, hi, hk⟩ := h
    exact (ih₁ hi).trans (ih₂ hk)
  | alt r₁ r₂ ih₁ ih₂ => exact h.elim ih₁ ih₂
  | rep min more greedy r ih =>
    obtain ⟨k, hi, n, -, hk⟩ := h
    exact (le_of_rounds (fun _ _ => ih) hi).trans (le_of_rounds (fun _ _ => ih) hk)
  | group index r ih => exact ih h

lemma matches_le (h : Matches s r i j) (hi : i ≤ s.length) : j ≤ s.length := by
  induction r generalizing i j with
  | empty => exact h ▸ hi
  | set chars =>
    obtain ⟨⟨c, hc, -⟩, rfl⟩ := h
    exact (List.getElem?_eq_some_iff.mp hc).1
  | look holds => exact h.2 ▸ hi
  | cat r₁ r₂ ih₁ ih₂ =>
    obtain ⟨k, hik, hk⟩ := h
    exact ih₂ hk (ih₁ hik hi)
  | alt r₁ r₂ ih₁ ih₂ => exact h.elim (ih₁ · hi) (ih₂ · hi)
  | rep min more greedy r ih =>
    obtain ⟨k, hik, n, -, hk⟩ := h
    exact rounds_le (fun _ _ => ih) hk (rounds_le (fun _ _ => ih) hik hi)
  | group index r ih => exact ih h hi

def Follows (L : ℕ) (step : Path → List Path) (R : ℕ → ℕ → Prop) : Prop :=
  ∀ p j, p.pos ≤ L → ((∃ q ∈ step p, q.pos = j) ↔ R p.pos j)

section Follows

variable {L : ℕ} {st : Path → List Path} {R : ℕ → ℕ → Prop}

lemma Follows.flatMap {step' : Path → List Path} {R' : ℕ → ℕ → Prop} (h : Follows L st R)
    (h' : Follows L step' R') (hR : ∀ i j, R i j → i ≤ L → j ≤ L) :
    Follows L (fun p => (st p).flatMap step') fun i j => ∃ k, R i k ∧ R' k j := by
  intro p j hp
  constructor
  · rintro ⟨q', hq', rfl⟩
    obtain ⟨q, hq, hqq'⟩ := mem_flatMap.mp hq'
    have hpq := (h p q.pos hp).mp ⟨q, hq, rfl⟩
    exact ⟨q.pos, hpq, (h' q q'.pos (hR _ _ hpq hp)).mp ⟨q', hqq', rfl⟩⟩
  · rintro ⟨k, hpk, hk⟩
    obtain ⟨q, hq, rfl⟩ := (h p k hp).mpr hpk
    obtain ⟨q', hq', rfl⟩ := (h' q j (hR _ _ hpk hp)).mpr hk
    exact ⟨q', mem_flatMap.mpr ⟨q, hq, hq'⟩, rfl⟩

lemma exists_mem_ite {j : ℕ} :
    (∃ q' ∈ if g then [q] else [], q'.pos = j) ↔ g = true ∧ q.pos = j := by
  cases g with
  | false => simp
  | true => simp

lemma follows_singleton : Follows L (fun p => [p]) fun i j => i = j := by
  intro p j _
  constructor
  · rintro ⟨q, hq, rfl⟩
    rw [mem_singleton.mp hq]
  · rintro rfl
    exact ⟨p, mem_singleton_self p, rfl⟩

lemma follows_copies (h : Follows L st R) (hR : ∀ i j, R i j → i ≤ L → j ≤ L) (n : ℕ) :
    Follows L (copies st n) (Rounds R n) := by
  induction n with
  | zero => exact follows_singleton
  | succ n ih => exact h.flatMap ih hR

lemma mem_further_succ : q ∈ further st g (L + 1) p ↔
    q = p ∨ ∃ p' ∈ st p, p.pos < p'.pos ∧ q ∈ further st g L p' := by
  have hm : q ∈ ((st p).filter fun q => p.pos < q.pos).flatMap (further st g L) ↔
      ∃ p' ∈ st p, p.pos < p'.pos ∧ q ∈ further st g L p' := by
    simp only [mem_flatMap, mem_filter, decide_eq_true_eq, and_assoc]
  cases g with
  | false => exact mem_cons.trans (or_congr_right hm)
  | true =>
    refine mem_append.trans ?_
    rw [hm, mem_singleton, or_comm]

lemma follows_further (h : Follows L st R) (hle : ∀ i j, R i j → i ≤ j)
    (hR : ∀ i j, R i j → i ≤ L → j ≤ L) (g : Bool) (n : ℕ) :
    Follows L (further st g n) fun i j => ∃ m, m ≤ n ∧ Rounds R m i j := by
  intro p j hp
  constructor
  · rintro ⟨q, hq, rfl⟩
    induction n generalizing p with
    | zero =>
      rw [mem_singleton.mp hq]
      exact ⟨0, le_rfl, rfl⟩
    | succ n ih =>
      obtain rfl | ⟨p', hp', -, hq'⟩ := mem_further_succ.mp hq
      · exact ⟨0, Nat.zero_le _, rfl⟩
      · have hpp' := (h p p'.pos hp).mp ⟨p', hp', rfl⟩
        obtain ⟨m, hm, hr⟩ := ih p' (hR _ _ hpp' hp) hq'
        exact ⟨m + 1, Nat.succ_le_succ hm, p'.pos, hpp', hr⟩
  · rintro ⟨m, hm, hr⟩
    -- on the number of rounds: one that does not advance is left out
    induction m generalizing n p with
    | zero =>
      refine ⟨p, ?_, hr⟩
      cases n with
      | zero => exact mem_singleton_self p
      | succ n => exact mem_further_succ.mpr (.inl rfl)
    | succ m ih =>
      obtain ⟨k, hpk, hk⟩ := hr
      obtain hpk' | hlt := (hle _ _ hpk).eq_or_lt
      · exact ih n p hp (Nat.le_of_succ_le hm) (hpk' ▸ hk)
      · obtain ⟨n, rfl⟩ : ∃ n', n = n' + 1 := ⟨n - 1, by omega⟩
        obtain ⟨p', hp', rfl⟩ := (h p k hp).mpr hpk
        obtain ⟨q, hq, rfl⟩ :=
          ih n p' (hR _ _ hpk hp) (Nat.le_of_succ_le_succ hm) hk
        exact ⟨q, mem_further_succ.mpr (.inr ⟨p', hp', hlt, hq⟩), rfl⟩

end Follows

lemma exists_mem_paths_iff (s : List α) (r : Regex α) :
    Follows s.length (paths s r) (Matches s r) := by
  induction r with
  | empty => exact follows_singleton
  | set chars =>
    intro p j _
    rw [paths, Matches, exists_mem_ite, Option.any_eq_true, eq_comm]
  | look holds =>
    intro p j _
    exact exists_mem_ite
  | cat r₁ r₂ ih₁ ih₂ => exact ih₁.flatMap ih₂ fun _ _ => matches_le
  | alt r₁ r₂ ih₁ ih₂ =>
    intro p j hp
    rw [paths, Matches, ← ih₁ p j hp, ← ih₂ p j hp]
    simp only [mem_append, or_and_right, exists_or]
  | rep min mr g r ih =>
    refine (follows_copies ih (fun _ _ => matches_le) min).flatMap ?_
      fun _ _ h hi => rounds_le (fun _ _ => matches_le) h hi
    intro q j hq
    rw [follows_further ih (fun _ _ => le_of_matches) (fun _ _ => matches_le) g _ q j hq]
    cases mr with
    | some m => simp only [Option.getD_some, Option.mem_def, Option.some.injEq, forall_eq']
    | none =>
      simp only [Option.getD_none, Option.mem_def, reduceCtorEq, IsEmpty.forall_iff,
        implies_true, true_and]
      constructor
      · rintro ⟨n, -, hr⟩
        exact ⟨n, hr⟩
      · rintro ⟨n, hr⟩
        have hj := rounds_le (fun _ _ => matches_le) hr hq
        obtain ⟨m, -, hm, hr'⟩ := exists_rounds_le (fun _ _ => le_of_matches) hr
        exact ⟨m, by omega, hr'⟩
  | group index r ih =>
    intro p j hp
    rw [paths, Matches, ← ih p j hp]
    simp only [mem_map]
    constructor
    · rintro ⟨-, ⟨q, hq, rfl⟩, rfl⟩
      exact ⟨q, hq, rfl⟩
    · rintro ⟨q, hq, rfl⟩
      exact ⟨_, ⟨q, hq, rfl⟩, rfl⟩

def Span.InRange (L : ℕ) (span : Span) : Prop := span.start ≤ span.stop ∧ span.stop ≤ L

def Path.InRange (L : ℕ) (p : Path) : Prop := p.pos ≤ L ∧ ∀ g ∈ p.groups, g.2.InRange L

section Keeps

variable {P : Path → Prop} {st : Path → List Path}

lemma copies_keeps (h : ∀ p, P p → ∀ q ∈ st p, P q) {n : ℕ} (hp : P p)
    (hq : q ∈ copies st n p) : P q := by
  induction n generalizing p with
  | zero => exact mem_singleton.mp hq ▸ hp
  | succ n ih =>
    obtain ⟨p', hp', hq'⟩ := mem_flatMap.mp hq
    exact ih (h p hp p' hp') hq'

lemma further_keeps (h : ∀ p, P p → ∀ q ∈ st p, P q) {n : ℕ}
    (hp : P p) (hq : q ∈ further st g n p) : P q := by
  induction n generalizing p with
  | zero => exact mem_singleton.mp hq ▸ hp
  | succ n ih =>
    obtain rfl | ⟨p', hp', -, hq'⟩ := mem_further_succ.mp hq
    · exact hp
    · exact ih (h p hp p' hp') hq'

end Keeps

lemma inRange_of_mem_paths (hp : p.InRange s.length)
    (hq : q ∈ paths s r p) : q.InRange s.length := by
  induction r generalizing p q with
  | empty => exact mem_singleton.mp hq ▸ hp
  | set chars =>
    have hm := (exists_mem_paths_iff s (set chars) p q.pos hp.1).mp ⟨q, hq, rfl⟩
    rw [paths] at hq
    split at hq
    case isFalse => cases hq
    case isTrue =>
      rw [mem_singleton.mp hq] at hm ⊢
      exact ⟨matches_le hm hp.1, hp.2⟩
  | look holds =>
    rw [paths] at hq
    split at hq
    case isFalse => cases hq
    case isTrue => exact mem_singleton.mp hq ▸ hp
  | cat r₁ r₂ ih₁ ih₂ =>
    obtain ⟨p', hp', hq'⟩ := mem_flatMap.mp hq
    exact ih₂ (ih₁ hp hp') hq'
  | alt r₁ r₂ ih₁ ih₂ => exact (mem_append.mp hq).elim (ih₁ hp) (ih₂ hp)
  | rep min more greedy r ih =>
    obtain ⟨p', hp', hq'⟩ := mem_flatMap.mp hq
    have hs : ∀ p, Path.InRange s.length p → ∀ q ∈ paths s r p, q.InRange s.length :=
      fun _ hp _ hq => ih hp hq
    exact further_keeps hs (copies_keeps hs hp hp') hq'
  | group index r ih =>
    obtain ⟨q, hq', rfl⟩ := mem_map.mp hq
    have hm := (exists_mem_paths_iff s r p q.pos hp.1).mp ⟨q, hq', rfl⟩
    obtain ⟨hpos, hg⟩ := ih hp hq'
    exact ⟨hpos, forall_mem_cons.mpr ⟨⟨le_of_matches hm, hpos⟩, hg⟩⟩

def fullMatch (s : List α) (r : Regex α) : Bool :=
  (paths s r ⟨0, []⟩).any fun p => p.pos = s.length

lemma fullMatch_iff : fullMatch s r = true ↔ Matches s r 0 s.length := by
  rw [fullMatch, any_eq_true, ← exists_mem_paths_iff s r ⟨0, []⟩ _ (Nat.zero_le _)]
  simp only [decide_eq_true_eq]

def seq : List (Regex α) → Regex α
  | [] => empty
  | r :: rs => cat r (seq rs)

lemma matches_seq_append {rs rs' : List (Regex α)} :
    Matches s (seq (rs ++ rs')) i j ↔ ∃ k, Matches s (seq rs) i k ∧ Matches s (seq rs') k j := by
  induction rs generalizing i with
  | nil => simp only [nil_append, seq, Matches, exists_eq_left']
  | cons r rs ih =>
    simp only [cons_append, seq, Matches, ih]
    constructor
    · rintro ⟨k, hr, k', hrs, hr'⟩
      exact ⟨k', ⟨k, hr, hrs⟩, hr'⟩
    · rintro ⟨k', ⟨k, hr, hrs⟩, hr'⟩
      exact ⟨k, hr, k', hrs, hr'⟩

lemma matches_seq_singleton : Matches s (seq [r]) i j ↔ Matches s r i j := by
  simp only [seq, Matches, exists_eq_right]

def branches (finished : List (List (Regex α))) (last : List (Regex α)) : Regex α :=
  finished.foldr (fun branch r => alt (seq branch) r) (seq last)

lemma matches_branches {f : List (List (Regex α))} {l : List (Regex α)} :
    Matches s (branches f l) i j ↔ (∃ b ∈ f, Matches s (seq b) i j) ∨ Matches s (seq l) i j := by
  induction f with
  | nil => simp only [branches, foldr_nil, not_mem_nil, false_and, exists_false, false_or]
  | cons b f ih =>
    have hc : branches (b :: f) l = alt (seq b) (branches f l) := rfl
    simp only [hc, Matches, ih, exists_mem_cons_iff, or_assoc]

structure Captures where
  span : Span
  groups : List (ℕ × Span)

def Captures.get (m : Captures) : ℕ → Option Span
  | 0 => some m.span
  | n + 1 => m.groups.lookup (n + 1)

def matchAt (s : List α) (r : Regex α) (i : ℕ) : Option Captures :=
  (paths s r ⟨i, []⟩).head?.map fun p => ⟨⟨i, p.pos⟩, p.groups⟩

def findWithin (s : List α) (r : Regex α) : ℕ → ℕ → Option Captures
  | 0, _ => none
  | n + 1, i => (matchAt s r i).or (findWithin s r n (i + 1))

def find (s : List α) (r : Regex α) (i : ℕ) : Option Captures :=
  findWithin s r (s.length + 1 - i) i

def findNext (s : List α) (r : Regex α) (stop : ℕ) : Option Captures :=
  match find s r stop with
  | none => none
  | some m => if m.span = ⟨stop, stop⟩ then find s r (stop + 1) else some m

def capturesAfter (s : List α) (r : Regex α) : ℕ → ℕ → List Captures
  | 0, _ => []
  | n + 1, stop =>
    match findNext s r stop with
    | none => []
    | some m => m :: capturesAfter s r n m.span.stop

def capturesIter (s : List α) (r : Regex α) : List Captures :=
  match find s r 0 with
  | none => []
  | some m => m :: capturesAfter s r s.length m.span.stop

section Search

variable {s : List α} {r : Regex α} {i : ℕ} {m : Captures} {n : ℕ}

lemma start_of_matchAt (h : matchAt s r i = some m) : m.span.start = i := by
  obtain ⟨p, -, rfl⟩ := Option.map_eq_some_iff.mp h
  rfl

lemma matchAt_isSome_iff (hi : i ≤ s.length) : (matchAt s r i).isSome ↔ ∃ j, Matches s r i j := by
  rw [matchAt, Option.isSome_map, isSome_head?]
  constructor
  · intro h
    obtain ⟨p, hp⟩ := exists_mem_of_ne_nil _ h
    exact ⟨p.pos, (exists_mem_paths_iff s r ⟨i, []⟩ p.pos hi).mp ⟨p, hp, rfl⟩⟩
  · rintro ⟨j, hj⟩
    obtain ⟨p, hp, -⟩ := (exists_mem_paths_iff s r ⟨i, []⟩ j hi).mpr hj
    exact ne_nil_of_mem hp

lemma inRange_of_matchAt (hi : i ≤ s.length) (h : matchAt s r i = some m) :
    m.span.InRange s.length ∧ ∀ g ∈ m.groups, g.2.InRange s.length := by
  obtain ⟨p, hp, rfl⟩ := Option.map_eq_some_iff.mp h
  have hmm := mem_of_head? hp
  have hr : p.InRange s.length := inRange_of_mem_paths ⟨hi, fun g hg => by cases hg⟩ hmm
  have hm := (exists_mem_paths_iff s r ⟨i, []⟩ p.pos hi).mp ⟨p, hmm, rfl⟩
  exact ⟨⟨le_of_matches hm, hr.1⟩, hr.2⟩

lemma findWithin_eq_some_iff : findWithin s r n i = some m ↔
    i ≤ m.span.start ∧ m.span.start < i + n ∧ matchAt s r m.span.start = some m ∧
      ∀ k, i ≤ k → k < m.span.start → matchAt s r k = none := by
  induction n generalizing i with
  | zero =>
    rw [findWithin]
    constructor
    · intro h
      cases h
    · rintro ⟨hle, hlt, -⟩
      omega
  | succ n ih =>
    rw [findWithin]
    cases ha : matchAt s r i with
    | some m' =>
      rw [Option.some_or, Option.some_inj]
      constructor
      · rintro rfl
        rw [start_of_matchAt ha]
        exact ⟨le_rfl, by omega, ha, fun k hi hki => by omega⟩
      · rintro ⟨hle, -, ha', hb⟩
        obtain heq | hlt := hle.eq_or_lt
        · rw [← heq, ha] at ha'
          exact Option.some_inj.mp ha'
        · cases ha.symm.trans (hb i le_rfl hlt)
    | none =>
      rw [Option.none_or, ih]
      constructor
      · rintro ⟨hle, hlt, ha', hb⟩
        refine ⟨by omega, by omega, ha', fun k hi hk => ?_⟩
        obtain rfl | hi := hi.eq_or_lt
        · exact ha
        · exact hb k hi hk
      · rintro ⟨hle, hlt, ha', hb⟩
        obtain heq | hle := hle.eq_or_lt
        · rw [← heq, ha] at ha'
          cases ha'
        · exact ⟨hle, by omega, ha', fun k hi hk => hb k (by omega) hk⟩

lemma findWithin_eq_none_iff :
    findWithin s r n i = none ↔ ∀ k, i ≤ k → k < i + n → matchAt s r k = none := by
  induction n generalizing i with
  | zero => exact iff_of_true rfl fun k hi hk => by omega
  | succ n ih =>
    rw [findWithin, Option.or_eq_none_iff, ih]
    constructor
    · rintro ⟨hat, ha⟩ k hi hk
      obtain rfl | hi := hi.eq_or_lt
      · exact hat
      · exact ha k hi (by omega)
    · intro h
      exact ⟨h i le_rfl (by omega), fun k hi hk => h k (by omega) (by omega)⟩

lemma find_eq_some_iff : find s r i = some m ↔
    i ≤ m.span.start ∧ m.span.start ≤ s.length ∧ matchAt s r m.span.start = some m ∧
      ∀ k, i ≤ k → k < m.span.start → matchAt s r k = none := by
  rw [find, findWithin_eq_some_iff]
  constructor
  · rintro ⟨hle, hlt, ha, hb⟩
    exact ⟨hle, by omega, ha, hb⟩
  · rintro ⟨hle, hlt, ha, hb⟩
    exact ⟨hle, by omega, ha, hb⟩

lemma find_start (h : find s r i = some m) : find s r m.span.start = some m := by
  obtain ⟨-, hlt, ha, -⟩ := find_eq_some_iff.mp h
  exact find_eq_some_iff.mpr ⟨le_rfl, hlt, ha, fun k hi hk => by omega⟩

lemma find_isSome_iff : (find s r i).isSome ↔ ∃ k j, i ≤ k ∧ k ≤ s.length ∧ Matches s r k j := by
  constructor
  · intro h
    obtain ⟨m, hm⟩ := Option.isSome_iff_exists.mp h
    obtain ⟨hle, hlt, ha, -⟩ := find_eq_some_iff.mp hm
    obtain ⟨j, hj⟩ := (matchAt_isSome_iff hlt).mp (Option.isSome_of_mem ha)
    exact ⟨m.span.start, j, hle, hlt, hj⟩
  · rintro ⟨k, j, hi, hk, hj⟩
    rw [Option.isSome_iff_ne_none]
    intro hn
    have ha := findWithin_eq_none_iff.mp hn k hi (by omega)
    have hs := (matchAt_isSome_iff hk).mpr ⟨j, hj⟩
    rw [ha] at hs
    cases hs

lemma capturesIter_eq_nil_iff : capturesIter s r = [] ↔ find s r 0 = none := by
  rw [capturesIter]
  cases find s r 0 with
  | none => exact iff_of_true rfl rfl
  | some m => exact iff_of_false (cons_ne_nil _ _) (Option.some_ne_none m)

lemma findNext_eq_some (h : findNext s r i = some m) :
    find s r m.span.start = some m ∧ i ≤ m.span.start ∧ i < m.span.stop := by
  rw [findNext] at h
  cases hf : find s r i with
  | none =>
    rw [hf] at h
    cases h
  | some m' =>
    rw [hf] at h
    dsimp only at h
    obtain ⟨hle, hlt, ha, -⟩ := find_eq_some_iff.mp hf
    obtain ⟨hr, -⟩ := inRange_of_matchAt hlt ha
    split at h
    case isTrue =>
      obtain ⟨hle', hl', ha', -⟩ := find_eq_some_iff.mp h
      obtain ⟨hr', -⟩ := inRange_of_matchAt hl' ha'
      have := hr'.1
      exact ⟨find_start h, by omega, by omega⟩
    case isFalse hne =>
      cases h
      refine ⟨find_start hf, hle, ?_⟩
      by_contra hs
      refine hne ?_
      obtain ⟨⟨start, stop⟩, groups⟩ := m
      have := hr.1
      simp only [Span.mk.injEq] at *
      omega

lemma find_of_mem_capturesAfter {st : ℕ} (h : m ∈ capturesAfter s r n st) :
    find s r m.span.start = some m := by
  induction n generalizing st with
  | zero => cases h
  | succ n ih =>
    rw [capturesAfter] at h
    cases hn : findNext s r st with
    | none =>
      rw [hn] at h
      cases h
    | some m' =>
      rw [hn] at h
      obtain rfl | hm := mem_cons.mp h
      · exact (findNext_eq_some hn).1
      · exact ih hm

lemma find_of_mem_capturesIter (h : m ∈ capturesIter s r) : find s r m.span.start = some m := by
  rw [capturesIter] at h
  cases hf : find s r 0 with
  | none =>
    rw [hf] at h
    cases h
  | some m' =>
    rw [hf] at h
    obtain rfl | hm := mem_cons.mp h
    · exact find_start hf
    · exact find_of_mem_capturesAfter hm

lemma inRange_of_mem_capturesIter (h : m ∈ capturesIter s r) :
    m.span.InRange s.length ∧ ∀ g ∈ m.groups, g.2.InRange s.length := by
  obtain ⟨-, hlt, ha, -⟩ := find_eq_some_iff.mp (find_of_mem_capturesIter h)
  exact inRange_of_matchAt hlt ha

lemma inRange_of_get (h : m ∈ capturesIter s r) {sp : Span}
    (hget : m.get n = some sp) : sp.InRange s.length := by
  obtain ⟨hs, hg⟩ := inRange_of_mem_capturesIter h
  cases n with
  | zero =>
    cases hget
    exact hs
  | succ n =>
    obtain ⟨l₁, l₂, hm, -⟩ := lookup_eq_some_iff.mp hget
    exact hg (n + 1, sp) (hm ▸ mem_append_right l₁ mem_cons_self)

/-- The next match ends within the text. -/
lemma stop_le_of_findNext (h : findNext s r i = some m) :
    i < m.span.stop ∧ m.span.stop ≤ s.length := by
  obtain ⟨hf, -, hlt⟩ := findNext_eq_some h
  obtain ⟨-, hle, ha, -⟩ := find_eq_some_iff.mp hf
  exact ⟨hlt, (inRange_of_matchAt hle ha).1.2⟩

/-- One unit of fuel for each character that is left is enough. -/
lemma capturesAfter_eq {n' stop : ℕ} (hn : s.length - stop ≤ n) (hn' : s.length - stop ≤ n') :
    capturesAfter s r n stop = capturesAfter s r n' stop := by
  induction n generalizing n' stop with
  | zero =>
    cases n' with
    | zero => rfl
    | succ n' =>
      cases hf : findNext s r stop with
      | none => simp only [capturesAfter, hf]
      | some m =>
        have := stop_le_of_findNext hf
        omega
  | succ n ih =>
    cases hf : findNext s r stop with
    | none => cases n' <;> simp only [capturesAfter, hf]
    | some m =>
      obtain ⟨hlt, hle⟩ := stop_le_of_findNext hf
      obtain ⟨n', rfl⟩ : ∃ k, n' = k + 1 := ⟨n' - 1, by omega⟩
      simp only [capturesAfter, hf]
      rw [ih (by omega) (by omega : s.length - m.span.stop ≤ n')]

lemma drop_capturesAfter {stop k : ℕ} (hn : s.length - stop ≤ n)
    (hk : (capturesAfter s r n stop)[k]? = some m) :
    (capturesAfter s r n stop).drop k = m :: capturesAfter s r s.length m.span.stop := by
  induction n generalizing stop k with
  | zero => cases hk
  | succ n ih =>
    rw [capturesAfter] at hk ⊢
    cases hf : findNext s r stop with
    | none =>
      rw [hf] at hk
      cases hk
    | some m' =>
      rw [hf] at hk
      have := stop_le_of_findNext hf
      cases k with
      | zero =>
        cases hk
        exact congrArg (m :: ·) (capturesAfter_eq (by omega) (by omega))
      | succ k => exact ih (by omega) hk

/-- The matches from one of them on. -/
lemma drop_capturesIter {k : ℕ} (hk : (capturesIter s r)[k]? = some m) :
    (capturesIter s r).drop k = m :: capturesAfter s r s.length m.span.stop := by
  rw [capturesIter] at hk ⊢
  cases hf : find s r 0 with
  | none =>
    rw [hf] at hk
    cases hk
  | some m' =>
    rw [hf] at hk
    cases k with
    | zero =>
      cases hk
      rfl
    | succ k => exact drop_capturesAfter (by omega) hk

end Search

/-! ### The rest of a text -/

/-- Every assertion says the same about a place of the rest of `s` from `n` on as about that place
of `s`; so it is for expressions without assertions. -/
def LooksAgree (s : List α) (n : ℕ) : Regex α → Prop
  | empty => True
  | set _ => True
  | look holds => ∀ i, holds s (n + i) = holds (s.drop n) i
  | cat r₁ r₂ => LooksAgree s n r₁ ∧ LooksAgree s n r₂
  | alt r₁ r₂ => LooksAgree s n r₁ ∧ LooksAgree s n r₂
  | rep _ _ _ r => LooksAgree s n r
  | group _ r => LooksAgree s n r

def Span.shift (n : ℕ) (span : Span) : Span := ⟨n + span.start, n + span.stop⟩

def Path.shift (n : ℕ) (p : Path) : Path :=
  ⟨n + p.pos, p.groups.map fun g => (g.1, g.2.shift n)⟩

/-- A match in the rest of a text, as a match in the text. -/
def Captures.shift (n : ℕ) (m : Captures) : Captures :=
  ⟨m.span.shift n, m.groups.map fun g => (g.1, g.2.shift n)⟩

open Captures

section Shift

variable {s : List α} {r : Regex α} {n : ℕ} {step step' : Path → List Path}

lemma copies_shift (h : ∀ p, step (p.shift n) = (step' p).map (Path.shift n)) (k : ℕ) (p : Path) :
    copies step k (p.shift n) = (copies step' k p).map (Path.shift n) := by
  induction k generalizing p with
  | zero => rfl
  | succ k ih =>
    rw [copies, copies, h, flatMap_map, map_flatMap]
    exact flatMap_congr fun q _ => ih q

lemma further_shift (h : ∀ p, step (p.shift n) = (step' p).map (Path.shift n)) (g : Bool) (k : ℕ)
    (p : Path) : further step g k (p.shift n) = (further step' g k p).map (Path.shift n) := by
  induction k generalizing p with
  | zero => rfl
  | succ k ih =>
    have ha : (fun q : Path => decide ((p.shift n).pos < q.pos)) ∘ Path.shift n =
        fun q => decide (p.pos < q.pos) :=
      funext fun q => decide_eq_decide.mpr (Nat.add_lt_add_iff_left ..)
    have hm : ((step (p.shift n)).filter fun q => (p.shift n).pos < q.pos).flatMap
        (further step g k) = (((step' p).filter fun q => p.pos < q.pos).flatMap
          (further step' g k)).map (Path.shift n) := by
      rw [h, filter_map, ha, flatMap_map, map_flatMap]
      exact flatMap_congr fun q _ => ih q
    rw [further, further, hm]
    cases g with
    | false => rfl
    | true => simp only [if_true, map_append, map_cons, map_nil]

lemma paths_shift (hr : r.LooksAgree s n) (p : Path) :
    paths s r (p.shift n) = (paths (s.drop n) r p).map (Path.shift n) := by
  induction r generalizing p with
  | empty => rfl
  | set chars =>
    have hn : s[(p.shift n).pos]? = (s.drop n)[p.pos]? := getElem?_drop.symm
    rw [paths, paths, hn, apply_ite (List.map (Path.shift n))]
    rfl
  | look holds =>
    rw [paths, paths, ← hr p.pos, apply_ite (List.map (Path.shift n))]
    rfl
  | cat r₁ r₂ ih₁ ih₂ =>
    rw [paths, paths, ih₁ hr.1, flatMap_map, map_flatMap]
    exact flatMap_congr fun q _ => ih₂ hr.2 q
  | alt r₁ r₂ ih₁ ih₂ => rw [paths, paths, ih₁ hr.1, ih₂ hr.2, map_append]
  | rep min more g r ih =>
    rw [paths, paths, copies_shift (ih hr), flatMap_map, map_flatMap]
    refine flatMap_congr fun q _ => ?_
    have hl : s.length - (q.shift n).pos = (s.drop n).length - q.pos := by
      rw [length_drop]
      exact (Nat.sub_sub ..).symm
    rw [hl, further_shift (ih hr)]
  | group index r ih =>
    rw [paths, paths, ih hr, map_map, map_map]
    rfl

lemma findWithin_shift (hr : r.LooksAgree s n) (k i : ℕ) :
    findWithin s r k (n + i) = (findWithin (s.drop n) r k i).map (shift n) := by
  induction k generalizing i with
  | zero => rfl
  | succ k ih =>
    have hp : paths s r ⟨n + i, []⟩ = (paths (s.drop n) r ⟨i, []⟩).map (Path.shift n) :=
      paths_shift hr ⟨i, []⟩
    have ha : matchAt s r (n + i) = (matchAt (s.drop n) r i).map (shift n) := by
      rw [matchAt, matchAt, hp, head?_map, Option.map_map, Option.map_map]
      rfl
    rw [findWithin, findWithin, ha, Nat.add_assoc, ih, Option.map_or]

lemma find_shift (hr : r.LooksAgree s n) (hn : n ≤ s.length) (i : ℕ) :
    find s r (n + i) = (find (s.drop n) r i).map (shift n) := by
  have hl : s.length + 1 - (n + i) = (s.drop n).length + 1 - i := by
    rw [length_drop]
    omega
  rw [find, find, hl, findWithin_shift hr]

lemma findNext_shift (hr : r.LooksAgree s n) (hn : n ≤ s.length) (i : ℕ) :
    findNext s r (n + i) = (findNext (s.drop n) r i).map (shift n) := by
  rw [findNext, findNext, find_shift hr hn]
  cases find (s.drop n) r i with
  | none => rfl
  | some m =>
    have he : (m.shift n).span = ⟨n + i, n + i⟩ ↔ m.span = ⟨i, i⟩ := by
      rw [shift, Span.shift, Span.mk.injEq, Span.ext_iff]
      exact and_congr Nat.add_right_inj Nat.add_right_inj
    simp only [Option.map_some]
    rw [if_congr he rfl rfl, apply_ite (Option.map (shift n)), Nat.add_assoc,
      find_shift hr hn]
    rfl

lemma capturesAfter_shift (hr : r.LooksAgree s n) (hn : n ≤ s.length) (k i : ℕ) :
    capturesAfter s r k (n + i) = (capturesAfter (s.drop n) r k i).map (shift n) := by
  induction k generalizing i with
  | zero => rfl
  | succ k ih =>
    rw [capturesAfter, capturesAfter, findNext_shift hr hn]
    cases findNext (s.drop n) r i with
    | none => rfl
    | some m => exact congrArg _ (ih m.span.stop)

/-- **The matches from one of them on** are the matches of the text that starts with it, if the
assertions agree. -/
lemma capturesIter_drop {k : ℕ} {m : Captures} (hr : r.LooksAgree s m.span.start)
    (hk : (capturesIter s r)[k]? = some m) :
    (capturesIter (s.drop m.span.start) r).map (shift m.span.start) =
      (capturesIter s r).drop k := by
  have hf := find_of_mem_capturesIter (mem_of_getElem? hk)
  have hs : m.span.start ≤ s.length := (find_eq_some_iff.mp hf).2.1
  have hsh := find_shift hr hs 0
  rw [Nat.add_zero, hf] at hsh
  obtain ⟨m', hm', hmm'⟩ := Option.map_eq_some_iff.mp hsh.symm
  have hst : m.span.start + m'.span.stop = m.span.stop := congrArg (·.span.stop) hmm'
  have hle := (inRange_of_mem_capturesIter (mem_of_getElem? hk)).1.1
  rw [drop_capturesIter hk, capturesIter, hm', map_cons, hmm', ← capturesAfter_shift hr hs, hst,
    length_drop]
  exact congrArg (m :: ·) (capturesAfter_eq (by omega) (by omega))

end Shift

end Regex

end Rustice
