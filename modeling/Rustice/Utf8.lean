import Mathlib.Algebra.GroupWithZero.Nat

/-!
# Texts and their Bytes

A text is cut at a number of bytes.
-/

namespace Rustice

open List

def byteLen (cs : List Char) : ℕ := (cs.map Char.utf8Size).sum

def takeBytes : ℕ → List Char → Option (List Char)
  | 0, _ => some []
  | _ + 1, [] => none
  | n + 1, c :: cs =>
    if c.utf8Size ≤ n + 1 then (takeBytes (n + 1 - c.utf8Size) cs).map (c :: ·) else none

def dropBytes : ℕ → List Char → Option (List Char)
  | 0, cs => some cs
  | _ + 1, [] => none
  | n + 1, c :: cs => if c.utf8Size ≤ n + 1 then dropBytes (n + 1 - c.utf8Size) cs else none

@[simp] lemma byteLen_cons (c : Char) (cs : List Char) :
    byteLen (c :: cs) = c.utf8Size + byteLen cs := by
  rw [byteLen, byteLen, map_cons, sum_cons]

lemma byteLen_append (cs cs' : List Char) : byteLen (cs ++ cs') = byteLen cs + byteLen cs' := by
  rw [byteLen, byteLen, byteLen, map_append, sum_append]

lemma length_le_byteLen (cs : List Char) : cs.length ≤ byteLen cs := by
  induction cs with
  | nil => exact Nat.zero_le _
  | cons c cs ih =>
    have := c.utf8Size_pos
    rw [byteLen_cons, length_cons]
    omega

lemma takeBytes_byteLen (before r : List Char) :
    takeBytes (byteLen before) (before ++ r) = some before := by
  induction before with
  | nil => cases r <;> rfl
  | cons c before ih =>
    obtain ⟨n, hn⟩ : ∃ n, c.utf8Size + byteLen before = n + 1 :=
      ⟨c.utf8Size + byteLen before - 1, by have := c.utf8Size_pos; omega⟩
    rw [byteLen_cons, hn, cons_append, takeBytes, if_pos (by omega), ← hn,
      Nat.add_sub_cancel_left, ih]
    rfl

variable {n : ℕ}

lemma takeBytes_eq_some_iff {cs l : List Char} :
    takeBytes n cs = some l ↔ ∃ r, cs = l ++ r ∧ byteLen l = n := by
  constructor
  · intro h
    induction cs generalizing n l with
    | nil =>
      cases n with
      | zero => cases h; exact ⟨[], rfl, rfl⟩
      | succ n => cases h
    | cons c cs ih =>
      cases n with
      | zero => cases h; exact ⟨c :: cs, rfl, rfl⟩
      | succ n =>
        rw [takeBytes] at h
        split at h
        case isFalse => cases h
        case isTrue hle =>
          obtain ⟨l', hb', rfl⟩ := Option.map_eq_some_iff.mp h
          obtain ⟨r, rfl, hlen⟩ := ih hb'
          exact ⟨r, rfl, by rw [byteLen_cons]; omega⟩
  · rintro ⟨r, rfl, rfl⟩
    exact takeBytes_byteLen l r

def IsCharBoundary (index : ℕ) (cs : List Char) : Prop :=
  ∃ before rest, cs = before ++ rest ∧ byteLen before = index

lemma isCharBoundary_byteLen (cs : List Char) : IsCharBoundary (byteLen cs) cs :=
  ⟨cs, [], (append_nil cs).symm, rfl⟩

lemma isSome_takeBytes_iff {cs : List Char} : (takeBytes n cs).isSome ↔ IsCharBoundary n cs := by
  simp only [Option.isSome_iff_exists, takeBytes_eq_some_iff, IsCharBoundary]

lemma dropBytes_eq_map (n : ℕ) (cs : List Char) :
    dropBytes n cs = (takeBytes n cs).map fun l => cs.drop l.length := by
  fun_induction takeBytes n cs with
  | case1 cs => cases cs <;> rfl
  | case2 => rfl
  | case3 n c cs hle ih =>
    rw [dropBytes, if_pos hle, ih, Option.map_map]
    rfl
  | case4 n c cs hle =>
    rw [dropBytes, if_neg hle]
    rfl

lemma dropBytes_byteLen (l rest : List Char) : dropBytes (byteLen l) (l ++ rest) = some rest := by
  rw [dropBytes_eq_map, takeBytes_byteLen, Option.map_some, drop_left]

lemma dropBytes_eq_some_iff {cs r : List Char} :
    dropBytes n cs = some r ↔ ∃ l, cs = l ++ r ∧ byteLen l = n := by
  constructor
  · intro h
    rw [dropBytes_eq_map] at h
    obtain ⟨l, ht, rfl⟩ := Option.map_eq_some_iff.mp h
    obtain ⟨r, rfl, hlen⟩ := takeBytes_eq_some_iff.mp ht
    exact ⟨l, by rw [drop_left], hlen⟩
  · rintro ⟨l, rfl, rfl⟩
    exact dropBytes_byteLen l r

def byteBetween (low high b : UInt8) : Bool := low ≤ b && b ≤ high

def isSecondByte (a b : UInt8) : Bool :=
  if a = 0xE0 then byteBetween 0xA0 0xBF b
  else if a = 0xED then byteBetween 0x80 0x9F b
  else if a = 0xF0 then byteBetween 0x90 0xBF b
  else if a = 0xF4 then byteBetween 0x80 0x8F b
  else byteBetween 0x80 0xBF b

def isUtf8 : List UInt8 → Bool
  | [] => true
  | a :: as =>
    if a < 0x80 then isUtf8 as
    else
      match as with
      | [] => false
      | b :: bs =>
        if byteBetween 0xC2 0xDF a then byteBetween 0x80 0xBF b && isUtf8 bs
        else
          match bs with
          | [] => false
          | c :: cs =>
            if byteBetween 0xE0 0xEF a then
              isSecondByte a b && byteBetween 0x80 0xBF c && isUtf8 cs
            else
              match cs with
              | [] => false
              | d :: ds =>
                byteBetween 0xF0 0xF4 a && isSecondByte a b && byteBetween 0x80 0xBF c &&
                  byteBetween 0x80 0xBF d && isUtf8 ds

section Single

variable {cs : List Char} {k : ℕ}

lemma single_of_all (h : (cs.all fun c => c.utf8Size == 1) = true) : ∀ c ∈ cs, c.utf8Size = 1 :=
  fun c hc => eq_of_beq (all_eq_true.mp h c hc)

lemma byteLen_of_single (h : ∀ c ∈ cs, c.utf8Size = 1) : byteLen cs = cs.length := by
  induction cs with
  | nil => rfl
  | cons c cs ih =>
    rw [forall_mem_cons] at h
    rw [byteLen_cons, h.1, ih h.2, length_cons, Nat.add_comm]

lemma takeBytes_of_single (h : ∀ c ∈ cs, c.utf8Size = 1) (hk : k ≤ cs.length) :
    takeBytes k cs = some (cs.take k) := by
  refine takeBytes_eq_some_iff.mpr ⟨cs.drop k, (take_append_drop k cs).symm, ?_⟩
  rw [byteLen_of_single fun c hc => h c (mem_of_mem_take hc), length_take, Nat.min_eq_left hk]

lemma dropBytes_of_single (h : ∀ c ∈ cs, c.utf8Size = 1) (hk : k ≤ cs.length) :
    dropBytes k cs = some (cs.drop k) := by
  refine dropBytes_eq_some_iff.mpr ⟨cs.take k, (take_append_drop k cs).symm, ?_⟩
  rw [byteLen_of_single fun c hc => h c (mem_of_mem_take hc), length_take, Nat.min_eq_left hk]

end Single

end Rustice
