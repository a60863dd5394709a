import Mathlib.Tactic.SplitIfs

/-!
# ASCII Letter Case

`Char.toLower` changes the letters `A` to `Z` only.
-/

namespace Rustice

def toAsciiLowercase (s : String) : String := .ofList (s.toList.map Char.toLower)

def toAsciiUppercase (s : String) : String := .ofList (s.toList.map Char.toUpper)

def eqIgnoreAsciiCase (a b : String) : Bool := toAsciiLowercase a = toAsciiLowercase b

lemma eqIgnoreAsciiCase_self (s : String) : eqIgnoreAsciiCase s s = true :=
  decide_eq_true rfl

lemma toNat_toLower (c : Char) :
    c.toLower.toNat = if 65 ≤ c.toNat ∧ c.toNat ≤ 90 then c.toNat + 32 else c.toNat := by
  have hr : (c.val ≥ 'A'.val ∧ c.val ≤ 'Z'.val) ↔ 65 ≤ c.toNat ∧ c.toNat ≤ 90 := by
    simp only [ge_iff_le, UInt32.le_iff_toNat_le]
    rfl
  by_cases h : c.val ≥ 'A'.val ∧ c.val ≤ 'Z'.val
  · have hc : 65 ≤ c.val.toNat ∧ c.val.toNat ≤ 90 := hr.mp h
    have hs : ('a'.val - 'A'.val).toNat = 32 := by decide
    have hl : c.toLower.val = c.val + ('a'.val - 'A'.val) := congrArg Char.val (dif_pos h)
    rw [if_pos (hr.mp h)]
    show c.toLower.val.toNat = c.val.toNat + 32
    rw [hl, UInt32.toNat_add]
    omega
  · have hl : c.toLower = c := dif_neg h
    rw [hl, if_neg fun h' => h (hr.mpr h')]

lemma toLower_toLower (c : Char) : c.toLower.toLower = c.toLower := by
  rw [← Char.toNat_inj, toNat_toLower, toNat_toLower]
  split_ifs <;> omega

lemma toLower_eq_iff {c d : Char} (hd : d.toNat < 65) : c.toLower = d ↔ c = d := by
  rw [← Char.toNat_inj, ← Char.toNat_inj, toNat_toLower]
  split_ifs <;> omega

lemma map_toLower_map_toLower (cs : List Char) :
    (cs.map Char.toLower).map Char.toLower = cs.map Char.toLower := by
  rw [List.map_map]
  exact List.map_congr_left fun c _ => toLower_toLower c

@[simp] lemma toAsciiLowercase_toAsciiLowercase (s : String) :
    toAsciiLowercase (toAsciiLowercase s) = toAsciiLowercase s := by
  rw [toAsciiLowercase, toAsciiLowercase, String.toList_ofList, map_toLower_map_toLower]

lemma mem_map_toLower_iff {cs : List Char} {d : Char} (hd : d.toNat < 65) :
    d ∈ cs.map Char.toLower ↔ d ∈ cs := by
  rw [List.mem_map]
  constructor
  · rintro ⟨c, hc, hl⟩
    rwa [← (toLower_eq_iff hd).mp hl]
  · intro hm
    exact ⟨d, hm, (toLower_eq_iff hd).mpr rfl⟩

end Rustice
