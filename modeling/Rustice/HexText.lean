import Mathlib.Tactic.IntervalCases

/-!
# Bytes as Hexadecimal Text

Two digits for each byte, in capital letters or small ones.
-/

namespace Rustice

def hexDigits (upper : Bool) : List Char :=
  if upper then ['0', '1', '2', '3', '4', '5', '6', '7', '8', '9', 'A', 'B', 'C', 'D', 'E', 'F']
  else ['0', '1', '2', '3', '4', '5', '6', '7', '8', '9', 'a', 'b', 'c', 'd', 'e', 'f']

def hexDigit (upper : Bool) (n : ℕ) : Char := (hexDigits upper).getD n '0'

def hexValue? (c : Char) : Option ℕ :=
  ((hexDigits true).findIdx? (· = c)).or ((hexDigits false).findIdx? (· = c))

def encodeHex (upper : Bool) (bytes : List UInt8) : List Char :=
  bytes.flatMap fun b => [hexDigit upper (b.toNat / 16), hexDigit upper (b.toNat % 16)]

def decodeHex : List Char → Option (List UInt8)
  | [] => some []
  | [_] => none
  | c :: d :: cs => do
    let high ← hexValue? c
    let low ← hexValue? d
    let bytes ← decodeHex cs
    return UInt8.ofNat (16 * high + low) :: bytes

lemma hexValue?_hexDigit (u : Bool) {n : ℕ} (hn : n < 16) : hexValue? (hexDigit u n) = some n := by
  cases u <;> interval_cases n <;> rfl

lemma ofNat_digits (b : UInt8) : UInt8.ofNat (16 * (b.toNat / 16) + b.toNat % 16) = b := by
  rw [Nat.div_add_mod, UInt8.ofNat_toNat]

lemma decodeHex_encodeHex (u : Bool) (bytes : List UInt8) :
    decodeHex (encodeHex u bytes) = some bytes := by
  induction bytes with
  | nil => rfl
  | cons b bytes ih =>
    have hc : encodeHex u (b :: bytes) = hexDigit u (b.toNat / 16) ::
        hexDigit u (b.toNat % 16) :: encodeHex u bytes := rfl
    have hb := b.toNat_lt
    rw [hc, decodeHex, hexValue?_hexDigit u (by omega), hexValue?_hexDigit u (by omega), ih]
    exact congrArg (fun b => some (b :: bytes)) (ofNat_digits b)

lemma mem_hexDigits_of_mem_encodeHex {upper : Bool} {bs : List UInt8} {c : Char}
    (hc : c ∈ encodeHex upper bs) : c ∈ hexDigits upper := by
  have hd : ∀ n, hexDigit upper n ∈ hexDigits upper := fun n => by
    rw [hexDigit, List.getD_eq_getElem?_getD]
    cases h : (hexDigits upper)[n]? with
    | none => cases upper <;> exact List.mem_cons_self
    | some d => exact List.mem_of_getElem? h
  obtain ⟨b, -, hc⟩ := List.mem_flatMap.mp hc
  simp only [List.mem_cons, List.not_mem_nil, or_false] at hc
  obtain rfl | rfl := hc <;> exact hd _

def isAsciiChar (c : Char) : Bool := c.toNat < 128

lemma isAscii_encodeHex (u : Bool) (bs : List UInt8) : (encodeHex u bs).all isAsciiChar = true := by
  have ha : (hexDigits u).all isAsciiChar = true := by cases u <;> rfl
  exact List.all_eq_true.mpr fun c hc =>
    List.all_eq_true.mp ha c (mem_hexDigits_of_mem_encodeHex hc)

end Rustice
