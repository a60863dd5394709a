import Mathlib.Data.Vector.Defs

/-!
# Authenticated Encryption

A cipher with additional data, over keys, nonces and tags of fixed sizes.
-/

namespace Rustice

variable {β : Type}

structure Aead (β : Type) (keySize nonceSize tagSize : ℕ) where
  encrypt : List.Vector β keySize → List.Vector β nonceSize → List β → List β → Option (List β)
  decrypt : List.Vector β keySize → List.Vector β nonceSize → List β → List β → Option (List β)
  exists_encrypt : ∀ key nonce aad msg, ∃ ciphertext tag,
    encrypt key nonce aad msg = some (ciphertext ++ tag) ∧ tag.length = tagSize ∧
      decrypt key nonce aad (ciphertext ++ tag) = some msg

def ofSize? (size : ℕ) (bytes : List β) : Option (List.Vector β size) :=
  if h : bytes.length = size then some ⟨bytes, h⟩ else none

lemma ofSize?_eq_some {s : ℕ} {bs : List β} (h : bs.length = s) : ofSize? s bs = some ⟨bs, h⟩ :=
  dif_pos h

def splitTag (tagSize : ℕ) (bytes : List β) : Option (List β × List β) :=
  if bytes.length < tagSize then none else some (bytes.splitAt (bytes.length - tagSize))

lemma splitTag_append {tagSize : ℕ} (c : List β) {t : List β} (ht : t.length = tagSize) :
    splitTag tagSize (c ++ t) = some (c, t) := by
  have hlen : (c ++ t).length = c.length + tagSize := by rw [List.length_append, ht]
  have hge : ¬(c ++ t).length < tagSize := by omega
  have hsub : (c ++ t).length - tagSize = c.length := by omega
  rw [splitTag, if_neg hge, hsub, List.splitAt_eq, List.take_left, List.drop_left]

end Rustice
