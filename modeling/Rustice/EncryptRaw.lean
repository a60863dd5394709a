import Rustice.Aead
import Rustice.Columnar
import Rustice.HexText

/-!
# `ENCRYPT_RAW` and `DECRYPT_RAW`

`ENCRYPT_RAW` returns a JSON object with the ciphertext, the initialization vector and the tag,
and `DECRYPT_RAW` takes them.
-/

namespace Rustice

open List Option

inductive CryptError where
  | arrayLengthMismatch
  | malformedEncryptionMethod (method : List Char)
  | unsupportedEncryptionAlgorithm (algorithm : List Char)
  | unsupportedEncryptionMode (mode : List Char)
  | invalidIvSize (bits expectedBits : ℕ) (mode : String)
  | invalidKeySize (bits : ℕ) (algorithm : String)
  | invalidKeyLength (length : ℕ)
  | ciphertextTooShort
  | cipherCreation
  | encryptionFailed
  | decryptionFailed
  | nullIvForDecryption
  | sliceCreationFailed
  | panicked

abbrev Bytes := List UInt8

/-- AES-GCM with keys of three sizes, `str::to_uppercase` for ASCII, and the vector of a row. -/
structure CryptEnv where
  aes128Gcm : Aead UInt8 16 12 16
  aes192Gcm : Aead UInt8 24 12 16
  aes256Gcm : Aead UInt8 32 12 16
  toUppercase : List Char → List Char
  toUppercase_of_ascii : ∀ s, s.all isAsciiChar = true → toUppercase s = s.map Char.toUpper
  generateRandomIv : ℕ → List.Vector UInt8 12

structure EncryptArgs where
  value : Columnar (Option Bytes)
  key : Columnar (Option Bytes)
  iv : Columnar (Option Bytes)
  aad : Option (Columnar (Option Bytes))
  method : Option (Columnar (Option (List Char)))

structure DecryptArgs where
  ciphertext : Columnar (Option Bytes)
  key : Columnar (Option Bytes)
  iv : Columnar (Option Bytes)
  aad : Option (Columnar (Option Bytes))
  method : Option (Columnar (Option (List Char)))
  tag : Option (Columnar (Option Bytes))

structure EncryptRow where
  value : Option Bytes
  key : Option Bytes
  iv : Option Bytes
  aad : Option Bytes
  method : Option (List Char)

structure DecryptRow where
  ciphertext : Option Bytes
  key : Option Bytes
  iv : Option Bytes
  aad : Option Bytes
  method : Option (List Char)
  tag : Option Bytes

def optionalEntry {α : Type} (default : α) (arg : Option (Columnar (Option α))) (i : ℕ) :
    Option α :=
  match arg with
  | none => some default
  | some column => column.toArray.getD i none

def optionalLen {α : Type} (arg : Option (Columnar α)) : List ℕ :=
  (arg.map fun column => column.toArray.length).toList

def EncryptArgs.row (args : EncryptArgs) (i : ℕ) : EncryptRow where
  value := args.value.toArray.getD i none
  key := args.key.toArray.getD i none
  iv := args.iv.toArray.getD i none
  aad := optionalEntry [] args.aad i
  method := optionalEntry "AES-GCM".toList args.method i

def EncryptArgs.otherLens (args : EncryptArgs) : List ℕ :=
  [args.key.toArray.length, args.iv.toArray.length] ++ optionalLen args.aad ++
    optionalLen args.method

def DecryptArgs.row (args : DecryptArgs) (i : ℕ) : DecryptRow where
  ciphertext := args.ciphertext.toArray.getD i none
  key := args.key.toArray.getD i none
  iv := args.iv.toArray.getD i none
  aad := optionalEntry [] args.aad i
  method := optionalEntry "AES-GCM".toList args.method i
  tag := optionalEntry [] args.tag i

def DecryptArgs.otherLens (args : DecryptArgs) : List ℕ :=
  [args.key.toArray.length, args.iv.toArray.length] ++ optionalLen args.aad ++
    optionalLen args.method ++ optionalLen args.tag

def objectText (fields : List (List Char × List Char)) : List Char :=
  let quoted (s : List Char) := ['"'] ++ s ++ ['"']
  let members := fields.map fun field => quoted field.1 ++ [':'] ++ quoted field.2
  ['\x7b'] ++ [','].intercalate members ++ ['\x7d']

structure SealedRow where
  ciphertext : Bytes
  iv : Bytes
  tag : Bytes

def SealedRow.text (row : SealedRow) : List Char :=
  objectText [("ciphertext".toList, encodeHex true row.ciphertext),
    ("iv".toList, encodeHex true row.iv), ("tag".toList, encodeHex true row.tag)]

def SealedRow.ofText? (text : List Char) : Option SealedRow :=
  match text.splitOn '"' with
  | [_, _, _, ciphertext, _, _, _, iv, _, _, _, tag, _] => do
    return ⟨← decodeHex ciphertext, ← decodeHex iv, ← decodeHex tag⟩
  | _ => none

namespace CryptEnv

variable (env : CryptEnv)

def checkMethod (method : List Char) : Except CryptError Unit :=
  match (env.toUppercase method).splitOn '-' with
  | [algorithm, mode] =>
    if algorithm ≠ "AES".toList then .error (.unsupportedEncryptionAlgorithm algorithm)
    else if mode ≠ "GCM".toList then .error (.unsupportedEncryptionMode mode)
    else .ok ()
  | _ => .error (.malformedEncryptionMethod method)

def checkIv (iv : Bytes) : Except CryptError Unit :=
  if iv.length ≠ 12 then .error (.invalidIvSize (iv.length * 8) 96 "GCM") else .ok ()

def gcm? : ℕ → Option (Σ keySize, Aead UInt8 keySize 12 16)
  | 16 => some ⟨16, env.aes128Gcm⟩
  | 24 => some ⟨24, env.aes192Gcm⟩
  | 32 => some ⟨32, env.aes256Gcm⟩
  | _ => none

def encrypt {keySize : ℕ} (cipher : Aead UInt8 keySize 12 16) (value key iv aad : Bytes) :
    Except CryptError (Bytes × Bytes) :=
  match ofSize? keySize key, ofSize? 12 iv with
  | none, _ => .error .cipherCreation
  | some _, none => .error .sliceCreationFailed
  | some key, some nonce =>
    match cipher.encrypt key nonce aad value with
    | none => .error .encryptionFailed
    | some ct =>
      -- `split_off(ct.len() - 16)`
      match splitTag 16 ct with
      | none => .error .panicked
      | some parts => .ok parts

def decrypt {keySize : ℕ} (cipher : Aead UInt8 keySize 12 16) (ct key iv aad : Bytes) :
    Except CryptError Bytes :=
  match ofSize? keySize key, ofSize? 12 iv with
  | none, _ => .error .decryptionFailed
  | some _, none => .error .sliceCreationFailed
  | some key, some nonce =>
    match cipher.decrypt key nonce aad ct with
    | none => .error .decryptionFailed
    | some pt => .ok pt

def rowIv (i : ℕ) : Option Bytes → Bytes
  | none => (env.generateRandomIv i).val
  | some [] => (env.generateRandomIv i).val
  | some (b :: iv) => b :: iv

def encryptRow (i : ℕ) : EncryptRow → Except CryptError (Option (List Char))
  | ⟨some value, some key, iv, some aad, some method⟩ => do
    env.checkMethod method
    checkIv (env.rowIv i iv)
    let (ciphertext, tag) ←
      match env.gcm? key.length with
      | some ⟨_, cipher⟩ => encrypt cipher value key (env.rowIv i iv) aad
      | none => .error (.invalidKeySize (key.length * 8) "AES")
    return some (SealedRow.text ⟨ciphertext, env.rowIv i iv, tag⟩)
  | _ => .ok none

def encryptRaw (args : EncryptArgs) : Except CryptError (List (Option (List Char))) :=
  let len := args.value.toArray.length
  if args.otherLens.any (· ≠ len) then .error .arrayLengthMismatch
  else (List.range len).mapM fun i => env.encryptRow i (args.row i)

def combined (ct tag : Bytes) : Except CryptError Bytes :=
  if tag.isEmpty then
    match splitTag 16 ct with
    | none => .error .ciphertextTooShort
    | some (ciphertextData, tagData) => .ok (ciphertextData ++ tagData)
  else .ok (ct ++ tag)

def decryptRow : DecryptRow → Except CryptError (Option Bytes)
  | ⟨_, _, none, _, _, _⟩ => .error .nullIvForDecryption
  | ⟨some ct, some key, some iv, some aad, some method, some tag⟩ => do
    checkIv iv
    env.checkMethod method
    let combinedCt ← combined ct tag
    let pt ←
      match env.gcm? key.length with
      | some ⟨_, cipher⟩ => decrypt cipher combinedCt key iv aad
      | none => .error (.invalidKeyLength key.length)
    return some pt
  | _ => .ok none

def decryptRaw (args : DecryptArgs) : Except CryptError (List (Option Bytes)) :=
  let len := args.ciphertext.toArray.length
  if args.otherLens.any (· ≠ len) then .error .arrayLengthMismatch
  else (List.range len).mapM fun i => env.decryptRow (args.row i)

end CryptEnv

namespace SealedRow

lemma splitOn_objectText {k₁ v₁ k₂ v₂ k₃ v₃ : List Char} (hk₁ : '"' ∉ k₁) (hv₁ : '"' ∉ v₁)
    (hk₂ : '"' ∉ k₂) (hv₂ : '"' ∉ v₂) (hk₃ : '"' ∉ k₃) (hv₃ : '"' ∉ v₃) :
    (objectText [(k₁, v₁), (k₂, v₂), (k₃, v₃)]).splitOn '"' =
      [['\x7b'], k₁, [':'], v₁, [','], k₂, [':'], v₂, [','], k₃, [':'], v₃, ['\x7d']] := by
  have ht : objectText [(k₁, v₁), (k₂, v₂), (k₃, v₃)] = ['"'].intercalate
      [['\x7b'], k₁, [':'], v₁, [','], k₂, [':'], v₂, [','], k₃, [':'], v₃, ['\x7d']] := by
    simp [objectText, intercalate_cons_cons]
  rw [ht]
  refine splitOn_intercalate '"' ?_ (cons_ne_nil _ _)
  simp [hk₁, hv₁, hk₂, hv₂, hk₃, hv₃]

lemma quote_notMem_encodeHex (bytes : Bytes) : '"' ∉ encodeHex true bytes := fun hm =>
  absurd (mem_hexDigits_of_mem_encodeHex hm) (by decide)

lemma ofText?_text (row : SealedRow) : ofText? row.text = some row := by
  rw [ofText?, text, splitOn_objectText (by decide) (quote_notMem_encodeHex _) (by decide)
    (quote_notMem_encodeHex _) (by decide) (quote_notMem_encodeHex _)]
  simp only [decodeHex_encodeHex]
  rfl

end SealedRow

structure AesKey where
  bytes : Bytes
  length_eq : bytes.length = 16 ∨ bytes.length = 24 ∨ bytes.length = 32

structure GcmName (env : CryptEnv) where
  method : List Char
  toUppercase_eq : env.toUppercase method = "AES-GCM".toList

namespace CryptEnv

variable (env : CryptEnv)

def gcmName : GcmName env := ⟨"AES-GCM".toList, env.toUppercase_of_ascii _ rfl⟩

lemma checkMethod_eq_ok_iff {method : List Char} :
    env.checkMethod method = .ok () ↔ env.toUppercase method = "AES-GCM".toList := by
  constructor
  · intro h
    rw [checkMethod] at h
    split at h
    case h_1 algorithm mode hs =>
      have hj : ['-'].intercalate ((env.toUppercase method).splitOn '-') =
          env.toUppercase method := intercalate_splitOn '-'
      rw [← hj, hs]
      split_ifs at h with ha hm
      rw [not_not.mp ha, not_not.mp hm]
      rfl
    case h_2 => cases h
  · intro h
    rw [checkMethod, h]
    rfl

lemma exists_gcm? (key : AesKey) : ∃ c : Aead UInt8 key.bytes.length 12 16,
    env.gcm? key.bytes.length = some ⟨key.bytes.length, c⟩ := by
  have hs : ∀ k, k = 16 ∨ k = 24 ∨ k = 32 → ∃ c : Aead UInt8 k 12 16, env.gcm? k = some ⟨k, c⟩ := by
    rintro k (rfl | rfl | rfl) <;> exact ⟨_, rfl⟩
  exact hs _ key.length_eq

lemma checkMethod_name (nm : GcmName env) : env.checkMethod nm.method = .ok () :=
  env.checkMethod_eq_ok_iff.mpr nm.toUppercase_eq

lemma exists_encrypt_eq_ok (k : AesKey) {iv : Bytes} (hi : iv.length = 12) (value a : Bytes) :
    ∃ (c : Aead UInt8 k.bytes.length 12 16) (ct t : Bytes),
      env.gcm? k.bytes.length = some ⟨k.bytes.length, c⟩ ∧
      encrypt c value k.bytes iv a = .ok (ct, t) ∧ t.length = 16 ∧
      decrypt c (ct ++ t) k.bytes iv a = .ok value := by
  obtain ⟨c, hc⟩ := env.exists_gcm? k
  obtain ⟨ct, t, he, ht, hd⟩ :=
    c.exists_encrypt ⟨k.bytes, rfl⟩ ⟨iv, hi⟩ a value
  refine ⟨c, ct, t, hc, ?_, ht, ?_⟩
  · simp only [encrypt, ofSize?_eq_some rfl, ofSize?_eq_some hi, he, splitTag_append ct ht]
  · simp only [decrypt, ofSize?_eq_some rfl, ofSize?_eq_some hi, hd]

variable {env}

lemma encryptRow_opens {i : ℕ} {iv : Option Bytes} (hi : (env.rowIv i iv).length = 12)
    (v a : Bytes) (k : AesKey) (m : GcmName env) :
    ∃ ct t, env.encryptRow i ⟨v, k.bytes, iv, a, m.method⟩ =
        .ok (some (SealedRow.text ⟨ct, env.rowIv i iv, t⟩)) ∧
      env.decryptRow ⟨ct, k.bytes, env.rowIv i iv, a, env.gcmName.method, t⟩ = .ok (some v) ∧
      env.decryptRow ⟨some (ct ++ t), k.bytes, env.rowIv i iv, a, env.gcmName.method,
        some []⟩ = .ok (some v) := by
  obtain ⟨c, ct, t, hc, he, ht, hd⟩ :=
    env.exists_encrypt_eq_ok k hi v a
  have hci : checkIv (env.rowIv i iv) = .ok () := if_neg (not_not.mpr hi)
  -- Both ways of giving the tag are combined to the same bytes.
  have hdr : ∀ ct' t', combined ct' t' = .ok (ct ++ t) →
      env.decryptRow ⟨some ct', k.bytes, env.rowIv i iv, a, env.gcmName.method, some t'⟩ =
        .ok (some v) := by
    intro ct' t' hcom
    rw [decryptRow, hci, env.checkMethod_name, hcom]
    simp only [hc]
    change (decrypt c (ct ++ t) k.bytes (env.rowIv i iv) a >>= fun pt =>
      pure (some pt)) = _
    rw [hd]
    rfl
  refine ⟨ct, t, ?_, hdr ct t ?_, hdr (ct ++ t) [] ?_⟩
  · rw [encryptRow, hci, env.checkMethod_name]
    simp only [hc]
    rw [he]
    rfl
  · cases t with
    | nil => cases ht
    | cons b t => rfl
  · simp only [combined, splitTag_append ct ht]
    rfl

end CryptEnv

structure CryptBatch (env : CryptEnv) where
  value : Columnar Bytes
  key : Columnar AesKey
  iv : Columnar (List.Vector UInt8 12)
  aad : Option (Columnar Bytes)
  method : Option (Columnar (GcmName env))

structure CryptRow (env : CryptEnv) where
  value : Bytes
  key : AesKey
  iv : List.Vector UInt8 12
  aad : Bytes
  method : GcmName env

def optionalRow? {α : Type} (default : α) (arg : Option (Columnar α)) (i : ℕ) : Option α :=
  match arg with
  | none => some default
  | some column => column.row? i

namespace CryptRow

variable {env : CryptEnv} (row : CryptRow env)

def entries : EncryptRow :=
  ⟨row.value, row.key.bytes, row.iv.val, row.aad, row.method.method⟩

def decrypted (ciphertext : Bytes) (tag : Option Bytes) : Except CryptError (List (Option Bytes)) :=
  env.decryptRaw ⟨.scalar ciphertext, .scalar row.key.bytes, .scalar row.iv.val,
    some (.scalar row.aad), some (.scalar "AES-GCM".toList), tag.map fun tag => .scalar (some tag)⟩

def Opens (text : List Char) : Prop :=
  ∃ parts, SealedRow.ofText? text = some parts ∧
    row.decrypted parts.ciphertext (some parts.tag) = .ok [some row.value] ∧
    row.decrypted (parts.ciphertext ++ parts.tag) none = .ok [some row.value]

lemma decrypted_of_decryptRow {c : Bytes} {t : Option Bytes} {v : Option Bytes}
    (h : env.decryptRow ⟨c, row.key.bytes, row.iv.val, row.aad, env.gcmName.method,
      some (t.getD [])⟩ = .ok v) : row.decrypted c t = .ok [v] := by
  have hr : row.decrypted c t = [0].mapM fun _ =>
      env.decryptRow ⟨c, row.key.bytes, row.iv.val, row.aad, env.gcmName.method,
        some (t.getD [])⟩ := by
    cases t with
    | none => rfl
    | some t => rfl
  rw [hr]
  exact mapM_eq_ok_map fun _ _ => h

lemma exists_encryptRow (i : ℕ) :
    ∃ text, env.encryptRow i row.entries = .ok (some text) ∧ row.Opens text := by
  have hi : env.rowIv i (some row.iv.val) = row.iv.val := by
    obtain ⟨iv, hlen⟩ := row.iv
    cases iv with
    | nil => cases hlen
    | cons b iv => rfl
  obtain ⟨ct, tag, he, hwit, hw⟩ := CryptEnv.encryptRow_opens
    ((congrArg List.length hi).trans row.iv.property) row.value row.aad row.key row.method
  rw [hi] at he hwit hw
  refine ⟨_, he, _, SealedRow.ofText?_text _, ?_, ?_⟩
  · exact row.decrypted_of_decryptRow hwit
  · exact row.decrypted_of_decryptRow hw

end CryptRow

open Columnar

namespace CryptBatch

variable {env : CryptEnv} (batch : CryptBatch env) {n : ℕ}

def args : EncryptArgs where
  value := batch.value.map fun value => some value
  key := batch.key.map fun key => some key.bytes
  iv := batch.iv.map fun iv => some iv.val
  aad := batch.aad.map fun column => column.map fun aad => some aad
  method := batch.method.map fun column => column.map fun name => some name.method

def row? (i : ℕ) : Option (CryptRow env) := do
  let value ← batch.value.row? i
  let key ← batch.key.row? i
  let iv ← batch.iv.row? i
  let aad ← optionalRow? [] batch.aad i
  let method ← optionalRow? env.gcmName batch.method i
  return ⟨value, key, iv, aad, method⟩

def otherLens : List (Option ℕ) :=
  [batch.key.len?, batch.iv.len?] ++ (batch.aad.map len?).toList ++ (batch.method.map len?).toList

def lens : List (Option ℕ) := batch.value.len? :: batch.otherLens

def HasRows (n : ℕ) : Prop := ∀ len ∈ batch.lens, len = none ∨ len = some n

def scalars : Bool := batch.lens.all (·.isNone)

def RoundTrips (n : ℕ) : Prop :=
  ∃ texts, env.encryptRaw batch.args = .ok texts ∧ (ofRows batch.scalars texts).HasRows n ∧
    ∀ i < n, ∃ row text, batch.row? i = some row ∧
      (ofRows batch.scalars texts).row? i = some (some text) ∧ row.Opens text

lemma exists_optionalEntry {α β : Type} (f : α → β) (d : α) (a : Option (Columnar α))
    (hi : ∀ c ∈ a, n < c.toArray.length) : ∃ v, optionalRow? d a n = some v ∧
    optionalEntry (f d) (a.map fun c => c.map fun v => some (f v)) n = some (f v) := by
  cases a with
  | none => exact ⟨d, rfl, rfl⟩
  | some c => exact c.exists_getD_toArray_map f (hi c rfl)

lemma optionalRow?_eq_of_len? {α : Type} (d : α) {a : Option (Columnar α)}
    (h : ∀ c ∈ a, c.len? = none) (i j : ℕ) : optionalRow? d a i = optionalRow? d a j := by
  cases a with
  | none => rfl
  | some c => exact row?_eq_of_len? (h c rfl) i j

lemma key_mem_otherLens : batch.key.len? ∈ batch.otherLens := by simp [otherLens]

lemma iv_mem_otherLens : batch.iv.len? ∈ batch.otherLens := by simp [otherLens]

lemma aad_mem_otherLens {c : Columnar Bytes} (h : c ∈ batch.aad) : c.len? ∈ batch.otherLens := by
  simp [otherLens, mem_def.mp h]

lemma method_mem_otherLens {c : Columnar (GcmName env)} (h : c ∈ batch.method) :
    c.len? ∈ batch.otherLens := by
  simp [otherLens, mem_def.mp h]

lemma otherLens_args : batch.args.otherLens = batch.otherLens.map (·.getD 1) := by
  have ho : ∀ {α β : Type} (f : α → β) (a : Option (Columnar α)),
      optionalLen (a.map fun c => c.map f) = (a.map len?).toList.map (·.getD 1) := by
    intro α β f a
    cases a with
    | none => rfl
    | some c =>
      rw [optionalLen, map_some, map_some, Columnar.toArray_map, length_map, length_toArray_eq]
      rfl
  simp only [EncryptArgs.otherLens, args, otherLens, ho, Columnar.toArray_map,
    length_map, length_toArray_eq, map_append, map_cons, map_nil]

lemma encryptRaw_args :
    env.encryptRaw batch.args =
      if ∀ len ∈ batch.otherLens, len.getD 1 = batch.value.len?.getD 1 then
        (List.range (batch.value.len?.getD 1)).mapM fun i => env.encryptRow i (batch.args.row i)
      else .error .arrayLengthMismatch := by
  have hlen : batch.args.value.toArray.length = batch.value.len?.getD 1 := by
    rw [args, Columnar.toArray_map, length_map, length_toArray_eq]
  rw [CryptEnv.encryptRaw, otherLens_args, hlen]
  by_cases hs : ∀ len ∈ batch.otherLens, len.getD 1 = batch.value.len?.getD 1
  · rw [if_pos hs]
    refine if_neg fun ha => ?_
    obtain ⟨m, hm, hne⟩ := any_eq_true.mp ha
    obtain ⟨len, hmm, rfl⟩ := mem_map.mp hm
    exact of_decide_eq_true hne (hs len hmm)
  · rw [if_neg hs]
    simp only [not_forall] at hs
    obtain ⟨len, hmm, hne⟩ := hs
    refine if_pos (any_eq_true.mpr ⟨len.getD 1, mem_map.mpr ⟨len, hmm, rfl⟩, ?_⟩)
    exact decide_eq_true hne

variable {batch}

lemma exists_row (hs : ∀ l ∈ batch.otherLens, l.getD 1 = batch.value.len?.getD 1)
    (hi : n < batch.value.len?.getD 1) :
    ∃ row, batch.row? n = some row ∧ batch.args.row n = row.entries := by
  have hlt : ∀ {α : Type} (c : Columnar α), c.len? ∈ batch.otherLens →
      n < c.toArray.length := fun c hmm => by
    rw [c.length_toArray_eq, hs _ hmm]
    exact hi
  obtain ⟨v, hv, hv'⟩ := batch.value.exists_getD_toArray_map (fun v => v)
    (batch.value.length_toArray_eq ▸ hi)
  obtain ⟨k, hk, hk'⟩ := batch.key.exists_getD_toArray_map AesKey.bytes
    (hlt batch.key batch.key_mem_otherLens)
  obtain ⟨iv, hiv, hi'⟩ := batch.iv.exists_getD_toArray_map (fun iv => iv.val)
    (hlt batch.iv batch.iv_mem_otherLens)
  obtain ⟨a, ha, ha'⟩ := exists_optionalEntry (fun a => a) [] batch.aad
    fun c hc => hlt c (batch.aad_mem_otherLens hc)
  obtain ⟨m, hm, hm'⟩ :=
    exists_optionalEntry GcmName.method env.gcmName batch.method
      fun c hc => hlt c (batch.method_mem_otherLens hc)
  refine ⟨⟨v, k, iv, a, m⟩, ?_, ?_⟩
  · simp only [row?, hv, hk, hiv, ha, hm]
    rfl
  · have hm'' : optionalEntry "AES-GCM".toList batch.args.method n = some m.method :=
      hm'
    simp only [EncryptArgs.row, hm'']
    simp only [args, hv', hk', hi', ha']
    rfl

lemma row?_of_scalars (hs : batch.scalars = true) :
    batch.value.len? = none ∧ ∀ i j, batch.row? i = batch.row? j := by
  have hn : ∀ l ∈ batch.lens, l = none := fun l hle =>
    isNone_iff_eq_none.mp (all_eq_true.mp hs l hle)
  have ho : ∀ l ∈ batch.otherLens, l = none := fun l hle =>
    hn l (mem_cons_of_mem _ hle)
  have hv : batch.value.len? = none := hn _ mem_cons_self
  refine ⟨hv, fun i j => ?_⟩
  rw [row?, row?_eq_of_len? hv i j, row?_eq_of_len? (ho _ batch.key_mem_otherLens) i j,
    row?_eq_of_len? (ho _ batch.iv_mem_otherLens) i j,
    optionalRow?_eq_of_len? [] (fun _ h => ho _ (batch.aad_mem_otherLens h)) i j,
    optionalRow?_eq_of_len? env.gcmName (fun _ h => ho _ (batch.method_mem_otherLens h)) i j]
  rfl

lemma getD_len?_of_not_scalars (hr : batch.HasRows n) (hu : UniformLens n batch.lens)
    (hs : batch.scalars = false) : batch.value.len?.getD 1 = n := by
  obtain hn | hsom := hr batch.value.len? mem_cons_self
  · rw [hn]
    obtain rfl | ha | ha := hu
    · rfl
    · have ht : batch.scalars = true := all_eq_true.mpr fun l hlen =>
        isNone_iff_eq_none.mpr (ha l hlen)
      exact absurd (hs.symm.trans ht) Bool.false_ne_true
    · exact absurd hn (ha _ mem_cons_self)
  · rw [hsom]
    rfl

lemma ofRows_spec (hr : batch.HasRows n) (hu : UniformLens n batch.lens)
    {ts : List (Option (List Char))} (ht : ts.length = batch.value.len?.getD 1) :
    (ofRows batch.scalars ts).HasRows n ∧
      ∀ i < n, ∃ j < batch.value.len?.getD 1, batch.row? i = batch.row? j ∧
        (ofRows batch.scalars ts).row? i = ts[j]? := by
  cases hs : batch.scalars with
  | true =>
    obtain ⟨hv, hrw⟩ := row?_of_scalars hs
    rw [hv] at ht ⊢
    obtain ⟨text, rfl, htex⟩ := exists_ofRows_true ht
    rw [htex]
    exact ⟨trivial, fun i _ => ⟨0, Nat.one_pos, hrw i 0, rfl⟩⟩
  | false =>
    have hlen := getD_len?_of_not_scalars hr hu hs
    rw [ofRows_false]
    exact ⟨ht.trans hlen, fun i hi => ⟨i, hlen.symm ▸ hi, rfl, rfl⟩⟩

lemma exists_texts (hs : ∀ l ∈ batch.otherLens, l.getD 1 = batch.value.len?.getD 1) :
    ∃ texts, env.encryptRaw batch.args = .ok texts ∧ texts.length = batch.value.len?.getD 1 ∧
      ∀ j < batch.value.len?.getD 1, ∃ row text, batch.row? j = some row ∧
        texts[j]? = some (some text) ∧ row.Opens text := by
  have he : ∀ j < batch.value.len?.getD 1, ∃ row text, batch.row? j = some row ∧
      env.encryptRow j (batch.args.row j) = .ok (some text) ∧ row.Opens text := by
    intro j hj
    obtain ⟨row, hr, hen⟩ := exists_row hs hj
    obtain ⟨text, ht, ho⟩ := row.exists_encryptRow j
    exact ⟨row, text, hr, hen ▸ ht, ho⟩
  obtain ⟨texts, hte⟩ : ∃ texts, (List.range (batch.value.len?.getD 1)).mapM
      (fun j => env.encryptRow j (batch.args.row j)) = .ok texts := by
    refine exists_mapM_eq_ok fun j hj => ?_
    obtain ⟨row, text, -, ht, -⟩ := he j (mem_range.mp hj)
    exact ⟨_, ht⟩
  refine ⟨texts, ?_, (length_of_mapM_eq_ok hte).trans length_range, fun j hj => ?_⟩
  · rw [encryptRaw_args, if_pos hs]
    exact hte
  · obtain ⟨row, text, hr, ht, ho⟩ := he j hj
    obtain ⟨result, hres, hok⟩ := getElem?_of_mapM_eq_ok hte (getElem?_range hj)
    refine ⟨row, text, hr, ?_, ho⟩
    rw [hres, Except.ok.inj (hok.symm.trans ht)]

/-! ### Main result -/

/-- **Batches are encrypted and decrypted back** exactly if all arguments are scalars, or all
columns, or there is one row. -/
theorem roundTrips_iff_uniform (hrows : batch.HasRows n) :
    batch.RoundTrips n ↔ UniformLens n batch.lens := by
  constructor
  · rintro ⟨texts, ht, -⟩
    refine (uniformLens_iff hrows).mpr ?_
    by_contra hs
    rw [encryptRaw_args, if_neg hs] at ht
    cases ht
  · intro hu
    obtain ⟨texts, ht, hlen, ho⟩ := exists_texts ((uniformLens_iff hrows).mp hu)
    obtain ⟨hr, hin⟩ := ofRows_spec hrows hu hlen
    refine ⟨texts, ht, hr, fun i hi => ?_⟩
    obtain ⟨j, hj, hrwj, hrw⟩ := hin i hi
    obtain ⟨row, text, hrow, htex, ho⟩ := ho j hj
    exact ⟨row, text, hrwj.trans hrow, hrw.trans htex, ho⟩

def zeroTag (keySize : ℕ) : Aead UInt8 keySize 12 16 where
  encrypt _ _ _ msg := some (msg ++ List.replicate 16 0)
  decrypt _ _ _ bytes := (splitTag 16 bytes).map Prod.fst
  exists_encrypt _ _ _ msg := ⟨msg, List.replicate 16 0, rfl, length_replicate,
    congrArg (Option.map Prod.fst) (splitTag_append msg length_replicate)⟩

def sampleCryptEnv : CryptEnv where
  aes128Gcm := zeroTag 16
  aes192Gcm := zeroTag 24
  aes256Gcm := zeroTag 32
  toUppercase s := s.map Char.toUpper
  toUppercase_of_ascii _ _ := rfl
  generateRandomIv _ := List.Vector.replicate 12 0

def zeroKey : AesKey := ⟨List.replicate 16 0, .inl rfl⟩

def sampleBatch (key : Columnar AesKey) : CryptBatch sampleCryptEnv where
  value := .array [[1, 2], []]
  key := key
  iv := .array [List.Vector.replicate 12 0, List.Vector.replicate 12 1]
  aad := none
  method := none

theorem roundTrips_columns :
    (sampleBatch (.array [zeroKey, zeroKey])).RoundTrips 2 := by
  have hl : ∀ len ∈ (sampleBatch (.array [zeroKey, zeroKey])).lens, len = some 2 :=
    fun len hlen => eq_of_mem_replicate (show len ∈ List.replicate 3 (some 2) from hlen)
  refine (roundTrips_iff_uniform fun len hlen => .inr (hl len hlen)).mpr (.inr (.inr ?_))
  intro len hlen
  rw [hl len hlen]
  exact some_ne_none 2

theorem roundTrips_scalarKey_fails :
    sampleCryptEnv.encryptRaw (sampleBatch (.scalar zeroKey)).args = .error .arrayLengthMismatch ∧
      ¬(sampleBatch (.scalar zeroKey)).RoundTrips 2 := by
  have he : sampleCryptEnv.encryptRaw (sampleBatch (.scalar zeroKey)).args =
      .error .arrayLengthMismatch := rfl
  refine ⟨he, ?_⟩
  rintro ⟨texts, ht, -⟩
  cases he.symm.trans ht

end CryptBatch

end Rustice
