import Rustice.HexEncode

/-!
# Binary Values as Text

`TO_VARCHAR` prints a binary value in a format and `TO_BINARY` reads it.
-/

namespace Rustice

open List

def fromUtf8 (bytes : List UInt8) : Option (List Char) :=
  (String.fromUTF8? bytes.toByteArray).map String.toList

lemma exists_fromUtf8 {bytes : List UInt8} (h : bytes.toByteArray.IsValidUTF8) :
    ∃ s, fromUtf8 bytes = some s ∧ asBytes s = bytes := by
  refine ⟨(String.fromUTF8 bytes.toByteArray h).toList, ?_, ?_⟩
  · rw [fromUtf8, String.fromUTF8?, dif_pos h]
    rfl
  · have he : (String.fromUTF8 bytes.toByteArray h).toList.utf8Encode = bytes.toByteArray :=
      String.utf8Encode_toList
    have hd := congrArg (fun b : ByteArray => b.data.toList) he
    simpa [utf8Encode, asBytes] using hd

inductive BinaryTextError where
  | failedToDecodeHexString
  | failedToDecodeBase64String
  | invalidUtf8Sequence
  | unsupportedFormat (format : List Char) (expected : String)

/-- The base64 encoder and decoder, and the case mappings of `str` on ASCII text. -/
structure BinaryTextEnv where
  base64Encode : List UInt8 → List Char
  base64Decode : List Char → Option (List UInt8)
  base64Decode_encode : ∀ b, base64Decode (base64Encode b) = some b
  quote_notMem_base64Encode : ∀ b, '"' ∉ base64Encode b
  arrayValueToString : List UInt8 → List Char
  toUppercase : List Char → List Char
  toLowercase : List Char → List Char
  toUppercase_of_ascii : ∀ s, s.all isAsciiChar = true → toUppercase s = s.map Char.toUpper
  toLowercase_of_ascii : ∀ s, s.all isAsciiChar = true → toLowercase s = s.map Char.toLower

def stripSurroundingQuotes (s : List Char) : List Char :=
  if 2 ≤ byteLen s ∧ s.head? = some '"' ∧ s.getLast? = some '"' then s.tail.dropLast else s

namespace BinaryTextEnv

variable (env : BinaryTextEnv) (tryMode : Bool)

def convertBinaryToString (format : Option (List Char)) (bytes : List UInt8) :
    Except BinaryTextError (Option (List Char)) :=
  match format with
  | none => .ok (some (env.arrayValueToString bytes))
  | some format =>
    let format := env.toUppercase format
    if format = "UTF-8".toList ∨ format = "UTF8".toList then
      match fromUtf8 bytes with
      | some s => .ok (some s)
      | none => if tryMode then .ok none else .error .invalidUtf8Sequence
    else if format = "HEX".toList then .ok (some (env.toUppercase (encodeHex false bytes)))
    else if format = "BASE64".toList then .ok (some (env.base64Encode bytes))
    else if tryMode then .ok none
    else .error (.unsupportedFormat format "UTF-8, UTF8, HEX or BASE64")

def toVarchar (format : Option (List Char)) (column : List (Option (List UInt8))) :
    Except BinaryTextError (List (Option (List Char))) :=
  column.mapM fun
    | none => .ok none
    | some bytes => env.convertBinaryToString tryMode format bytes

def orNull (decoded : Option (List UInt8)) (error : BinaryTextError) :
    Except BinaryTextError (Option (List UInt8)) :=
  match decoded with
  | some bytes => .ok (some bytes)
  | none => if tryMode then .ok none else .error error

def stringToBinary (format s : List Char) : Except BinaryTextError (Option (List UInt8)) :=
  let lower := env.toLowercase (env.toUppercase format)
  if lower = "hex".toList then
    orNull tryMode (decodeHex ((stripSurroundingQuotes s).filter (· ≠ ' ')))
      .failedToDecodeHexString
  else if lower = "base64".toList then
    orNull tryMode (env.base64Decode (stripSurroundingQuotes s)) .failedToDecodeBase64String
  else if lower = "utf-8".toList ∨ lower = "utf8".toList then .ok (some (asBytes s))
  else orNull tryMode none (.unsupportedFormat format "HEX, BASE64, and UTF-8")

def convertStringToBinary (format : List Char) (strings : List (Option (List Char))) :
    Except BinaryTextError (List (Option (List UInt8))) :=
  strings.mapM fun
    | none => .ok none
    | some s => env.stringToBinary tryMode format s

/-- A name of a format in any letter case. -/
def IsFormat (name : String) (format : List Char) : Prop :=
  format.all isAsciiChar = true ∧ format.map Char.toUpper = name.toList

def Carries (format : List Char) (bytes : List UInt8) : Prop :=
  IsFormat "HEX" format ∨ IsFormat "BASE64" format ∨
    ((IsFormat "UTF-8" format ∨ IsFormat "UTF8" format) ∧ bytes.toByteArray.IsValidUTF8)

variable {env tryMode} {format f : List Char} {bytes bs : List UInt8}

lemma stripSurroundingQuotes_of_notMem {s : List Char} (h : '"' ∉ s) :
    stripSurroundingQuotes s = s :=
  if_neg fun hq => h (mem_of_mem_head? hq.2.1)

lemma toUppercase_of_isFormat {nm : String} (h : IsFormat nm f) : env.toUppercase f = nm.toList :=
  (env.toUppercase_of_ascii f h.1).trans h.2

lemma toUppercase_encodeHex : env.toUppercase (encodeHex false bytes) = encodeHex true bytes := by
  have hd : ∀ n < 16, (hexDigit false n).toUpper = hexDigit true n := by decide
  rw [env.toUppercase_of_ascii _ (isAscii_encodeHex _ _), encodeHex, map_flatMap, encodeHex]
  refine flatMap_congr fun b _ => ?_
  have hb := b.toNat_lt
  rw [map_cons, map_singleton, hd _ (by omega), hd _ (by omega)]

lemma ne_of_mem_encodeHex {c : Char} (h : c ∈ encodeHex true bs) : c ≠ '"' ∧ c ≠ ' ' := by
  have hd : ∀ d ∈ hexDigits true, d ≠ '"' ∧ d ≠ ' ' := by simp [hexDigits]
  exact hd c (mem_hexDigits_of_mem_encodeHex h)

lemma decodeHex_row (bytes : List UInt8) :
    decodeHex ((stripSurroundingQuotes (encodeHex true bytes)).filter (· ≠ ' ')) = some bytes := by
  rw [stripSurroundingQuotes_of_notMem fun hq => (ne_of_mem_encodeHex hq).1 rfl,
    filter_eq_self.mpr fun c hc => decide_eq_true (ne_of_mem_encodeHex hc).2, decodeHex_encodeHex]

lemma exists_text (tv : Bool) (h : Carries f bs) :
    ∃ s, env.convertBinaryToString tv (some f) bs = .ok (some s) ∧
      env.stringToBinary tryMode f s = .ok (some bs) := by
  have hl : ∀ nm : String, nm.toList.all isAsciiChar = true →
      env.toLowercase nm.toList = nm.toList.map Char.toLower := fun nm =>
    env.toLowercase_of_ascii nm.toList
  rcases h with h | h | ⟨h | h, hv⟩ <;>
    simp only [convertBinaryToString, stringToBinary, toUppercase_of_isFormat h]
  · refine ⟨_, rfl, ?_⟩
    rw [hl "HEX" rfl, toUppercase_encodeHex, decodeHex_row]
    rfl
  · refine ⟨_, rfl, ?_⟩
    rw [hl "BASE64" rfl, stripSurroundingQuotes_of_notMem (env.quote_notMem_base64Encode bs),
      env.base64Decode_encode]
    rfl
  all_goals
    obtain ⟨s, hs, hb⟩ := exists_fromUtf8 hv
    refine ⟨s, by rw [hs]; rfl, ?_⟩
    first
      | rw [hl "UTF-8" rfl, hb]
        rfl
      | rw [hl "UTF8" rfl, hb]
        rfl

/-! ### Main result -/

/-- **A binary column that is printed in a format is read back.** -/
theorem convertStringToBinary_toVarchar (env : BinaryTextEnv) (tryVarchar tryMode : Bool)
    {format : List Char} {column : List (Option (List UInt8))}
    (h : ∀ bytes, some bytes ∈ column → Carries format bytes) :
    (env.toVarchar tryVarchar (some format) column >>=
      env.convertStringToBinary tryMode format) = .ok column := by
  refine bind_eq_ok.mpr ?_
  simp only [toVarchar, convertStringToBinary, @mapM_eq_ok_iff _ _ _ _ _ column]
  refine (exists_mapM_eq_ok_iff.mpr fun value hm => ?_).imp fun texts ht => ⟨ht.1, ht.2.flip⟩
  cases value with
  | none => exact ⟨none, rfl, rfl⟩
  | some bytes =>
    obtain ⟨s, hs, hb⟩ := exists_text tryVarchar (h bytes hm)
    exact ⟨some s, hs, hb⟩

def asciiEnv : BinaryTextEnv where
  base64Encode := encodeHex true
  base64Decode := decodeHex
  base64Decode_encode := decodeHex_encodeHex true
  quote_notMem_base64Encode _ hm := (ne_of_mem_encodeHex hm).1 rfl
  arrayValueToString := encodeHex false
  toUppercase s := s.map fun c => c.toUpper
  toLowercase s := s.map Char.toLower
  toUppercase_of_ascii _ _ := rfl
  toLowercase_of_ascii _ _ := rfl

theorem convertStringToBinary_toVarchar_hex :
    (asciiEnv.toVarchar false (some "hEx".toList) [some [255, 34], none] >>=
      asciiEnv.convertStringToBinary true "hEx".toList) = .ok [some [255, 34], none] :=
  convertStringToBinary_toVarchar asciiEnv false true fun _ _ => .inl ⟨rfl, by decide⟩

end BinaryTextEnv

end Rustice
