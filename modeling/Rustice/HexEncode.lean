import Rustice.Columnar
import Rustice.HexText
import Rustice.Utf8

/-!
# `HEX_ENCODE` and `HEX_DECODE_BINARY`

`HEX_ENCODE` goes over its input and the argument for the case together, and stops at the end of
the shorter one.
-/

namespace Rustice

inductive HexError where
  | nonValidAsciiString
  | illegalHexValue (value : List Char)
  | unsupportedDataType (functionName dataType expectedTypes : String)

inductive HexInput where
  | strings (column : Columnar (Option (List Char)))
  | binaries (column : Columnar (Option (List UInt8)))
  | null (column : Columnar Unit)
  | other (dataType : String)

def asBytes (s : List Char) : List UInt8 := s.flatMap String.utf8EncodeChar

def encodeHexRow (row : Option (List UInt8) × Option ℤ) :
    Except HexError (Option (List Char)) :=
  match row with
  | (none, _) => .ok none
  | (some binary, uc) =>
    let hexString := encodeHex (uc = some 1) binary
    if hexString.all isAsciiChar then .ok (some hexString) else .error .nonValidAsciiString

def encodeBinaryToHex (binaries : List (Option (List UInt8))) (useUppercase : List (Option ℤ)) :
    Except HexError (List (Option (List Char))) :=
  (binaries.zip useUppercase).mapM encodeHexRow

def caseArray (n : ℕ) : Option (Columnar (Option ℤ)) → List (Option ℤ)
  | none => List.replicate n (some 1)
  | some column => column.toArray

def hexEncode (input : HexInput) (case : Option (Columnar (Option ℤ))) :
    Except HexError (List (Option (List Char))) :=
  match input with
  | .strings column =>
    encodeBinaryToHex (column.toArray.map (Option.map asBytes))
      (caseArray column.toArray.length case)
  | .binaries column => encodeBinaryToHex column.toArray (caseArray column.toArray.length case)
  | .null column => .ok (List.replicate column.toArray.length none)
  | .other dataType =>
    .error (.unsupportedDataType "hex_encode" dataType "string or binary types")

inductive HexTextInput where
  | strings (column : Columnar (Option (List Char)))
  | null (column : Columnar Unit)
  | other (dataType : String)

def illegalHex (tryMode : Bool) (hexStr : List Char) : Except HexError (Option (List UInt8)) :=
  if tryMode then .ok none else .error (.illegalHexValue hexStr)

def decodeHexRow (tryMode : Bool) : Option (List Char) → Except HexError (Option (List UInt8))
  | none => .ok none
  | some hexStr =>
    if hexStr.isEmpty then .ok (some [])
    else
      match decodeHex hexStr with
      | some binary => if isUtf8 binary then .ok (some binary) else illegalHex tryMode hexStr
      | none => illegalHex tryMode hexStr

def hexDecodeName (tryMode : Bool) : String :=
  if tryMode then "try_hex_decode_binary" else "hex_decode_binary"

def hexDecodeBinary (tryMode : Bool) (input : HexTextInput) :
    Except HexError (List (Option (List UInt8))) :=
  match input with
  | .strings column => column.toArray.mapM (decodeHexRow tryMode)
  | .null column => .ok (List.replicate column.toArray.length none)
  | .other dataType => .error (.unsupportedDataType (hexDecodeName tryMode) dataType "string")

lemma encodeHexRow_eq (v : Option (List UInt8)) (uc : Option ℤ) :
    encodeHexRow (v, uc) = .ok (v.map (encodeHex (uc = some 1))) := by
  cases v with
  | none => rfl
  | some b => exact if_pos (isAscii_encodeHex _ b)

lemma decodeHexRow_encodeHex (tm u : Bool) (v : Option (List UInt8)) :
    decodeHexRow tm (v.map (encodeHex u)) = .ok v ↔ ∀ bn ∈ v, isUtf8 bn = true := by
  cases v with
  | none => exact iff_of_true rfl fun bn hb => (Option.not_mem_none bn hb).elim
  | some bn =>
    have hm : (∀ bn' ∈ some bn, isUtf8 bn' = true) ↔ isUtf8 bn = true :=
      ⟨fun h => h bn rfl, fun h _ hb => Option.some_inj.mp hb ▸ h⟩
    rw [hm, Option.map_some, decodeHexRow, decodeHex_encodeHex]
    cases bn with
    | nil => exact iff_of_true rfl rfl
    | cons b bs =>
      have he : (encodeHex u (b :: bs)).isEmpty = false := rfl
      rw [he, if_neg Bool.false_ne_true]
      dsimp only
      split
      case isTrue ht => exact iff_of_true rfl ht
      case isFalse ht =>
        refine iff_of_false (fun h => ?_) ht
        rw [illegalHex] at h
        split at h <;> cases h

def HexRoundTrip (values : List (Option (List UInt8))) (case : Option (Columnar (Option ℤ))) :
    Prop :=
  ∃ texts, hexEncode (.binaries (.array values)) case = .ok texts ∧ texts.length = values.length ∧
    ∀ tm, hexDecodeBinary tm (.strings (.array texts)) = .ok values

section Columns

variable {values vs : List (Option (List UInt8))} {case cs : Option (Columnar (Option ℤ))}

lemma hexEncode_binaries (vs : List (Option (List UInt8))) (cs : Option (Columnar (Option ℤ))) :
    hexEncode (.binaries (.array vs)) cs = .ok ((vs.zip (caseArray vs.length cs)).map fun r =>
        r.1.map (encodeHex (r.2 = some 1))) :=
  mapM_eq_ok_map fun r _ => encodeHexRow_eq r.1 r.2

lemma length_le_caseArray_iff (hc : ∀ c ∈ cs, c.HasRows vs.length) :
    vs.length ≤ (caseArray vs.length cs).length ↔ ∀ uc, cs = some (.scalar uc) → vs.length ≤ 1 := by
  cases cs with
  | none =>
    rw [caseArray, List.length_replicate]
    exact iff_of_true le_rfl fun uc hu => (Option.some_ne_none _ hu.symm).elim
  | some c =>
    cases c with
    | scalar uc => exact ⟨fun h _ _ => h, fun h => h uc rfl⟩
    | array u =>
      have hlen : u.length = vs.length := hc (.array u) rfl
      exact iff_of_true hlen.ge fun uc hu => by cases hu

lemma decode_encoded_iff (tm : Bool) {u : List (Option ℤ)} (hle : values.length ≤ u.length) :
    ((values.zip u).map fun r => r.1.map (encodeHex (r.2 = some 1))).mapM
        (decodeHexRow tm) = .ok values ↔ ∀ b, some b ∈ values → isUtf8 b = true := by
  have hv : (values.zip u).map Prod.fst = values := List.map_fst_zip hle
  have hrw : ((values.zip u).map fun r => r.1.map (encodeHex (r.2 = some 1))).mapM
      (decodeHexRow tm) = .ok ((values.zip u).map Prod.fst) ↔
        ∀ r ∈ values.zip u, decodeHexRow tm (r.1.map (encodeHex (r.2 = some 1))) = .ok r.1 :=
    mapM_map_eq_ok_map_iff
  rw [hv] at hrw
  rw [hrw]
  constructor
  · intro h b hb
    obtain ⟨r, hr, hfst⟩ := List.mem_map.mp (hv.symm ▸ hb)
    exact (decodeHexRow_encodeHex tm _ r.1).mp (h r hr) b hfst
  · intro h r hr
    refine (decodeHexRow_encodeHex tm _ r.1).mpr fun b hb => h b ?_
    exact hb ▸ (List.of_mem_zip hr).1

/-! ### Main result -/

/-- **A column is encoded and decoded back** exactly if its values are UTF-8 and the case argument
has its rows. -/
theorem hexRoundTrip_iff (hcase : ∀ column ∈ case, column.HasRows values.length) :
    HexRoundTrip values case ↔ (∀ uc, case = some (.scalar uc) → values.length ≤ 1) ∧
        ∀ binary, some binary ∈ values → isUtf8 binary = true := by
  have hlen : ((values.zip (caseArray values.length case)).map fun row =>
      row.1.map (encodeHex (row.2 = some 1))).length =
        min values.length (caseArray values.length case).length := by
    rw [List.length_map, List.length_zip]
  rw [← length_le_caseArray_iff hcase, HexRoundTrip, hexEncode_binaries]
  constructor
  · rintro ⟨texts, ht, hr, hd⟩
    rw [← Except.ok.inj ht, hlen] at hr
    have hle : values.length ≤ (caseArray values.length case).length := by omega
    refine ⟨hle, (decode_encoded_iff false hle).mp ?_⟩
    rw [Except.ok.inj ht]
    exact hd false
  · rintro ⟨hle, htex⟩
    refine ⟨_, rfl, hlen.trans (Nat.min_eq_left hle), fun tm => ?_⟩
    exact (decode_encoded_iff tm hle).mpr htex

end Columns

theorem hexRoundTrip_column :
    HexRoundTrip [some [74, 107], none, some []] (some (.array [some 0, some 1, none])) ∧
      hexEncode (.binaries (.array [some [74, 107], none, some []]))
        (some (.array [some 0, some 1, none])) = .ok [some "4a6b".toList, none, some []] := by
  have hc : ∀ column ∈ some (Columnar.array [some (0 : ℤ), some 1, none]),
      column.HasRows [some [(74 : UInt8), 107], none, some []].length := by
    rintro column ⟨⟩
    rfl
  refine ⟨(hexRoundTrip_iff hc).mpr ⟨fun uc hu => ?_, fun binary hb => ?_⟩, rfl⟩
  · cases hu
  · simp only [List.mem_cons, Option.some_inj, reduceCtorEq, List.not_mem_nil, or_false,
      false_or] at hb
    obtain rfl | rfl := hb <;> rfl

theorem hexRoundTrip_fails :
    ¬HexRoundTrip [some [1], some [2]] (some (.scalar (some 1))) ∧
      hexEncode (.binaries (.array [some [1], some [2]])) (some (.scalar (some 1))) =
        .ok [some "01".toList] ∧
      ¬HexRoundTrip [some [255]] none ∧
      hexEncode (.binaries (.array [some [255]])) none = .ok [some "FF".toList] ∧
      hexDecodeBinary false (.strings (.array [some "FF".toList])) =
        .error (.illegalHexValue "FF".toList) ∧
      hexDecodeBinary true (.strings (.array [some "FF".toList])) = .ok [none] := by
  refine ⟨?_, rfl, ?_, rfl, rfl, rfl⟩
  · rintro ⟨texts, ht, hr, -⟩
    rw [← Except.ok.inj ht] at hr
    exact absurd hr (Nat.succ_ne_succ_iff.mpr Nat.zero_ne_one)
  · rintro ⟨texts, ht, -, hd⟩
    rw [← Except.ok.inj ht] at hd
    have he := hd false
    cases he

end Rustice
