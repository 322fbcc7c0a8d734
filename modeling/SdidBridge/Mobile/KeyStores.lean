import SdidBridge.Keys.Signatures

/-!
# The signatures of the key stores

The key stores of the phones sign with DER signatures, and `SdidKeyStore.swift` and `SdidKeyStoreModule.kt` convert
them to `r || s`, each with a parser of its own. The three parsers of the repository answer the same bytes for every
DER signature (`converters_agree`).
-/

namespace SdidBridge.Mobile

open Attestation Codec Keys

/-- `coordinateLength`, `COORD_LENGTH`. -/
def COORD_LENGTH : ℕ := 32

/-! ## iOS -/

namespace Ios

/-- Why a function of the module has no value: it answers `nil`, or the process traps. -/
inductive Stop where
  | nil
  | trap

/-- `der[offset]`. -/
def byteAt (der : Bytes) (offset : ℕ) : Except Stop ℕ :=
  match der[offset]? with
  | some b => .ok b.toNat
  | none => .error .trap

/-- `derLengthSize`. -/
def derLengthSize (der : Bytes) (offset : ℕ) : Except Stop ℕ :=
  match der[offset]? with
  | none => .error .nil
  | some first => .ok (if first.toNat < 0x80 then 1 else 1 + (first.toNat &&& 0x7f))

/-- The loop of `derLengthValue`. An `Int` has 64 bits, and a shift drops those beyond. -/
def lengthOctets (der : Bytes) (offset : ℕ) (length : ℤ) : List ℕ → Except Stop ℤ
  | [] => .ok length
  | i :: is => do
    let b ← byteAt der (offset + i)
    lengthOctets der offset ((length * 256 + b).bmod (2 ^ 64)) is

/-- `derLengthValue`. The range `1...0` traps. -/
def derLengthValue (der : Bytes) (offset : ℕ) : Except Stop ℤ := do
  let first ← byteAt der offset
  if first < 0x80 then return first
  else if first &&& 0x7f = 0 then .error .trap
  else lengthOctets der offset 0 (List.range' 1 (first &&& 0x7f))

/-- `readDerInteger`. A sum that is no `Int` traps, and so does a range whose end is before its start. -/
def readDerInteger (der : Bytes) (offset : ℕ) : Except Stop (Bytes × ℕ) :=
  if der[offset]? ≠ some 0x02 then .error .nil
  else do
    let lengthSize ← derLengthSize der (offset + 1)
    let length ← derLengthValue der (offset + 1)
    let valueStart := offset + 1 + lengthSize
    if 2 ^ 63 ≤ valueStart + length then .error .trap
    else if (der.length : ℤ) < valueStart + length then .error .nil
    else if length < 0 then .error .trap
    else return ((der.drop valueStart).take length.toNat, 1 + lengthSize + length.toNat)

/-- `normalise`. A value that is too long traps. -/
def normalise (value : Bytes) : Except Stop Bytes :=
  let trimmed := if COORD_LENGTH < value.length ∧ value.head? = some 0 then value.drop 1 else value
  if trimmed.length = COORD_LENGTH then .ok trimmed
  else if COORD_LENGTH < trimmed.length then .error .trap
  else .ok (List.replicate (COORD_LENGTH - trimmed.length) 0 ++ trimmed)

/-- `derToRawRs`. -/
def derToRawRs (der : Bytes) : Except Stop Bytes :=
  if der.head? ≠ some 0x30 then .error .nil
  else do
    let seqLenSize ← derLengthSize der 1
    let offset := 1 + seqLenSize
    let (rValue, rConsumed) ← readDerInteger der offset
    let (sValue, _) ← readDerInteger der (offset + rConsumed)
    let r ← normalise rValue
    let s ← normalise sValue
    return r ++ s

end Ios

/-! ## Android -/

namespace Android

/-- The exceptions of the module's functions: those of a `require`, and those of the runtime. -/
inductive Failure where
  | illegalArgument (message : String)
  | runtime

/-- `der[offset].toInt() and 0xFF`. -/
def byteAt (der : Bytes) (offset : ℕ) : Except Failure ℕ :=
  match der[offset]? with
  | some b => .ok b.toNat
  | none => .error .runtime

/-- `require(der[offset] == tag) { message }`. -/
def requireTag (der : Bytes) (offset tag : ℕ) (message : String) : Except Failure Unit := do
  let b ← byteAt der offset
  if b = tag then return () else .error (.illegalArgument message)

/-- `derLengthSize`. -/
def derLengthSize (der : Bytes) (offset : ℕ) : Except Failure ℕ := do
  let first ← byteAt der offset
  return if first < 0x80 then 1 else 1 + (first &&& 0x7f)

/-- The loop of `derLengthValue`. An `Int` has 32 bits, and a shift drops those beyond. -/
def lengthOctets (der : Bytes) (offset : ℕ) (length : ℤ) : List ℕ → Except Failure ℤ
  | [] => .ok length
  | i :: is => do
    let b ← byteAt der (offset + i)
    lengthOctets der offset ((length * 256 + b).bmod (2 ^ 32)) is

/-- `derLengthValue`. -/
def derLengthValue (der : Bytes) (offset : ℕ) : Except Failure ℤ := do
  let first ← byteAt der offset
  if first < 0x80 then return first
  else lengthOctets der offset 0 (List.range' 1 (first &&& 0x7f))

/-- `der.copyOfRange(fromIndex, toIndex)`. -/
def copyOfRange (der : Bytes) (fromIndex : ℕ) (toIndex : ℤ) : Except Failure Bytes :=
  if (der.length : ℤ) < toIndex ∨ toIndex < fromIndex then .error .runtime
  else .ok ((der.drop fromIndex).take (toIndex.toNat - fromIndex))

/-- `readDerInteger`. -/
def readDerInteger (der : Bytes) (offset : ℕ) : Except Failure (Bytes × ℕ) := do
  requireTag der offset 0x02 "expected DER INTEGER"
  let lengthSize ← derLengthSize der (offset + 1)
  let length ← derLengthValue der (offset + 1)
  let valueStart := offset + 1 + lengthSize
  let value ← copyOfRange der valueStart ((valueStart + length).bmod (2 ^ 32))
  return (value, (1 + lengthSize + length).toNat)

/-- `toByteArray` of a `BigInteger` that is not negative. -/
def toByteArray (value : ℕ) : Bytes := signedBytes value

/-- `bigIntTo32Bytes`. A negative index of `arraycopy` throws. -/
def bigIntTo32Bytes (value : ℕ) : Except Failure Bytes :=
  let raw := toByteArray value
  let trimmed := if COORD_LENGTH < raw.length ∧ raw.head? = some 0 then raw.drop 1 else raw
  if trimmed.length = COORD_LENGTH then .ok trimmed
  else if COORD_LENGTH < trimmed.length then .error .runtime
  else .ok (List.replicate (COORD_LENGTH - trimmed.length) 0 ++ trimmed)

/-- `normaliseToLength`: `BigInteger(1, value)` is the number that the bytes are. -/
def normaliseToLength (value : Bytes) : Except Failure Bytes := bigIntTo32Bytes (beValue value)

/-- `derToRawRs`. -/
def derToRawRs (der : Bytes) : Except Failure Bytes := do
  requireTag der 0 0x30 "not a DER SEQUENCE"
  let seqLenSize ← derLengthSize der 1
  let offset := 1 + seqLenSize
  let r ← readDerInteger der offset
  let s ← readDerInteger der (offset + r.2)
  let rawR ← normaliseToLength r.1
  let rawS ← normaliseToLength s.1
  return rawR ++ rawS

end Android

/-! ## Coordinates -/

/-- A content that is longer than a coordinate by its sign is cut, and one that is shorter is padded. -/
theorem trimmed_signedBytes {n : ℕ} (h : n < 2 ^ 256) :
    ∃ trimmed, (if COORD_LENGTH < (signedBytes n).length ∧ (signedBytes n).head? = some 0 then (signedBytes n).drop 1
      else signedBytes n) = trimmed ∧ trimmed.length ≤ COORD_LENGTH ∧ beValue trimmed = n := by
  have hwidth := signedWidth_coordinate h
  by_cases hlong : signedWidth n = 32 + 1
  · obtain ⟨rest, hzero, hrest, hvalue⟩ := exists_zero_cons (w := 32) ((signedBytes_length n).trans hlong)
      (by rw [beValue_signedBytes]; exact h.trans_eq (by norm_num))
    rw [beValue_signedBytes] at hvalue
    refine ⟨rest, ?_, hrest.le, hvalue⟩
    rw [if_pos ⟨by rw [signedBytes_length, hlong]; exact Nat.lt_succ_self 32, by rw [hzero]; rfl⟩, hzero]
    rfl
  · have hshort : (signedBytes n).length ≤ COORD_LENGTH := by
      rw [signedBytes_length, COORD_LENGTH]
      omega
    exact ⟨signedBytes n, if_neg fun hcut => absurd hcut.1 (not_lt.mpr hshort), hshort, beValue_signedBytes n⟩

/-- What is padded to a coordinate is its 32 bytes. -/
theorem padded_eq {trimmed : Bytes} (h : trimmed.length ≤ COORD_LENGTH) :
    List.replicate (COORD_LENGTH - trimmed.length) 0 ++ trimmed = beBytes COORD_LENGTH (beValue trimmed) := leftPad_eq h

theorem Ios.normalise_signedBytes {n : ℕ} (h : n < 2 ^ 256) :
    Ios.normalise (signedBytes n) = .ok (beBytes COORD_LENGTH n) := by
  obtain ⟨trimmed, htrimmed, hlength, hvalue⟩ := trimmed_signedBytes h
  have hpadded := padded_eq hlength
  rw [hvalue] at hpadded
  unfold Ios.normalise
  dsimp only
  rw [htrimmed]
  split_ifs with hexact hlong
  · rw [← hpadded, hexact, Nat.sub_self]
    rfl
  · omega
  · rw [hpadded]

theorem Android.bigIntTo32Bytes_eq {n : ℕ} (h : n < 2 ^ 256) :
    Android.bigIntTo32Bytes n = .ok (beBytes COORD_LENGTH n) := by
  obtain ⟨trimmed, htrimmed, hlength, hvalue⟩ := trimmed_signedBytes h
  have hpadded := padded_eq hlength
  rw [hvalue] at hpadded
  unfold Android.bigIntTo32Bytes Android.toByteArray
  dsimp only
  rw [htrimmed]
  split_ifs with hexact hlong
  · rw [← hpadded, hexact, Nat.sub_self]
    rfl
  · omega
  · rw [hpadded]

/-! ## Integers -/

theorem except_ok_bind {ε α β : Type} (a : α) (f : α → Except ε β) : (Except.ok a >>= f) = f a := rfl

/-- A number that is an `Int` of the phone is itself. -/
theorem bmod_eq_self {n : ℕ} (h : n < 2 ^ 31) : (n : ℤ).bmod (2 ^ 32) = n := by
  have hhalf : (2 ^ 32 : ℕ) = 4294967296 := by norm_num
  rw [hhalf]
  exact Int.bmod_eq_of_le (by omega) (by omega)

section Integers

variable {der content : Bytes} {i : ℕ}

/-- An integer is read where it stands. -/
theorem Ios.readDerInteger_eq (h : IntegerAt der i content) (hsmall : der.length < 2 ^ 31) :
    Ios.readDerInteger der i = .ok (content, 2 + content.length) := by
  have hshort := h.short
  have hinside := h.inside
  have hsize : Ios.derLengthSize der (i + 1) = .ok 1 := by
    unfold Ios.derLengthSize
    rw [h.length]
    simp only [h.byte]
    rw [if_pos hshort]
  have hvalue : Ios.derLengthValue der (i + 1) = .ok (content.length : ℤ) := by
    unfold Ios.derLengthValue Ios.byteAt
    rw [h.length]
    simp only [bind, Except.bind, h.byte]
    rw [if_pos hshort]
    rfl
  unfold Ios.readDerInteger
  rw [if_neg (not_not.mpr h.tag), hsize]
  simp only [bind, Except.bind, hvalue]
  rw [if_neg (by omega), if_neg (by omega), if_neg (by omega), Int.toNat_natCast, h.slice]
  rfl

theorem Android.readDerInteger_eq (h : IntegerAt der i content) (hsmall : der.length < 2 ^ 31) :
    Android.readDerInteger der i = .ok (content, 2 + content.length) := by
  have hshort := h.short
  have hinside := h.inside
  have htag : Android.requireTag der i 0x02 "expected DER INTEGER" = .ok () := by
    unfold Android.requireTag Android.byteAt
    rw [h.tag]
    rfl
  have hsize : Android.derLengthSize der (i + 1) = .ok 1 := by
    unfold Android.derLengthSize Android.byteAt
    rw [h.length]
    simp only [bind, Except.bind, h.byte]
    rw [if_pos hshort]
    rfl
  have hvalue : Android.derLengthValue der (i + 1) = .ok (content.length : ℤ) := by
    unfold Android.derLengthValue Android.byteAt
    rw [h.length]
    simp only [bind, Except.bind, h.byte]
    rw [if_pos hshort]
    rfl
  -- The end of the value is an `Int`.
  have hend : (((i + 1 + 1 : ℕ) : ℤ) + content.length).bmod (2 ^ 32) = ((i + 2 + content.length : ℕ) : ℤ) := by
    have hsum : ((i + 1 + 1 : ℕ) : ℤ) + content.length = ((i + 2 + content.length : ℕ) : ℤ) := by omega
    rw [hsum, bmod_eq_self (by omega)]
  have hcopy : Android.copyOfRange der (i + 1 + 1) ((i + 2 + content.length : ℕ) : ℤ) = .ok content := by
    unfold Android.copyOfRange
    rw [if_neg (by omega), Int.toNat_natCast]
    have hcount : i + 2 + content.length - (i + 1 + 1) = content.length := by omega
    rw [hcount]
    exact congrArg Except.ok h.slice
  have hconsumed : (1 + ((1 : ℕ) : ℤ) + content.length).toNat = 2 + content.length := by omega
  unfold Android.readDerInteger
  rw [htag, except_ok_bind, hsize, except_ok_bind, hvalue, except_ok_bind]
  dsimp only
  rw [hend, hcopy, except_ok_bind, hconsumed]
  rfl

end Integers

/-! ## The three parsers -/

section Converters

variable {r s : ℕ}

theorem derSignature_small (hr : r < 2 ^ 256) (hs : s < 2 ^ 256) : (derSignature r s).length < 2 ^ 31 := by
  have hwr := signedWidth_coordinate hr
  have hws := signedWidth_coordinate hs
  rw [derSignature_length hr hs]
  omega

/-- Where the second integer is read. -/
theorem next_integer : 1 + 1 + (2 + (signedBytes r).length) = 4 + signedWidth r := by
  rw [signedBytes_length]
  omega

/-- The length of the sequence has the short form. -/
theorem sequence_short (hr : r < 2 ^ 256) (hs : s < 2 ^ 256) : signedWidth r + signedWidth s + 4 < 0x80 := by
  have hwr := signedWidth_coordinate hr
  have hws := signedWidth_coordinate hs
  omega

theorem Ios.derToRawRs_derSignature (hr : r < 2 ^ 256) (hs : s < 2 ^ 256) :
    Ios.derToRawRs (derSignature r s) = .ok (rawSignature r s) := by
  obtain ⟨hat, hbyte⟩ := derSignature_sequence hr hs
  have hsmall := derSignature_small hr hs
  have hhead : (derSignature r s).head? = some 0x30 := by
    rw [derSignature_eq hr hs]
    rfl
  have hsize : Ios.derLengthSize (derSignature r s) 1 = .ok 1 := by
    unfold Ios.derLengthSize
    rw [hat]
    simp only [hbyte]
    rw [if_pos (sequence_short hr hs)]
  have hfirst := Ios.readDerInteger_eq (derSignature_first hr hs) hsmall
  have hsecond := Ios.readDerInteger_eq (derSignature_second hr hs) hsmall
  unfold Ios.derToRawRs
  rw [if_neg (not_not.mpr hhead), hsize]
  simp only [bind, Except.bind, hfirst, next_integer, hsecond, Ios.normalise_signedBytes hr,
    Ios.normalise_signedBytes hs]
  rfl

theorem Android.derToRawRs_derSignature (hr : r < 2 ^ 256) (hs : s < 2 ^ 256) :
    Android.derToRawRs (derSignature r s) = .ok (rawSignature r s) := by
  obtain ⟨hat, hbyte⟩ := derSignature_sequence hr hs
  have hsmall := derSignature_small hr hs
  have htag : Android.requireTag (derSignature r s) 0 0x30 "not a DER SEQUENCE" = .ok () := by
    unfold Android.requireTag Android.byteAt
    rw [derSignature_head hr hs]
    rfl
  have hsize : Android.derLengthSize (derSignature r s) 1 = .ok 1 := by
    unfold Android.derLengthSize Android.byteAt
    rw [hat]
    simp only [bind, Except.bind, hbyte]
    rw [if_pos (sequence_short hr hs)]
    rfl
  have hfirst := Android.readDerInteger_eq (derSignature_first hr hs) hsmall
  have hsecond := Android.readDerInteger_eq (derSignature_second hr hs) hsmall
  unfold Android.derToRawRs Android.normaliseToLength
  simp only [bind, Except.bind, htag, hsize, hfirst, next_integer, hsecond, beValue_signedBytes,
    Android.bigIntTo32Bytes_eq hr, Android.bigIntTo32Bytes_eq hs]
  rfl

end Converters

/-- The three parsers convert every DER signature to the same bytes, each coordinate in 32 of them. -/
theorem converters_agree (r s : ℕ) (hr : 1 ≤ r ∧ r < 2 ^ 256) (hs : 1 ≤ s ∧ s < 2 ^ 256) :
    Ios.derToRawRs (derSignature r s) = .ok (rawSignature r s) ∧
    Android.derToRawRs (derSignature r s) = .ok (rawSignature r s) ∧
    derEcdsaToJoseSignature (derSignature r s) 32 = .ok (rawSignature r s) ∧
    (rawSignature r s).length = 64 :=
  ⟨Ios.derToRawRs_derSignature hr.2 hs.2, Android.derToRawRs_derSignature hr.2 hs.2,
    derEcdsaToJoseSignature_derSignature hr.2 hs.2, rawSignature_length⟩

theorem converters_agree_signByte :
    Ios.derToRawRs (derSignature (2 ^ 255) 1) = .ok (rawSignature (2 ^ 255) 1) ∧
    Android.derToRawRs (derSignature (2 ^ 255) 1) = .ok (rawSignature (2 ^ 255) 1) ∧
    derEcdsaToJoseSignature (derSignature (2 ^ 255) 1) 32 = .ok (rawSignature (2 ^ 255) 1) ∧
    (rawSignature (2 ^ 255) 1).length = 64 :=
  converters_agree (2 ^ 255) 1 (by norm_num) (by norm_num)

end SdidBridge.Mobile
