import SdidBridge.Attestation.Verifiers
import SdidBridge.Codec.View

/-!
# The authenticator's data in memory

`parseAuthenticatorData` as `app-attest.ts` runs it, on a view of a buffer: the slices are views of that buffer, and the
numbers are read through a second view of it. It answers slices that follow one another from the first byte to the last
(`authenticatorData_partition`), and on the bytes it is the parser that the verifier runs on
(`readAuthenticatorData_bytes`).
-/

namespace SdidBridge.Attestation

open Codec

abbrev RP_ID_HASH_LENGTH : ℕ := 32

abbrev AUTH_DATA_HEADER_LENGTH : ℕ := 37

abbrev AAGUID_LENGTH : ℕ := 16

def FLAG_AT : UInt8 := 0x40

/-- The parts of an authenticator's data, as views of its buffer. -/
structure AuthenticatorViews where
  rpIdHash : View
  flags : UInt8
  signCount : ℕ
  aaguid : View
  credentialId : View
  credentialPublicKey : Option View

/-- What `parseAuthenticatorData` throws: an error with a message, or the range error of a read. -/
inductive AuthDataError where
  | error (message : String)
  | rangeError
  deriving DecidableEq

/-- A read that throws outside of its view. -/
def reading {α : Type} (x : Option α) : Except AuthDataError α := x.elim (.error .rangeError) .ok

@[simp] theorem reading_some_bind {α β : Type} (a : α) (f : α → Except AuthDataError β) :
    (reading (some a) >>= f) = f a := rfl

/-- `parseAuthenticatorData`. -/
def readAuthenticatorData (bytes : View) : Except AuthDataError AuthenticatorViews :=
  if bytes.byteLength < AUTH_DATA_HEADER_LENGTH then .error (.error "authData is too short")
  else do
    let view ← reading (View.reopen bytes.buffer bytes.byteOffset bytes.byteLength)
    -- A missing byte would be `undefined`, whose bits are those of 0.
    let flags := (view.get? RP_ID_HASH_LENGTH).getD 0
    if flags &&& FLAG_AT = 0 then .error (.error "authData has no attested credential data")
    else
      let offset := AUTH_DATA_HEADER_LENGTH
      if bytes.byteLength < offset + AAGUID_LENGTH + 2 then .error (.error "authData is truncated")
      else do
        let aaguid := bytes.subarray offset (offset + AAGUID_LENGTH)
        let offset := offset + AAGUID_LENGTH
        let credentialIdLength ← reading (view.readBE 2 offset)
        let offset := offset + 2
        if credentialIdLength = 0 ∨ bytes.byteLength < offset + credentialIdLength then
          .error (.error "credentialId length is out of range")
        else do
          let credentialId := bytes.subarray offset (offset + credentialIdLength)
          let offset := offset + credentialIdLength
          let signCount ← reading (view.readBE 4 (RP_ID_HASH_LENGTH + 1))
          return {
            rpIdHash := bytes.subarray 0 RP_ID_HASH_LENGTH
            flags
            signCount
            aaguid
            credentialId
            credentialPublicKey :=
              if offset < bytes.byteLength then some (bytes.subarray offset bytes.byteLength) else none }

/-- The length that is declared for the credential's id. -/
def declaredLength (bytes : Bytes) : ℕ := beValue ((bytes.drop 53).take 2)

/-- The input is too short for what comes before the credential's id, lacks the flag of attested data, or declares a
credential's id that is empty or longer than the rest. -/
def Unparsable (bytes : Bytes) : Prop :=
  bytes.length < 55 ∨ bytes.getD 32 0 &&& FLAG_AT = 0 ∨ declaredLength bytes = 0 ∨
    bytes.length - 55 < declaredLength bytes

/-- The bytes of the parts in their order, with the numbers in big-endian bytes. -/
def AuthenticatorViews.content (d : AuthenticatorViews) : Bytes :=
  d.rpIdHash.bytes ++ [d.flags] ++ beBytes 4 d.signCount ++ d.aaguid.bytes ++
    beBytes 2 d.credentialId.bytes.length ++ d.credentialId.bytes ++ (d.credentialPublicKey.elim [] View.bytes)

/-- Every slice is in the bounds of the input and has the length that it is cut with, and every number fits its
bytes. -/
structure AuthenticatorViews.InBounds (d : AuthenticatorViews) (bytes : View) : Prop where
  rpIdHash : d.rpIdHash.Within bytes ∧ d.rpIdHash.byteLength = RP_ID_HASH_LENGTH
  aaguid : d.aaguid.Within bytes ∧ d.aaguid.byteLength = AAGUID_LENGTH
  credentialId : d.credentialId.Within bytes ∧ 0 < d.credentialId.byteLength ∧ d.credentialId.byteLength < 2 ^ 16
  signCount : d.signCount < 2 ^ 32
  credentialPublicKey : ∀ key ∈ d.credentialPublicKey, key.Within bytes ∧ 0 < key.byteLength

/-- The parts as the verifier has them. -/
def AuthenticatorViews.parts (d : AuthenticatorViews) : AuthenticatorData where
  rpIdHash := d.rpIdHash.bytes
  flags := d.flags
  signCount := d.signCount
  aaguid := d.aaguid.bytes
  credentialId := d.credentialId.bytes
  credentialPublicKey := d.credentialPublicKey.map View.bytes

variable {bytes : View}

/-- The parser over a view, with its reads done. -/
theorem readAuthenticatorData_eq (bytes : View) :
    readAuthenticatorData bytes =
      if bytes.byteLength < 37 then .error (.error "authData is too short")
      else if bytes.bytes.getD 32 0 &&& FLAG_AT = 0 then .error (.error "authData has no attested credential data")
      else if bytes.byteLength < 55 then .error (.error "authData is truncated")
      else if declaredLength bytes.bytes = 0 ∨ bytes.byteLength < 55 + declaredLength bytes.bytes then
        .error (.error "credentialId length is out of range")
      else .ok {
        rpIdHash := bytes.subarray 0 32
        flags := bytes.bytes.getD 32 0
        signCount := beValue ((bytes.bytes.drop 33).take 4)
        aaguid := bytes.subarray 37 53
        credentialId := bytes.subarray 55 (55 + declaredLength bytes.bytes)
        credentialPublicKey :=
          if 55 + declaredLength bytes.bytes < bytes.byteLength then
            some (bytes.subarray (55 + declaredLength bytes.bytes) bytes.byteLength)
          else none } := by
  have hflags : (bytes.get? RP_ID_HASH_LENGTH).getD 0 = bytes.bytes.getD 32 0 := by
    rw [View.get?_eq, List.getD_eq_getElem?_getD]
  unfold readAuthenticatorData
  rw [View.reopen_self, reading_some_bind, hflags]
  dsimp only
  by_cases hshort : bytes.byteLength < 37
  · rw [if_pos hshort, if_pos hshort]
  by_cases hflag : bytes.bytes.getD 32 0 &&& FLAG_AT = 0
  · rw [if_neg hshort, if_neg hshort, if_pos hflag, if_pos hflag]
  rw [if_neg hshort, if_neg hshort, if_neg hflag, if_neg hflag]
  show (if bytes.byteLength < 55 then _ else reading (bytes.readBE 2 53) >>= _) = _
  by_cases htruncated : bytes.byteLength < 55
  · rw [if_pos htruncated, if_pos htruncated]
  have hid : bytes.readBE 2 53 = some (declaredLength bytes.bytes) := View.readBE_eq (by omega)
  have hcount : bytes.readBE 4 33 = some (beValue ((bytes.bytes.drop 33).take 4)) := View.readBE_eq (by omega)
  rw [if_neg htruncated, if_neg htruncated, hid, reading_some_bind]
  show (if declaredLength bytes.bytes = 0 ∨ bytes.byteLength < 55 + declaredLength bytes.bytes then _
    else reading (bytes.readBE 4 33) >>= _) = _
  by_cases hrange : declaredLength bytes.bytes = 0 ∨ bytes.byteLength < 55 + declaredLength bytes.bytes
  · rw [if_pos hrange, if_pos hrange]
  · rw [if_neg hrange, if_neg hrange, hcount, reading_some_bind]
    rfl

theorem bigEndian_eq (bs : Bytes) : bigEndian bs = beValue bs := by
  unfold bigEndian beValue
  congr 1
  funext n b
  rw [Nat.mul_comm]

/-- On the bytes of its view it is the parser that the verifier runs on. A range error is never thrown. -/
theorem readAuthenticatorData_bytes (bytes : View) :
    (readAuthenticatorData bytes).map AuthenticatorViews.parts =
      (parseAuthenticatorData bytes.bytes).mapError AuthDataError.error := by
  rw [readAuthenticatorData_eq]
  unfold parseAuthenticatorData
  simp only [bigEndian_eq, View.bytes_length]
  show _ = Except.mapError _ (if bytes.byteLength < 37 then _ else if bytes.bytes.getD 32 0 &&& FLAG_AT = 0 then _
    else if bytes.byteLength < 55 then _
    else if declaredLength bytes.bytes = 0 ∨ bytes.byteLength < 55 + declaredLength bytes.bytes then _ else _)
  by_cases hshort : bytes.byteLength < 37
  · rw [if_pos hshort, if_pos hshort]
    rfl
  by_cases hflag : bytes.bytes.getD 32 0 &&& FLAG_AT = 0
  · rw [if_neg hshort, if_neg hshort, if_pos hflag, if_pos hflag]
    rfl
  by_cases htruncated : bytes.byteLength < 55
  · rw [if_neg hshort, if_neg hshort, if_neg hflag, if_neg hflag, if_pos htruncated, if_pos htruncated]
    rfl
  rw [if_neg hshort, if_neg hshort, if_neg hflag, if_neg hflag, if_neg htruncated, if_neg htruncated]
  by_cases hrange : declaredLength bytes.bytes = 0 ∨ bytes.byteLength < 55 + declaredLength bytes.bytes
  · rw [if_pos hrange, if_pos hrange]
    rfl
  rw [if_neg hrange, if_neg hrange]
  obtain ⟨hpos, hlong⟩ := not_or.mp hrange
  have hrest : (bytes.subarray (55 + declaredLength bytes.bytes) bytes.byteLength).bytes =
      bytes.bytes.drop (55 + declaredLength bytes.bytes) := by
    rw [View.bytes_subarray (by omega) (Nat.le_refl _), List.take_of_length_le]
    rw [List.length_drop, View.bytes_length]
  have hkey : (if 55 + declaredLength bytes.bytes < bytes.byteLength then
        some (bytes.subarray (55 + declaredLength bytes.bytes) bytes.byteLength)
      else none).map View.bytes =
      if bytes.bytes.drop (55 + declaredLength bytes.bytes) = [] then none
      else some (bytes.bytes.drop (55 + declaredLength bytes.bytes)) := by
    by_cases hend : 55 + declaredLength bytes.bytes < bytes.byteLength
    · have hne : bytes.bytes.drop (55 + declaredLength bytes.bytes) ≠ [] := by
        rw [ne_eq, List.drop_eq_nil_iff, View.bytes_length]
        omega
      rw [if_pos hend, if_neg hne, Option.map_some, hrest]
    · have hnil : bytes.bytes.drop (55 + declaredLength bytes.bytes) = [] := by
        rw [List.drop_eq_nil_iff, View.bytes_length]
        omega
      rw [if_neg hend, if_pos hnil, Option.map_none]
  show Except.ok _ = Except.ok _
  congr 1
  unfold AuthenticatorViews.parts
  rw [View.bytes_subarray (by omega) (by omega), View.bytes_subarray (by omega) (by omega),
    View.bytes_subarray (by omega) (by omega), Nat.add_sub_cancel_left, hkey]
  rfl

/-- An input is parsed unless it is unparsable. -/
theorem readAuthenticatorData_error_iff :
    (∃ error, readAuthenticatorData bytes = .error error) ↔ Unparsable bytes.bytes := by
  rw [readAuthenticatorData_eq]
  unfold Unparsable
  rw [View.bytes_length]
  split_ifs with hshort hflag htruncated hrange
  · exact iff_of_true ⟨_, rfl⟩ (.inl (by omega))
  · exact iff_of_true ⟨_, rfl⟩ (.inr (.inl hflag))
  · exact iff_of_true ⟨_, rfl⟩ (.inl htruncated)
  · refine iff_of_true ⟨_, rfl⟩ (.inr (.inr ?_))
    exact hrange.imp id fun hlong => by omega
  all_goals
    refine iff_of_false (fun ⟨error, herror⟩ => by cases herror) ?_
    rintro (h | h | h | h)
    · exact htruncated h
    · exact hflag h
    · exact hrange (.inl h)
    · exact hrange (.inr (by omega))

/-- What is parsed, and from what. -/
theorem readAuthenticatorData_eq_ok {d : AuthenticatorViews} (h : readAuthenticatorData bytes = .ok d) :
    55 + d.credentialId.byteLength ≤ bytes.byteLength ∧ 0 < d.credentialId.byteLength ∧
      bytes.readBE 2 53 = some d.credentialId.byteLength ∧ bytes.get? 32 = some d.flags ∧
        bytes.readBE 4 33 = some d.signCount ∧ d.rpIdHash = bytes.subarray 0 32 ∧ d.aaguid = bytes.subarray 37 53 ∧
          d.credentialId = bytes.subarray 55 (55 + d.credentialId.byteLength) ∧
            d.credentialPublicKey =
              if 55 + d.credentialId.byteLength < bytes.byteLength then
                some (bytes.subarray (55 + d.credentialId.byteLength) bytes.byteLength)
              else none := by
  rw [readAuthenticatorData_eq] at h
  split_ifs at h with hshort hflag htruncated hrange
  all_goals
    obtain ⟨hpos, hlong⟩ := not_or.mp hrange
    have hlength : (bytes.subarray 55 (55 + declaredLength bytes.bytes)).byteLength = declaredLength bytes.bytes := by
      rw [View.byteLength_subarray (by omega) (by omega)]
      omega
    have hid : bytes.readBE 2 53 = some (declaredLength bytes.bytes) := View.readBE_eq (by omega)
    have hflags : bytes.get? 32 = some (bytes.bytes.getD 32 0) := by
      have hlt : 32 < bytes.bytes.length := by
        rw [View.bytes_length]
        omega
      rw [View.get?_eq, List.getD_eq_getElem?_getD, List.getElem?_eq_getElem hlt]
      rfl
    obtain rfl := Except.ok.inj h
    dsimp only
    rw [hlength]
    refine ⟨by omega, by omega, hid, hflags, View.readBE_eq (by omega), rfl, rfl, rfl, ?_⟩
  · rename_i hkey
    rw [if_pos hkey]
  · rename_i hkey
    rw [if_neg hkey]

/-- The slice after the credential's id is the key, if there is one. -/
theorem bytes_credentialPublicKey {n : ℕ} (h : n ≤ bytes.byteLength) :
    (if n < bytes.byteLength then some (bytes.subarray n bytes.byteLength) else none).elim [] View.bytes =
      (bytes.subarray n bytes.byteLength).bytes := by
  split_ifs with hkey
  · rfl
  · have hempty : (bytes.subarray n bytes.byteLength).bytes.length = 0 := by
      rw [View.bytes_length, View.byteLength_subarray h (Nat.le_refl _)]
      omega
    exact (List.length_eq_zero_iff.mp hempty).symm

/-- **The authenticator's data is partitioned exactly.** What is parsed makes up the input, with every slice in its
bounds, and the parser throws exactly on an input that is too short, lacks the flag, or declares an id of a length that
is zero or beyond its end. -/
theorem authenticatorData_partition (bytes : View) :
    (∀ d, readAuthenticatorData bytes = .ok d → d.content = bytes.bytes ∧ d.InBounds bytes) ∧
      ((∃ error, readAuthenticatorData bytes = .error error) ↔ Unparsable bytes.bytes) := by
  refine ⟨fun d h => ?_, readAuthenticatorData_error_iff⟩
  obtain ⟨hend, hpos, hid, hflags, hcount, hhash, haaguid, hcredential, hkey⟩ := readAuthenticatorData_eq_ok h
  obtain ⟨hidBytes, hidLt⟩ := View.beBytes_of_readBE hid
  obtain ⟨hcountBytes, hcountLt⟩ := View.beBytes_of_readBE hcount
  constructor
  · have hflagBytes := View.bytes_subarray_one (by omega) hflags
    calc d.content
        = (bytes.subarray 0 32).bytes ++ (bytes.subarray 32 33).bytes ++ (bytes.subarray 33 37).bytes ++
            (bytes.subarray 37 53).bytes ++ (bytes.subarray 53 55).bytes ++ d.credentialId.bytes ++
              (d.credentialPublicKey.elim [] View.bytes) := by
          unfold AuthenticatorViews.content
          rw [View.bytes_length, hidBytes, hcountBytes, hflagBytes, hhash, haaguid]
      _ = (bytes.subarray 0 55).bytes ++ d.credentialId.bytes ++ (d.credentialPublicKey.elim [] View.bytes) := by
          rw [View.bytes_subarray_append (by omega) (by omega) (by omega),
            View.bytes_subarray_append (by omega) (by omega) (by omega),
            View.bytes_subarray_append (by omega) (by omega) (by omega),
            View.bytes_subarray_append (by omega) (by omega) (by omega)]
      _ = (bytes.subarray 0 bytes.byteLength).bytes := by
          rw [hkey, bytes_credentialPublicKey hend, hcredential, View.byteLength_subarray (by omega) hend,
            Nat.add_sub_cancel_left, View.bytes_subarray_append (by omega) (by omega) hend,
            View.bytes_subarray_append (by omega) hend (Nat.le_refl _)]
      _ = bytes.bytes := View.bytes_subarray_self bytes
  · have hlength : d.credentialId.byteLength < 2 ^ 16 := hidLt
    refine ⟨?_, ?_, ⟨?_, hpos, hlength⟩, hcountLt, fun key hmem => ?_⟩
    · rw [hhash]
      exact ⟨View.subarray_within (by omega) (by omega), View.byteLength_subarray (by omega) (by omega)⟩
    · rw [haaguid]
      exact ⟨View.subarray_within (by omega) (by omega), View.byteLength_subarray (by omega) (by omega)⟩
    · rw [hcredential]
      exact View.subarray_within (by omega) hend
    · rw [hkey] at hmem
      split_ifs at hmem with hrest
      · obtain rfl := Option.some.inj hmem
        refine ⟨View.subarray_within hend (Nat.le_refl _), ?_⟩
        rw [View.byteLength_subarray hend (Nat.le_refl _)]
        omega
      · cases hmem

end SdidBridge.Attestation
