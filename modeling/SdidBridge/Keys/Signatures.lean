import SdidBridge.Attestation.KeyDescription
import SdidBridge.Codec.Signed

/-!
# The encodings of signatures

`key-custody.ts`: a backend answers a signature as DER or as `r || s`, and `normalizeEcdsaSignature` tells the two
apart by the length. A DER signature can have the length of the other encoding, and the shortest one has a length
that no DER signature is thought to have (`normalizeEcdsaSignature_iff`).
-/

namespace SdidBridge.Keys

open Codec Attestation

/-! ## The encodings -/

/-- The node of an `INTEGER` that is not negative. -/
def integerNode (n : ℕ) : DerNode := .mk .universal false DER_INTEGER (signedBytes n) []

/-- The node of `SEQUENCE { INTEGER r, INTEGER s }`. -/
def signatureNode (r s : ℕ) : DerNode :=
  .mk .universal true DER_SEQUENCE ([integerNode r, integerNode s].flatMap encodeDer) [integerNode r, integerNode s]

/-- The DER encoding of a signature. -/
def derSignature (r s : ℕ) : Bytes := encodeDer (signatureNode r s)

/-- The signature `r || s`. -/
def rawSignature (r s : ℕ) : Bytes := beBytes 32 r ++ beBytes 32 s

/-! ## The functions of the broker -/

/-- `SigningAlg`. -/
inductive SigningAlg where
  | ES256
  deriving DecidableEq

/-- The name of an algorithm. -/
def SigningAlg.text : SigningAlg → String
  | .ES256 => "ES256"

/-- `ALG_COORDINATE_BYTES`. -/
def ALG_COORDINATE_BYTES : SigningAlg → ℕ
  | .ES256 => 32

/-- `fail` of `derEcdsaToJoseSignature`. -/
def derFail {α : Type} (why : String) : Except String α := .error ("not a DER ECDSA signature: " ++ why)

/-- `der[i++] ?? fail(why)`. -/
def derByteAt (der : Bytes) (i : ℕ) (why : String) : Except String (ℕ × ℕ) :=
  match der[i]? with
  | some b => .ok (b.toNat, i + 1)
  | none => derFail why

/-- The length of the sequence, and where its content starts. -/
def readSequenceLength (der : Bytes) (i : ℕ) : Except String (ℕ × ℕ) := do
  let (seqLen, i) ← derByteAt der i "truncated length"
  if seqLen = 0x81 then derByteAt der i "truncated 0x81 length"
  else if seqLen = 0x82 then do
    let (hi, i) ← derByteAt der i "truncated 0x82 length"
    let (lo, i) ← derByteAt der i "truncated 0x82 length"
    return (hi <<< 8 ||| lo, i)
  else if 0x82 < seqLen then derFail "unsupported long-form length"
  else return (seqLen, i)

/-- `readInteger`: the content of the integer at `i`, and where it ends. -/
def readInteger (der : Bytes) (i : ℕ) : Except String (Bytes × ℕ) :=
  if der[i]? ≠ some 0x02 then derFail "missing INTEGER tag"
  else do
    let (len, i) ← derByteAt der (i + 1) "truncated INTEGER length"
    if len = 0 ∨ 0x7f < len then derFail "unsupported INTEGER length"
    else if der.length < i + len then derFail "INTEGER runs past the buffer"
    else return ((der.drop i).take len, i + len)

/-- Drop the zeros before a value, of which one byte is left. -/
def trimZeros : Bytes → Bytes
  | [] => []
  | [b] => [b]
  | b :: d :: bs => if b = 0x00 then trimZeros (d :: bs) else b :: d :: bs

/-- `pad`. -/
def padCoordinate (coordinateBytes : ℕ) (value : Bytes) : Except String Bytes :=
  let trimmed := trimZeros value
  if coordinateBytes < trimmed.length then
    .error s!"ECDSA coordinate is {trimmed.length} bytes, wider than the {coordinateBytes}-byte curve"
  else .ok (List.replicate (coordinateBytes - trimmed.length) 0 ++ trimmed)

/-- `derEcdsaToJoseSignature`. -/
def derEcdsaToJoseSignature (der : Bytes) (coordinateBytes : ℕ) : Except String Bytes :=
  if der[0]? ≠ some 0x30 then derFail "missing SEQUENCE tag"
  else do
    let (seqLen, i) ← readSequenceLength der 1
    if i + seqLen ≠ der.length then derFail "declared SEQUENCE length does not match the buffer"
    else do
      let (rValue, i) ← readInteger der i
      let r ← padCoordinate coordinateBytes rValue
      let (sValue, i) ← readInteger der i
      let s ← padCoordinate coordinateBytes sValue
      if i ≠ der.length then derFail "trailing bytes after s"
      else return r ++ s

/-- `normalizeEcdsaSignature`. -/
def normalizeEcdsaSignature (signature : Bytes) (alg : SigningAlg) : Except String Bytes :=
  let width := ALG_COORDINATE_BYTES alg
  if signature.length = width * 2 then .ok signature
  else if 8 < signature.length ∧ signature[0]? = some 0x30 then derEcdsaToJoseSignature signature width
  else .error
    s!"signature is {signature.length} bytes: neither raw r||s ({width * 2}) nor DER for {alg.text}"

/-! ## The bytes of an encoding -/

/-- The encoding of an integer of a coordinate: its tag, its length, and its content. -/
theorem encodeDer_integerNode {n : ℕ} (h : signedWidth n < 128) :
    encodeDer (integerNode n) = 0x02 :: UInt8.ofNat (signedWidth n) :: signedBytes n := by
  have hlength : encodeLength (signedBytes n).length = [UInt8.ofNat (signedWidth n)] := by
    rw [signedBytes_length, encodeLength, if_pos h]
  have hparts : encodeDer (integerNode n) =
      encodeIdentifier .universal false DER_INTEGER ++ encodeLength (signedBytes n).length ++ signedBytes n := rfl
  rw [hparts, hlength]
  rfl

/-- What the sequence of a signature holds. -/
def signatureContent (r s : ℕ) : Bytes :=
  0x02 :: UInt8.ofNat (signedWidth r) :: (signedBytes r ++ 0x02 :: UInt8.ofNat (signedWidth s) :: signedBytes s)

theorem signatureContent_length (r s : ℕ) :
    (signatureContent r s).length = signedWidth r + signedWidth s + 4 := by
  simp only [signatureContent, List.length_cons, List.length_append, signedBytes_length]
  omega

section Coordinates

variable {r s : ℕ}

/-- A coordinate takes 33 bytes at most. -/
theorem signedWidth_coordinate {n : ℕ} (h : n < 2 ^ 256) : signedWidth n ≤ 33 :=
  signedWidth_le (h.trans_eq (by norm_num))

/-- The encoding of a signature: the tag of the sequence, its length, and what it holds. -/
theorem derSignature_eq (hr : r < 2 ^ 256) (hs : s < 2 ^ 256) :
    derSignature r s = 0x30 :: UInt8.ofNat (signedWidth r + signedWidth s + 4) :: signatureContent r s := by
  have hwr := signedWidth_coordinate hr
  have hws := signedWidth_coordinate hs
  have hcontent : (signatureNode r s).content = signatureContent r s := by
    show [integerNode r, integerNode s].flatMap encodeDer = signatureContent r s
    rw [List.flatMap_cons, List.flatMap_cons, List.flatMap_nil, List.append_nil,
      encodeDer_integerNode (by omega), encodeDer_integerNode (by omega)]
    rfl
  have hparts : derSignature r s = encodeIdentifier .universal true DER_SEQUENCE ++
      encodeLength (signatureNode r s).content.length ++ (signatureNode r s).content := rfl
  rw [hparts, hcontent, signatureContent_length, encodeLength, if_pos (by omega)]
  rfl

/-- The length of a DER signature is that of its two contents, and six. -/
theorem derSignature_length (hr : r < 2 ^ 256) (hs : s < 2 ^ 256) :
    (derSignature r s).length = signedWidth r + signedWidth s + 6 := by
  rw [derSignature_eq hr hs, List.length_cons, List.length_cons, signatureContent_length]

@[simp] theorem rawSignature_length : (rawSignature r s).length = 64 := by simp [rawSignature]

/-! ## The conversion -/

theorem beValue_trimZeros (bs : Bytes) : beValue (trimZeros bs) = beValue bs := by
  fun_induction trimZeros bs with
  | case1 => rfl
  | case2 b => rfl
  | case3 d bs ih => rw [ih, beValue_cons 0x00, UInt8.toNat_zero, Nat.zero_mul, Nat.zero_add]
  | case4 b d bs hne => rfl

/-- What is left has no more bytes than the number has room in. -/
theorem trimZeros_length_le {bs : Bytes} {w : ℕ} (hw : w ≠ 0) (h : beValue bs < 256 ^ w) :
    (trimZeros bs).length ≤ w := by
  fun_induction trimZeros bs with
  | case1 => exact Nat.zero_le _
  | case2 b => exact Nat.pos_of_ne_zero hw
  | case3 d bs ih =>
    rw [beValue_cons, UInt8.toNat_zero, Nat.zero_mul, Nat.zero_add] at h
    exact ih h
  | case4 b d bs hne =>
    by_contra hlong
    have hb : 1 ≤ b.toNat := Nat.pos_of_ne_zero fun hzero => hne (UInt8.toNat_inj.mp hzero)
    have hpow : 256 ^ w ≤ 256 ^ (d :: bs).length := by
      refine Nat.pow_le_pow_right (by norm_num) ?_
      simp only [List.length_cons] at hlong ⊢
      omega
    have hvalue : 256 ^ (d :: bs).length ≤ beValue (b :: d :: bs) := by
      rw [beValue_cons]
      calc 256 ^ (d :: bs).length ≤ b.toNat * 256 ^ (d :: bs).length := Nat.le_mul_of_pos_left _ hb
        _ ≤ _ := Nat.le_add_right _ _
    omega

/-- A content is padded to the bytes of its number. -/
theorem padCoordinate_eq {bs : Bytes} (h : beValue bs < 2 ^ 256) :
    padCoordinate 32 bs = .ok (beBytes 32 (beValue bs)) := by
  have hlength : (trimZeros bs).length ≤ 32 := trimZeros_length_le (by norm_num) (h.trans_eq (by norm_num))
  unfold padCoordinate
  dsimp only
  rw [if_neg (by omega), leftPad_eq hlength, beValue_trimZeros]

/-- An integer stands at an index. -/
structure IntegerAt (der : Bytes) (i : ℕ) (content : Bytes) : Prop where
  tag : der[i]? = some 0x02
  length : der[i + 1]? = some (UInt8.ofNat content.length)
  slice : (der.drop (i + 2)).take content.length = content
  inside : i + 2 + content.length ≤ der.length
  /-- Its length has the short form. -/
  short : content.length < 128

theorem IntegerAt.byte {der content : Bytes} {i : ℕ} (h : IntegerAt der i content) :
    (UInt8.ofNat content.length).toNat = content.length := by
  have hshort := h.short
  rw [UInt8.toNat_ofNat']
  omega

theorem integerAt (before content after : Bytes) (hshort : content.length < 128) :
    IntegerAt (before ++ 0x02 :: UInt8.ofNat content.length :: (content ++ after)) before.length content where
  tag := by
    rw [List.getElem?_append_right (Nat.le_refl _), Nat.sub_self]
    rfl
  length := by
    rw [List.getElem?_append_right (by omega), Nat.add_sub_cancel_left]
    rfl
  slice := by
    rw [List.drop_append, List.drop_eq_nil_of_le (Nat.le_add_right _ _), List.nil_append, Nat.add_sub_cancel_left]
    exact List.take_left
  inside := by
    simp only [List.length_append, List.length_cons]
    omega
  short := hshort

/-- The first integer of a signature. -/
theorem derSignature_first (hr : r < 2 ^ 256) (hs : s < 2 ^ 256) :
    IntegerAt (derSignature r s) 2 (signedBytes r) := by
  have hwr := signedWidth_coordinate hr
  have hat := integerAt [0x30, UInt8.ofNat (signedWidth r + signedWidth s + 4)] (signedBytes r)
    (0x02 :: UInt8.ofNat (signedWidth s) :: signedBytes s) (by rw [signedBytes_length]; omega)
  rw [signedBytes_length] at hat
  rw [derSignature_eq hr hs]
  exact hat

/-- The second one. -/
theorem derSignature_second (hr : r < 2 ^ 256) (hs : s < 2 ^ 256) :
    IntegerAt (derSignature r s) (4 + signedWidth r) (signedBytes s) := by
  have hws := signedWidth_coordinate hs
  have hbefore : (0x30 :: UInt8.ofNat (signedWidth r + signedWidth s + 4) :: 0x02 ::
      UInt8.ofNat (signedWidth r) :: signedBytes r).length = 4 + signedWidth r := by
    simp only [List.length_cons, signedBytes_length]
    omega
  have hat := integerAt (0x30 :: UInt8.ofNat (signedWidth r + signedWidth s + 4) :: 0x02 ::
    UInt8.ofNat (signedWidth r) :: signedBytes r) (signedBytes s) [] (by rw [signedBytes_length]; omega)
  rw [hbefore, signedBytes_length, List.append_nil] at hat
  rw [derSignature_eq hr hs]
  exact hat

/-- An integer is read where it stands. -/
theorem readInteger_eq {der content : Bytes} {i : ℕ} (h : IntegerAt der i content) (hpos : content ≠ []) :
    readInteger der i = .ok (content, i + 2 + content.length) := by
  have hlen : 0 < content.length := List.length_pos_iff.mpr hpos
  have hshort := h.short
  have hinside := h.inside
  unfold readInteger derByteAt
  rw [if_neg (not_not.mpr h.tag), h.length]
  simp only [bind, Except.bind, h.byte]
  rw [if_neg (by omega), if_neg (by omega), h.slice]
  rfl

theorem signedBytes_ne_nil (n : ℕ) : signedBytes n ≠ [] := by
  intro hnil
  have hlength := signedBytes_length n
  have hpos := signedWidth_pos n
  rw [hnil, List.length_nil] at hlength
  omega

theorem derSignature_head (hr : r < 2 ^ 256) (hs : s < 2 ^ 256) : (derSignature r s)[0]? = some 0x30 := by
  rw [derSignature_eq hr hs]
  rfl

/-- The length of the sequence of a signature. -/
theorem derSignature_sequence (hr : r < 2 ^ 256) (hs : s < 2 ^ 256) :
    (derSignature r s)[1]? = some (UInt8.ofNat (signedWidth r + signedWidth s + 4)) ∧
      (UInt8.ofNat (signedWidth r + signedWidth s + 4)).toNat = signedWidth r + signedWidth s + 4 := by
  have hwr := signedWidth_coordinate hr
  have hws := signedWidth_coordinate hs
  rw [derSignature_eq hr hs, UInt8.toNat_ofNat']
  exact ⟨rfl, by omega⟩

/-- The conversion reads what was encoded. -/
theorem derEcdsaToJoseSignature_derSignature (hr : r < 2 ^ 256) (hs : s < 2 ^ 256) :
    derEcdsaToJoseSignature (derSignature r s) 32 = .ok (rawSignature r s) := by
  have hwr := signedWidth_coordinate hr
  have hws := signedWidth_coordinate hs
  have hlength : (derSignature r s).length = signedWidth r + signedWidth s + 6 := derSignature_length hr hs
  have hsequence : readSequenceLength (derSignature r s) 1 = .ok (signedWidth r + signedWidth s + 4, 2) := by
    obtain ⟨hat, hbyte⟩ := derSignature_sequence hr hs
    unfold readSequenceLength derByteAt
    simp only [hat, bind, Except.bind, hbyte]
    rw [if_neg (by omega), if_neg (by omega), if_neg (by omega)]
    rfl
  have hfirst := readInteger_eq (derSignature_first hr hs) (signedBytes_ne_nil r)
  have hsecond := readInteger_eq (derSignature_second hr hs) (signedBytes_ne_nil s)
  have hnext : 2 + 2 + signedWidth r = 4 + signedWidth r := by omega
  rw [signedBytes_length, hnext] at hfirst
  unfold derEcdsaToJoseSignature
  rw [if_neg (not_not.mpr (derSignature_head hr hs)), hsequence]
  simp only [bind, Except.bind, hfirst, hsecond]
  rw [if_neg (by omega), padCoordinate_eq (by rwa [beValue_signedBytes]),
    padCoordinate_eq (by rwa [beValue_signedBytes])]
  simp only [beValue_signedBytes, signedBytes_length]
  rw [if_neg (by omega)]
  rfl

/-- No DER signature is `r || s`: the second coordinate of one of that length starts with zeros, and in the DER
signature the tag of an integer stands there. -/
theorem derSignature_ne_rawSignature (hr : r < 2 ^ 256) (hs : s < 2 ^ 256) :
    derSignature r s ≠ rawSignature r s := by
  intro heq
  have hlength : signedWidth r + signedWidth s + 6 = 64 := by
    rw [← derSignature_length hr hs, heq, rawSignature_length]
  have hbytes : beBytes 32 r ++ beBytes 32 s =
      0x30 :: UInt8.ofNat (signedWidth r + signedWidth s + 4) :: signatureContent r s := by
    rw [← derSignature_eq hr hs, heq]
    rfl
  -- The first coordinate starts with the tag of the sequence, so that its width is known.
  have hwidth : signedWidth r = 32 := by
    obtain ⟨rest, hrest⟩ : ∃ rest, beBytes 32 r = 0x30 :: rest := by
      have hhead := congrArg List.head? hbytes
      cases hr₀ : beBytes 32 r with
      | nil =>
        have hnone := beBytes_length 32 r
        rw [hr₀] at hnone
        exact absurd hnone (by decide)
      | cons b rest =>
        rw [hr₀] at hhead
        obtain rfl : b = 0x30 := Option.some.inj hhead
        exact ⟨rest, rfl⟩
    have hrestLength : rest.length = 31 := by
      have hall := beBytes_length 32 r
      rw [hrest, List.length_cons] at hall
      omega
    have hvalue : r = 0x30 * 256 ^ 31 + beValue rest := by
      rw [← beValue_beBytes (hr.trans_eq (by norm_num) : r < 256 ^ 32), hrest, beValue_cons, hrestLength]
      rfl
    have hbound : beValue rest < 256 ^ 31 := hrestLength ▸ beValue_lt rest
    have hlow : ¬signedWidth r ≤ 31 := by
      intro hle
      have hlt := (lt_of_signedWidth r).trans_le (Nat.pow_le_pow_right (by norm_num) hle)
      omega
    have hhigh : ¬signedWidth r = 32 + 1 := by
      intro hw
      have hle := le_of_signedWidth hw (by norm_num)
      omega
    have hmost := signedWidth_coordinate hr
    omega
  -- The tag of the second integer stands where the second coordinate has a zero.
  have hsecond : beBytes 32 s = List.replicate 6 0 ++ signedBytes s := beBytes_eq_signedBytes (by omega)
  have hzero : (beBytes 32 r ++ beBytes 32 s)[36]? = some 0x00 := by
    rw [hsecond, List.getElem?_append_right (by rw [beBytes_length]; omega), beBytes_length]
    rfl
  have htag : (0x30 :: UInt8.ofNat (signedWidth r + signedWidth s + 4) :: signatureContent r s)[36]? = some 0x02 := by
    simp only [signatureContent, List.getElem?_cons_succ]
    rw [List.getElem?_append_right (by rw [signedBytes_length]; omega), signedBytes_length, hwidth]
    rfl
  rw [hbytes, htag] at hzero
  exact absurd hzero (by decide)

/-- A DER signature is converted exactly unless it has the length of a raw one, or only eight bytes. -/
theorem normalizeEcdsaSignature_der (hr : r < 2 ^ 256) (hs : s < 2 ^ 256) :
    normalizeEcdsaSignature (derSignature r s) .ES256 = .ok (rawSignature r s) ↔
      signedWidth r + signedWidth s ≠ 2 ∧ signedWidth r + signedWidth s ≠ 58 := by
  have hlength : (derSignature r s).length = signedWidth r + signedWidth s + 6 := derSignature_length hr hs
  have hwr := signedWidth_pos r
  have hws := signedWidth_pos s
  unfold normalizeEcdsaSignature
  simp only [ALG_COORDINATE_BYTES, derSignature_head hr hs, and_true]
  by_cases hraw : signedWidth r + signedWidth s = 58
  · rw [if_pos (by omega)]
    simp only [hraw, ne_eq, not_true_eq_false, and_false, iff_false, Except.ok.injEq]
    exact derSignature_ne_rawSignature hr hs
  rw [if_neg (by omega)]
  by_cases hshort : signedWidth r + signedWidth s = 2
  · rw [if_neg (by omega)]
    simp [hshort]
  · rw [if_pos (by omega), derEcdsaToJoseSignature_derSignature hr hs]
    exact iff_of_true rfl ⟨hshort, hraw⟩

end Coordinates

/-- A DER signature is normalised to `r || s`, and `r || s` to itself, exactly if the contents of the two integers of
the DER signature are not of two bytes together, nor of fifty-eight. -/
theorem normalizeEcdsaSignature_iff (r s : ℕ) (hr : 1 ≤ r ∧ r < 2 ^ 256) (hs : 1 ≤ s ∧ s < 2 ^ 256) :
    (normalizeEcdsaSignature (derSignature r s) .ES256 = .ok (rawSignature r s) ∧
      normalizeEcdsaSignature (rawSignature r s) .ES256 = .ok (rawSignature r s)) ↔
    signedWidth r + signedWidth s ≠ 2 ∧ signedWidth r + signedWidth s ≠ 58 := by
  have hraw : normalizeEcdsaSignature (rawSignature r s) .ES256 = .ok (rawSignature r s) := by
    unfold normalizeEcdsaSignature ALG_COORDINATE_BYTES
    simp only [rawSignature_length, Nat.reduceMul, if_true]
  rw [normalizeEcdsaSignature_der hr.2 hs.2]
  exact and_iff_left hraw

theorem normalizeEcdsaSignature_iff_short :
    normalizeEcdsaSignature (derSignature (2 ^ 7) 1) .ES256 = .ok (rawSignature (2 ^ 7) 1) := by
  have hwidth : signedWidth (2 ^ 7) = 2 ∧ signedWidth 1 = 1 := by
    unfold signedWidth
    rw [Nat.size_pow, Nat.size_one]
    exact ⟨rfl, rfl⟩
  refine ((normalizeEcdsaSignature_iff (2 ^ 7) 1 (by norm_num) (by norm_num)).mpr ?_).1
  rw [hwidth.1, hwidth.2]
  decide

/-- A DER signature of 64 bytes is returned as it is. -/
theorem normalizeEcdsaSignature_der_sixtyFour :
    ¬∀ r s, 1 ≤ r ∧ r < 2 ^ 256 → 1 ≤ s ∧ s < 2 ^ 256 →
      normalizeEcdsaSignature (derSignature r s) .ES256 = .ok (rawSignature r s) ∧
      normalizeEcdsaSignature (rawSignature r s) .ES256 = .ok (rawSignature r s) := by
  intro h
  obtain ⟨hder, -⟩ := h (2 ^ 255) (2 ^ 192) (by norm_num) (by norm_num)
  obtain ⟨-, hwidth⟩ := (normalizeEcdsaSignature_der (by norm_num) (by norm_num)).mp hder
  refine hwidth ?_
  unfold signedWidth
  rw [Nat.size_pow, Nat.size_pow]

end SdidBridge.Keys
