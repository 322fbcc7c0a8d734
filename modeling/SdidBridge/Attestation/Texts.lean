import Mathlib.Data.Bool.AllAny
import SdidBridge.Attestation.Cbor
import SdidBridge.Broker.Enrolment
import SdidBridge.Codec.Base64

/-!
# Bytes and texts

The strict decoders of `common.ts`, and what `node:buffer` makes of bytes that need not be UTF-8. A text is
accepted by a strict decoder if and only if it is the encoding of some bytes, and decodes to these
(`decodeBase64Strict_eq_ok`, `decodeBase64UrlStrict_eq_ok`).
-/

namespace SdidBridge.Attestation

open Codec

/-! ## UTF-8 that may be broken -/

/-- A character of several bytes that is begun: the bounds of the next byte, how many bytes follow it, and the
bits so far. -/
structure BegunChar where
  lower : ℕ
  upper : ℕ
  lacking : ℕ
  bits : ℕ

/-- What stands for bytes that are no character. -/
def REPLACEMENT : Char := '\uFFFD'

/-- The character of a first byte, or the character that it begins. -/
def beginChar (b : UInt8) : List Char × Option BegunChar :=
  let n := b.toNat
  if n ≤ 0x7f then ([Char.ofNat n], none)
  else if 0xc2 ≤ n ∧ n ≤ 0xdf then ([], some ⟨0x80, 0xbf, 0, n - 0xc0⟩)
  else if n = 0xe0 then ([], some ⟨0xa0, 0xbf, 1, 0⟩)
  else if n = 0xed then ([], some ⟨0x80, 0x9f, 1, 0xd⟩)
  else if 0xe1 ≤ n ∧ n ≤ 0xef then ([], some ⟨0x80, 0xbf, 1, n - 0xe0⟩)
  else if n = 0xf0 then ([], some ⟨0x90, 0xbf, 2, 0⟩)
  else if 0xf1 ≤ n ∧ n ≤ 0xf3 then ([], some ⟨0x80, 0xbf, 2, n - 0xf0⟩)
  else if n = 0xf4 then ([], some ⟨0x80, 0x8f, 2, 4⟩)
  else ([REPLACEMENT], none)

/-- A byte after the bytes of a begun character. One that does not go on with it begins anew. -/
def continueChar (begun : BegunChar) (b : UInt8) : List Char × Option BegunChar :=
  let bits := begun.bits * 64 + b.toNat % 64
  if begun.lower ≤ b.toNat ∧ b.toNat ≤ begun.upper then
    match begun.lacking with
    | 0 => ([Char.ofNat bits], none)
    | lacking + 1 => ([], some ⟨0x80, 0xbf, lacking, bits⟩)
  else
    let (cs, begun') := beginChar b
    (REPLACEMENT :: cs, begun')

/-- The characters of bytes after those of a begun character. -/
def decodeChars : Option BegunChar → Bytes → List Char
  | none, [] => []
  | some _, [] => [REPLACEMENT]
  | none, b :: bs =>
    let (cs, begun) := beginChar b
    cs ++ decodeChars begun bs
  | some begun, b :: bs =>
    let (cs, begun') := continueChar begun b
    cs ++ decodeChars begun' bs

/-- `buffer.toString('utf8')`. -/
def bufferToString (bs : Bytes) : String := String.ofList (decodeChars none bs)

/-! ## Base64 -/

/-- The characters of standard base64. -/
def base64 : Alphabet where
  symbols := "ABCDEFGHIJKLMNOPQRSTUVWXYZabcdefghijklmnopqrstuvwxyz0123456789+/".toList
  size := by decide
  nodup := by decide

/-- The characters of base64 in URLs. -/
def base64Url : Alphabet where
  symbols := "ABCDEFGHIJKLMNOPQRSTUVWXYZabcdefghijklmnopqrstuvwxyz0123456789-_".toList
  size := by decide
  nodup := by decide

/-- The padding after the characters of `n` bytes. -/
def padding (n : ℕ) : List Char :=
  if n % 3 = 0 then [] else if n % 3 = 1 then ['=', '='] else ['=']

/-- `buffer.toString('base64')`. -/
def toBase64 (bs : Bytes) : String := String.ofList (base64.encode bs ++ padding bs.length)

/-- `buffer.toString('base64url')`. -/
def toBase64Url (bs : Bytes) : String := String.ofList (base64Url.encode bs)

/-- The characters of a text before its padding. -/
def beforePadding (s : String) : List Char := s.toList.takeWhile (· ∈ base64.symbols)

/-- `BASE64_RE`. -/
def isBase64 (s : String) : Bool :=
  decide (beforePadding s ≠ [] ∧ s.toList.drop (beforePadding s).length ∈ [[], ['='], ['=', '=']])

/-- `BASE64URL_RE`. -/
def isBase64Url (s : String) : Bool := decide (s.toList ≠ []) && s.toList.all (base64Url.symbols.contains ·)

/-- `decodeBase64Strict`. -/
def decodeBase64Strict (input : String) (what : String) : Except String Bytes :=
  if utf16Length input = 0 ∨ utf16Length input % 4 ≠ 0 ∨ isBase64 input = false then
    .error (what ++ ": not strict base64")
  else
    let decoded := base64.decode (beforePadding input)
    if toBase64 decoded ≠ input then .error (what ++ ": non-canonical base64") else .ok decoded

/-- `decodeBase64UrlStrict`. -/
def decodeBase64UrlStrict (input : String) (what : String) : Except String Bytes :=
  if utf16Length input = 0 ∨ utf16Length input % 4 = 1 ∨ isBase64Url input = false then
    .error (what ++ ": not strict base64url")
  else
    let decoded := base64Url.decode input.toList
    if toBase64Url decoded ≠ input then .error (what ++ ": non-canonical base64url") else .ok decoded

/-! ## What the strict decoders accept -/

/-- A text without characters beyond ASCII is as long as it has characters. -/
theorem utf16Length_ofList {cs : List Char} (h : ∀ c ∈ cs, c.toNat < 0x10000) :
    utf16Length (String.ofList cs) = cs.length := by
  unfold utf16Length
  rw [String.toList_ofList, List.map_congr_left (g := fun _ => 1) fun c hc => if_pos (h c hc)]
  simp

theorem base64_symbols_lt : ∀ c ∈ base64.symbols, c.toNat < 0x10000 := List.all_iff_forall_prop.mp (by decide)

theorem base64Url_symbols_lt : ∀ c ∈ base64Url.symbols, c.toNat < 0x10000 := List.all_iff_forall_prop.mp (by decide)

/-- There is no character but the equals sign in a padding. -/
theorem eq_of_mem_padding {n : ℕ} {c : Char} (h : c ∈ padding n) : c = '=' := by
  unfold padding at h
  split_ifs at h <;> simp_all

theorem padding_mem (n : ℕ) : padding n ∈ [[], ['='], ['=', '=']] := by
  unfold padding
  split_ifs <;> simp

theorem padding_length (n : ℕ) : (padding n).length = if n % 3 = 0 then 0 else 3 - n % 3 := by
  have hlt : n % 3 < 3 := Nat.mod_lt _ (by decide)
  unfold padding
  split_ifs with hzero hone
  · rfl
  · simp [hone]
  · have htwo : n % 3 = 2 := by omega
    simp [htwo]

/-- What bytes are encoded to, up to the padding. -/
theorem beforePadding_toBase64 (bs : Bytes) : beforePadding (toBase64 bs) = base64.encode bs := by
  have hsymbols : ∀ c ∈ base64.encode bs, decide (c ∈ base64.symbols) = true := fun c hc =>
    decide_eq_true (Alphabet.encode_mem c hc)
  have hnone : (padding bs.length).takeWhile (fun c => decide (c ∈ base64.symbols)) = [] := by
    have hequals : '=' ∉ base64.symbols := by decide
    cases hpad : padding bs.length with
    | nil => rfl
    | cons c cs =>
      have hc : c = '=' := eq_of_mem_padding (n := bs.length) (by rw [hpad]; exact List.mem_cons_self)
      rw [hc, List.takeWhile_cons_of_neg (by simpa using hequals)]
  unfold beforePadding toBase64
  rw [String.toList_ofList, List.takeWhile_append_of_pos hsymbols, hnone, List.append_nil]

/-- Base64 has four characters for three bytes or less. -/
theorem utf16Length_toBase64 (bs : Bytes) : utf16Length (toBase64 bs) = (bs.length + 2) / 3 * 4 := by
  have hascii : ∀ c ∈ base64.encode bs ++ padding bs.length, c.toNat < 0x10000 := by
    intro c hc
    rcases List.mem_append.mp hc with hc | hc
    · exact base64_symbols_lt c (Alphabet.encode_mem c hc)
    · rw [eq_of_mem_padding hc]
      decide
  have hmod : bs.length % 3 < 3 := Nat.mod_lt _ (by decide)
  unfold toBase64
  rw [utf16Length_ofList hascii, List.length_append, Alphabet.encode_length, padding_length]
  split_ifs <;> omega

theorem encode_ne_nil {A : Alphabet} {bs : Bytes} (h : bs ≠ []) : A.encode bs ≠ [] := by
  have hpos : 0 < bs.length := List.length_pos_iff.mpr h
  have hlength := A.encode_length bs
  intro hnil
  rw [hnil, List.length_nil] at hlength
  split_ifs at hlength
  omega

theorem isBase64_toBase64 {bs : Bytes} (h : bs ≠ []) : isBase64 (toBase64 bs) = true := by
  unfold isBase64
  rw [decide_eq_true_iff, beforePadding_toBase64]
  refine ⟨encode_ne_nil h, ?_⟩
  have hrest : (toBase64 bs).toList.drop (base64.encode bs).length = padding bs.length := by
    unfold toBase64
    rw [String.toList_ofList, List.drop_left]
  rw [hrest]
  exact padding_mem _

/-- A text is strict base64 exactly when it is the encoding of some bytes, and it decodes to these. -/
theorem decodeBase64Strict_eq_ok {input what : String} {bs : Bytes} :
    decodeBase64Strict input what = .ok bs ↔ bs ≠ [] ∧ input = toBase64 bs := by
  unfold decodeBase64Strict
  constructor
  · intro h
    dsimp only at h
    split_ifs at h with hshape hcanonical
    obtain ⟨hlength, -⟩ := not_or.mp hshape
    have hsame : input = toBase64 bs := by
      rw [not_not] at hcanonical
      obtain rfl := Except.ok.inj h
      exact hcanonical.symm
    refine ⟨?_, hsame⟩
    rintro rfl
    exact hlength (by rw [hsame]; rfl)
  · rintro ⟨hne, rfl⟩
    have hpos : 0 < bs.length := List.length_pos_iff.mpr hne
    have hlength := utf16Length_toBase64 bs
    have hstrict : ¬(utf16Length (toBase64 bs) = 0 ∨ utf16Length (toBase64 bs) % 4 ≠ 0 ∨
        isBase64 (toBase64 bs) = false) := by
      rintro (hzero | hmod | hshape)
      · omega
      · omega
      · exact absurd ((isBase64_toBase64 hne).symm.trans hshape) (by decide)
    have hdecoded : base64.decode (beforePadding (toBase64 bs)) = bs := by
      rw [beforePadding_toBase64, Alphabet.decode_encode]
    rw [if_neg hstrict]
    simp only [hdecoded, ne_eq, not_true_eq_false, if_false]

theorem utf16Length_toBase64Url (bs : Bytes) : utf16Length (toBase64Url bs) = (base64Url.encode bs).length :=
  utf16Length_ofList fun c hc => base64Url_symbols_lt c (Alphabet.encode_mem c hc)

theorem isBase64Url_toBase64Url {bs : Bytes} (h : bs ≠ []) : isBase64Url (toBase64Url bs) = true := by
  unfold isBase64Url toBase64Url
  rw [String.toList_ofList, Bool.and_eq_true, decide_eq_true_iff, List.all_eq_true]
  exact ⟨encode_ne_nil h, fun c hc => List.contains_iff_mem.mpr (Alphabet.encode_mem c hc)⟩

/-- A text is strict base64 for URLs exactly when it is the encoding of some bytes, and it decodes to these. -/
theorem decodeBase64UrlStrict_eq_ok {input what : String} {bs : Bytes} :
    decodeBase64UrlStrict input what = .ok bs ↔ bs ≠ [] ∧ input = toBase64Url bs := by
  unfold decodeBase64UrlStrict
  constructor
  · intro h
    dsimp only at h
    split_ifs at h with hshape hcanonical
    obtain ⟨hlength, -⟩ := not_or.mp hshape
    have hsame : input = toBase64Url bs := by
      rw [not_not] at hcanonical
      obtain rfl := Except.ok.inj h
      exact hcanonical.symm
    refine ⟨?_, hsame⟩
    rintro rfl
    exact hlength (by rw [hsame]; rfl)
  · rintro ⟨hne, rfl⟩
    have hpos : 0 < bs.length := List.length_pos_iff.mpr hne
    have hlength := base64Url.encode_length bs
    have hstrict : ¬(utf16Length (toBase64Url bs) = 0 ∨ utf16Length (toBase64Url bs) % 4 = 1 ∨
        isBase64Url (toBase64Url bs) = false) := by
      rw [utf16Length_toBase64Url, hlength]
      rintro (hzero | hmod | hshape)
      · split_ifs at hzero
        omega
      · split_ifs at hmod <;> omega
      · exact absurd ((isBase64Url_toBase64Url hne).symm.trans hshape) (by decide)
    have hdecoded : base64Url.decode (toBase64Url bs).toList = bs := by
      unfold toBase64Url
      rw [String.toList_ofList, Alphabet.decode_encode]
    rw [if_neg hstrict]
    simp only [hdecoded, ne_eq, not_true_eq_false, if_false]

end SdidBridge.Attestation
