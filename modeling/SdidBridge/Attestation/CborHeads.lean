import Mathlib.Tactic.IntervalCases
import Mathlib.Tactic.NormNum
import SdidBridge.Attestation.Cbor

/-!
# Text, heads and counts of the CBOR decoder

What the text decoder, `argument` and `countArgument` accept. A head byte and what follows it are the
shortest form of the argument that is read from them (`Follows`), and every argument of 64 bits is read
from its shortest form.
-/

namespace SdidBridge.Attestation

open Codec

/-! ## Text -/

theorem ofUtf8 (s : String) : (⟨(utf8 s).toArray⟩ : ByteArray) = s.toUTF8 := by
  simp [utf8]

/-- The bytes of a text are read as the decoder reads the text. -/
theorem decode_utf8 (d : TextDecoder) (s : String) : d.decode (utf8 s) = some (d.reading s) := by
  unfold TextDecoder.decode
  have hvalid : s.toUTF8.IsValidUTF8 := s.isValidUTF8
  rw [ofUtf8, String.fromUTF8?, dif_pos hvalid]
  rfl

/-- What is read is the bytes of some text. -/
theorem exists_of_decode {d : TextDecoder} {raw : Bytes} {t : String} (h : d.decode raw = some t) :
    ∃ s, raw = utf8 s ∧ t = d.reading s := by
  unfold TextDecoder.decode String.fromUTF8? at h
  split_ifs at h with hvalid
  · simp only [Option.map_some, Option.some.injEq] at h
    refine ⟨String.fromUTF8 ⟨raw.toArray⟩ hvalid, ?_, h.symm⟩
    simp [utf8, String.fromUTF8]
  · simp at h

/-! ## Heads -/

theorem head_major (major ai : ℕ) (hmajor : major < 8) (hai : ai < 32) :
    (UInt8.ofNat (major * 32 + ai)).toNat >>> 5 = major := by
  rw [Nat.shiftRight_eq_div_pow, UInt8.toNat_ofNat']
  omega

theorem head_ai (major ai : ℕ) (hai : ai < 32) :
    (UInt8.ofNat (major * 32 + ai)).toNat &&& 0x1f = ai := by
  rw [Nat.and_two_pow_sub_one_eq_mod _ 5, UInt8.toNat_ofNat']
  omega

theorem head_parts (b : UInt8) :
    b = UInt8.ofNat (b.toNat >>> 5 * 32 + (b.toNat &&& 0x1f)) ∧ b.toNat >>> 5 < 8 ∧
      b.toNat &&& 0x1f < 32 := by
  have hb : b.toNat < 256 := b.toNat_lt
  rw [Nat.shiftRight_eq_div_pow, Nat.and_two_pow_sub_one_eq_mod _ 5]
  refine ⟨?_, by omega, by omega⟩
  apply UInt8.toNat_inj.mp
  rw [UInt8.toNat_ofNat']
  omega

/-- The number that an argument has: none above the safe integers. -/
def safeValue (n : ℕ) : Option ℕ := if n ≤ MAX_SAFE_INTEGER then some n else none

/-- `raw` is what follows the head byte in the shortest form of the argument `n`, with the additional
information `ai`. -/
def Follows (ai n : ℕ) (raw : Bytes) : Prop :=
  ai < 32 ∧ n < 2 ^ 64 ∧ ∀ major, shortestHead major n = UInt8.ofNat (major * 32 + ai) :: raw

/-- `raw` is the argument `n` in the width of the additional information `ai`, and no less would do. -/
structure Wide (ai n : ℕ) (raw : Bytes) : Prop where
  low : 24 ≤ ai
  high : ai ≤ 27
  length : raw.length = 1 <<< (ai - 24)
  value : beValue raw = n
  minimum : (if ai = 24 then 24 else 1 <<< (8 * ((1 <<< (ai - 24)) >>> 1))) ≤ n

theorem Wide.follows {ai n : ℕ} {raw : Bytes} (h : Wide ai n raw) : Follows ai n raw := by
  obtain ⟨hlow, hhigh, hlen, hn, hmin⟩ := h
  have hlt := beValue_lt raw
  have hraw := beBytes_beValue raw
  rw [hlen, hn] at hlt hraw
  unfold Follows shortestHead
  interval_cases ai
  all_goals
    simp only [Nat.shiftLeft_eq, Nat.shiftRight_eq_div_pow] at hlt hraw hmin
    norm_num at hlt hraw hmin
    refine ⟨by norm_num, by omega, ?_⟩
    intro major
    norm_num
    rw [hraw]
    split_ifs <;> first | rfl | omega

/-- Every argument of 64 bits that is no additional information of its own has a width. -/
theorem exists_wide {n : ℕ} (hlow : 24 ≤ n) (hn : n < 2 ^ 64) : ∃ ai raw, Wide ai n raw := by
  by_cases h1 : n < 256
  · exact ⟨24, beBytes 1 n, by norm_num, by norm_num, by simp, beValue_beBytes (by omega), hlow⟩
  by_cases h2 : n < 256 ^ 2
  · exact ⟨25, beBytes 2 n, by norm_num, by norm_num, by simp, beValue_beBytes h2, by norm_num; omega⟩
  by_cases h4 : n < 256 ^ 4
  · exact ⟨26, beBytes 4 n, by norm_num, by norm_num, by simp, beValue_beBytes h4,
      by norm_num [Nat.shiftLeft_eq, Nat.shiftRight_eq_div_pow]; omega⟩
  · exact ⟨27, beBytes 8 n, by norm_num, by norm_num, by simp, beValue_beBytes (by omega),
      by norm_num [Nat.shiftLeft_eq, Nat.shiftRight_eq_div_pow]; omega⟩

/-- What an argument that is read followed its head byte. -/
theorem argument_sound {ai : ℕ} {c c' : Cursor} {arg : Argument} (hc : c.Inside) (hai : ai < 32)
    (h : argument ai c = .ok (arg, c')) :
    ∃ raw, Follows ai arg.big raw ∧ arg.value = safeValue arg.big ∧ c.rest = raw ++ c'.rest ∧
      c' = c.skip raw.length := by
  unfold argument at h
  by_cases hlow : ai < 24
  · rw [if_pos hlow] at h
    obtain ⟨rfl, rfl⟩ := Reader.pure_eq_ok.mp h
    dsimp only
    refine ⟨[], ⟨hai, by omega, ?_⟩, ?_, rfl, rfl⟩
    · intro major
      unfold shortestHead
      rw [if_pos hlow]
    · unfold safeValue MAX_SAFE_INTEGER
      rw [if_pos (by omega)]
  · rw [if_neg hlow] at h
    simp only [Reader.bind_eq_ok, Reader.require_eq_ok, Reader.pure_eq_ok, cborBytes] at h
    obtain ⟨-, c₁, ⟨hne, h₁⟩, -, c₂, ⟨hhigh, h₂⟩, raw, c₃, h₃, -, c₄, ⟨hmin, h₄⟩, rfl, h₅⟩ := h
    subst h₁ h₂ h₄ h₅
    obtain ⟨hleft, hraw, rfl⟩ := (Reader.bytes_eq_ok hc).mp h₃
    have hlen : raw.length = 1 <<< (ai - 24) := by
      rw [hraw, List.length_take, Cursor.rest_length]
      omega
    refine ⟨raw, ?_, rfl, ?_, ?_⟩
    · exact Wide.follows ⟨by omega, hhigh, hlen, (foldl_shiftLeft_or raw).symm, hmin⟩
    · rw [Cursor.skip_rest, hraw, List.take_append_drop]
    · rw [hlen]

theorem Wide.argument {ai n : ℕ} {raw r : Bytes} (h : Wide ai n raw) {c : Cursor} (hc : c.Inside)
    (hrest : c.rest = raw ++ r) :
    argument ai c = .ok (⟨safeValue n, n⟩, c.skip raw.length) := by
  have hread : cborBytes (1 <<< (ai - 24)) c = .ok (raw, c.skip raw.length) := by
    have hleft := c.rest_length
    rw [hrest, List.length_append] at hleft
    rw [← h.length]
    refine (Reader.bytes_eq_ok hc).mpr ⟨by omega, ?_, rfl⟩
    rw [hrest, List.take_left]
  have hlow := h.low
  have hhigh := h.high
  have hfold : raw.foldl (fun big b => big <<< 8 ||| b.toNat) 0 = n := by
    rw [foldl_shiftLeft_or, h.value]
  unfold Attestation.argument
  rw [if_neg (by omega)]
  simp only [Reader.bind_eq_ok, Reader.require_eq_ok, Reader.pure_eq_ok]
  refine ⟨(), c, ⟨?_, rfl⟩, (), c, ⟨hhigh, rfl⟩, raw, c.skip raw.length, hread, (), _, ⟨?_, rfl⟩, ?_, rfl⟩
  · unfold AI_INDEFINITE
    omega
  · rw [hfold]
    exact h.minimum
  · rw [hfold]
    rfl

/-- Every argument of 64 bits is read after the head byte of its shortest form. -/
theorem argument_complete {n : ℕ} (hn : n < 2 ^ 64) :
    ∃ ai raw, Follows ai n raw ∧ ∀ (c : Cursor) (r : Bytes), c.Inside → c.rest = raw ++ r →
      argument ai c = .ok (⟨safeValue n, n⟩, c.skip raw.length) := by
  by_cases hlow : n < 24
  · refine ⟨n, [], ⟨by omega, hn, ?_⟩, ?_⟩
    · intro major
      unfold shortestHead
      rw [if_pos hlow]
    · intro c r hc hrest
      unfold argument safeValue MAX_SAFE_INTEGER
      rw [if_pos hlow, if_pos (by omega)]
      rfl
  · obtain ⟨ai, raw, hwide⟩ := exists_wide (by omega) hn
    exact ⟨ai, raw, hwide.follows, fun c r hc hrest => hwide.argument hc hrest⟩

/-! ## Counts -/

/-- A count that is read is in the shortest form of its head, and as many bytes are left. -/
theorem countArgument_sound {ai : ℕ} {what : String} {c c' : Cursor} {n : ℕ} (hc : c.Inside) (hai : ai < 32)
    (h : countArgument ai what c = .ok (n, c')) :
    ∃ raw, Follows ai n raw ∧ n ≤ c'.remaining ∧ c.rest = raw ++ c'.rest ∧ c' = c.skip raw.length := by
  unfold countArgument at h
  obtain ⟨arg, c₁, harg, h⟩ := Reader.bind_eq_ok.mp h
  obtain ⟨raw, hfollows, hvalue, hrest, hskip⟩ := argument_sound hc hai harg
  rw [hvalue] at h
  unfold safeValue at h
  split_ifs at h with hsafe
  · simp only [Reader.bind_eq_ok, Reader.require_eq_ok, Reader.pure_eq_ok, Reader.remaining_eq_ok,
      Prod.mk.injEq] at h
    obtain ⟨left, c₂, ⟨rfl, rfl⟩, -, c₃, ⟨hleft, rfl⟩, rfl, rfl⟩ := h
    exact ⟨raw, hfollows, hleft, hrest, hskip⟩
  · exact (Reader.raise_eq_ok.mp h).elim

/-- A count is read after the head byte of its shortest form when as many bytes are left. -/
theorem countArgument_complete {n : ℕ} (hn : n ≤ MAX_SAFE_INTEGER) (what : String) :
    ∃ ai raw, Follows ai n raw ∧ ∀ (c : Cursor) (r : Bytes), c.Inside → c.rest = raw ++ r → n ≤ r.length →
      countArgument ai what c = .ok (n, c.skip raw.length) := by
  have hlt : n < 2 ^ 64 := by
    unfold MAX_SAFE_INTEGER at hn
    omega
  obtain ⟨ai, raw, hfollows, hread⟩ := argument_complete hlt
  refine ⟨ai, raw, hfollows, ?_⟩
  intro c r hc hrest hleft
  have hremaining : n ≤ (c.skip raw.length).remaining := by
    rw [← Cursor.rest_length, Cursor.skip_rest_of_append hrest]
    exact hleft
  unfold countArgument
  rw [Reader.bind_of_ok (hread c r hc hrest)]
  unfold safeValue
  simp only [if_pos hn, Reader.bind_eq_ok, Reader.require_eq_ok, Reader.pure_eq_ok, Reader.remaining_eq_ok,
    Prod.mk.injEq]
  exact ⟨_, _, ⟨rfl, rfl⟩, (), _, ⟨hremaining, rfl⟩, trivial, rfl⟩

end SdidBridge.Attestation
