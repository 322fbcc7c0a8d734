import Mathlib.Data.Nat.Size
import SdidBridge.Codec.Digits

/-!
# Numbers in as few bytes as they take

A number that is not negative in two's complement, with the fewest bytes in which its sign has a bit, and the
paddings between it and the bytes of a fixed width.
-/

namespace SdidBridge.Codec

/-- How many bytes a number takes with its sign. -/
def signedWidth (n : ℕ) : ℕ := n.size / 8 + 1

/-- A number in two's complement, with as few bytes as it takes. -/
def signedBytes (n : ℕ) : List UInt8 := beBytes (signedWidth n) n

@[simp] theorem signedBytes_length (n : ℕ) : (signedBytes n).length = signedWidth n := beBytes_length _ _

theorem signedWidth_pos (n : ℕ) : 0 < signedWidth n := Nat.succ_pos _

/-- The sign has a bit: the number is less than half of what its bytes have room for. -/
theorem lt_of_signedWidth (n : ℕ) : 2 * n < 256 ^ signedWidth n := by
  have hsize : n < 2 ^ n.size := Nat.lt_size_self n
  have hbits : n.size + 1 ≤ 8 * signedWidth n := by
    unfold signedWidth
    omega
  calc 2 * n < 2 * 2 ^ n.size := by omega
    _ = 2 ^ (n.size + 1) := by rw [pow_succ, Nat.mul_comm]
    _ ≤ 2 ^ (8 * signedWidth n) := Nat.pow_le_pow_right (by norm_num) hbits
    _ = 256 ^ signedWidth n := by norm_num [pow_mul]

/-- With a byte less the sign has none. -/
theorem le_of_signedWidth {n w : ℕ} (h : signedWidth n = w + 1) (hw : w ≠ 0) : 256 ^ w ≤ 2 * n := by
  have hbits : 8 * w - 1 < n.size := by
    unfold signedWidth at h
    omega
  have hexp : 8 * w = 8 * w - 1 + 1 := by omega
  calc 256 ^ w = 2 ^ (8 * w) := by norm_num [pow_mul]
    _ = 2 * 2 ^ (8 * w - 1) := by rw [hexp, pow_succ, Nat.mul_comm, ← hexp]
    _ ≤ 2 * n := Nat.mul_le_mul_left 2 (Nat.lt_size.mp hbits)

/-- A number of some bytes takes one more at most. -/
theorem signedWidth_le {n w : ℕ} (h : n < 256 ^ w) : signedWidth n ≤ w + 1 := by
  have hsize : n.size ≤ 8 * w := Nat.size_le.mpr (by rwa [pow_mul])
  unfold signedWidth
  omega

@[simp] theorem beValue_signedBytes (n : ℕ) : beValue (signedBytes n) = n := by
  have hbound := lt_of_signedWidth n
  exact beValue_beBytes (by omega)

/-! ## Paddings -/

@[simp] theorem beValue_replicate_zero (k : ℕ) (bs : List UInt8) :
    beValue (List.replicate k 0 ++ bs) = beValue bs := by
  induction k with
  | zero => rfl
  | succ k ih =>
    rw [List.replicate_succ, List.cons_append, beValue_cons, ih, UInt8.toNat_zero, Nat.zero_mul, Nat.zero_add]

/-- Bytes that zeros are put before up to a width are those of their number. -/
theorem leftPad_eq {bs : List UInt8} {w : ℕ} (h : bs.length ≤ w) :
    List.replicate (w - bs.length) 0 ++ bs = beBytes w (beValue bs) := by
  have hlength : (List.replicate (w - bs.length) (0 : UInt8) ++ bs).length = w := by
    rw [List.length_append, List.length_replicate]
    omega
  calc List.replicate (w - bs.length) 0 ++ bs
      = beBytes w (beValue (List.replicate (w - bs.length) 0 ++ bs)) := by
        rw [← beBytes_beValue (List.replicate (w - bs.length) 0 ++ bs), hlength, beValue_replicate_zero,
          beValue_beBytes]
        exact lt_of_lt_of_le (beValue_lt bs) (Nat.pow_le_pow_right (by norm_num) h)
    _ = beBytes w (beValue bs) := by rw [beValue_replicate_zero]

/-- A number in the bytes of a width is what it takes, and zeros before. -/
theorem beBytes_eq_signedBytes {n k w : ℕ} (h : k + signedWidth n = w) :
    beBytes w n = List.replicate k 0 ++ signedBytes n := by
  have hlength : (signedBytes n).length ≤ w := by
    rw [signedBytes_length]
    omega
  have hk : w - (signedBytes n).length = k := by
    rw [signedBytes_length]
    omega
  rw [← hk, leftPad_eq hlength, beValue_signedBytes]

/-- The first of more bytes than a number has room for is zero. -/
theorem exists_zero_cons {bs : List UInt8} {w : ℕ} (hlength : bs.length = w + 1) (h : beValue bs < 256 ^ w) :
    ∃ rest, bs = 0 :: rest ∧ rest.length = w ∧ beValue rest = beValue bs := by
  cases bs with
  | nil => simp at hlength
  | cons b rest =>
    have hrest : rest.length = w := by simpa using hlength
    have hb : b.toNat = 0 := by
      by_contra hne
      have hlarge : 256 ^ w ≤ b.toNat * 256 ^ w := Nat.le_mul_of_pos_left _ (Nat.pos_of_ne_zero hne)
      rw [beValue_cons, hrest] at h
      omega
    obtain rfl : b = 0 := UInt8.toNat_inj.mp hb
    refine ⟨rest, rfl, hrest, ?_⟩
    rw [beValue_cons, UInt8.toNat_zero, Nat.zero_mul, Nat.zero_add]

end SdidBridge.Codec
