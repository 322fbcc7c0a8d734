import Mathlib.Algebra.Order.Ring.Nat
import Mathlib.Data.List.Induction
import Mathlib.Data.Nat.Bitwise
import Mathlib.Tactic.Ring
import Mathlib.Tactic.Linarith

/-!
# Numbers in bytes

Two ways to write a number, most significant part first: in the base 256 with a fixed width, and in groups
of seven bits of which all but the last have the high bit set.
-/

namespace SdidBridge.Codec

/-! ## Fixed widths -/

/-- The number that bytes are in the base 256. -/
def beValue (bs : List UInt8) : ℕ := bs.foldl (fun n b => n * 256 + b.toNat) 0

/-- The last `w` digits of a number in the base 256. -/
def beBytes : ℕ → ℕ → List UInt8
  | 0, _ => []
  | w + 1, n => beBytes w (n / 256) ++ [UInt8.ofNat n]

@[simp] theorem beBytes_length (w n : ℕ) : (beBytes w n).length = w := by
  induction w generalizing n with
  | zero => rfl
  | succ w ih => simp [beBytes, ih]

theorem beValue_append_singleton (bs : List UInt8) (b : UInt8) :
    beValue (bs ++ [b]) = beValue bs * 256 + b.toNat := by
  simp [beValue]

/-- A shift by a byte and an or with the next one read a digit. -/
theorem shiftLeft_or_byte (n : ℕ) (b : UInt8) : n <<< 8 ||| b.toNat = n * 256 + b.toNat := by
  have hb : b.toNat < 2 ^ 8 := b.toNat_lt
  rw [← Nat.shiftLeft_add_eq_or_of_lt hb, Nat.shiftLeft_eq]

theorem foldl_shiftLeft_or (bs : List UInt8) :
    bs.foldl (fun n b => n <<< 8 ||| b.toNat) 0 = beValue bs := by
  unfold beValue
  congr 1
  funext n b
  exact shiftLeft_or_byte n b

theorem beValue_lt (bs : List UInt8) : beValue bs < 256 ^ bs.length := by
  induction bs using List.reverseRecOn with
  | nil => simp [beValue]
  | append_singleton bs b ih =>
    have hb : b.toNat < 256 := b.toNat_lt
    rw [beValue_append_singleton, List.length_append, List.length_singleton, pow_succ]
    nlinarith

/-- The bytes of a number of their width are read back. -/
theorem beValue_beBytes {w n : ℕ} (h : n < 256 ^ w) : beValue (beBytes w n) = n := by
  induction w generalizing n with
  | zero =>
    have hn : n = 0 := by simpa using h
    simp [hn, beBytes, beValue]
  | succ w ih =>
    have hdiv : n / 256 < 256 ^ w := by
      rw [pow_succ] at h
      exact Nat.div_lt_of_lt_mul (by rwa [Nat.mul_comm])
    rw [beBytes, beValue_append_singleton, ih hdiv]
    simp only [UInt8.toNat_ofNat']
    omega

/-- Bytes are those of the number that they are. -/
theorem beBytes_beValue (bs : List UInt8) : beBytes bs.length (beValue bs) = bs := by
  induction bs using List.reverseRecOn with
  | nil => rfl
  | append_singleton bs b ih =>
    have hb : b.toNat < 256 := b.toNat_lt
    have hdiv : (beValue bs * 256 + b.toNat) / 256 = beValue bs := by omega
    have hlast : UInt8.ofNat (beValue bs * 256 + b.toNat) = b := by
      apply UInt8.toNat_inj.mp
      simp only [UInt8.toNat_ofNat']
      omega
    rw [List.length_append, List.length_singleton, beBytes, beValue_append_singleton, hdiv, ih, hlast]

theorem beValue_cons (b : UInt8) (bs : List UInt8) :
    beValue (b :: bs) = b.toNat * 256 ^ bs.length + beValue bs := by
  induction bs using List.reverseRecOn with
  | nil => simp [beValue]
  | append_singleton bs d ih =>
    rw [← List.cons_append, beValue_append_singleton, beValue_append_singleton, ih, List.length_append,
      List.length_singleton, pow_succ]
    ring

/-- Bytes of one width are determined by their number. -/
theorem beValue_injective {bs bs' : List UInt8} (hlen : bs.length = bs'.length)
    (h : beValue bs = beValue bs') : bs = bs' := by
  rw [← beBytes_beValue bs, ← beBytes_beValue bs', hlen, h]

/-! ## Groups of seven bits -/

/-- The groups of a number that others follow. -/
def leadingGroups (n : ℕ) : List UInt8 :=
  if n = 0 then [] else leadingGroups (n / 128) ++ [UInt8.ofNat (128 + n % 128)]
termination_by n
decreasing_by omega

/-- A number in groups of seven bits. -/
def varint (n : ℕ) : List UInt8 := leadingGroups (n / 128) ++ [UInt8.ofNat (n % 128)]

@[simp] theorem leadingGroups_zero : leadingGroups 0 = [] := by
  unfold leadingGroups
  rfl

theorem leadingGroups_pos {n : ℕ} (h : n ≠ 0) :
    leadingGroups n = leadingGroups (n / 128) ++ [UInt8.ofNat (128 + n % 128)] := by
  rw [leadingGroups, if_neg h]

theorem leadingGroups_eq_nil {n : ℕ} : leadingGroups n = [] ↔ n = 0 := by
  constructor
  · intro h
    by_contra hn
    rw [leadingGroups_pos hn] at h
    simp at h
  · rintro rfl
    exact leadingGroups_zero

/-- One more group with the high bit: it follows others, or is not zero. -/
theorem leadingGroups_snoc {n : ℕ} {b : UInt8} (hb : 128 ≤ b.toNat) (h : n = 0 → b.toNat ≠ 128) :
    leadingGroups (n * 128 + (b.toNat - 128)) = leadingGroups n ++ [b] := by
  have hlt : b.toNat < 256 := b.toNat_lt
  have hpos : n * 128 + (b.toNat - 128) ≠ 0 := by
    intro h0
    have hn : n = 0 := by omega
    exact h hn (by omega)
  have hdiv : (n * 128 + (b.toNat - 128)) / 128 = n := by omega
  have hlast : UInt8.ofNat (128 + (n * 128 + (b.toNat - 128)) % 128) = b := by
    apply UInt8.toNat_inj.mp
    simp only [UInt8.toNat_ofNat']
    omega
  rw [leadingGroups_pos hpos, hdiv, hlast]

/-- The last group has the high bit clear. -/
theorem varint_snoc {n : ℕ} {b : UInt8} (hb : b.toNat < 128) :
    varint (n * 128 + b.toNat) = leadingGroups n ++ [b] := by
  have hdiv : (n * 128 + b.toNat) / 128 = n := by omega
  have hlast : UInt8.ofNat ((n * 128 + b.toNat) % 128) = b := by
    apply UInt8.toNat_inj.mp
    simp only [UInt8.toNat_ofNat']
    omega
  unfold varint
  rw [hdiv, hlast]

theorem leadingGroups_length_le {n k : ℕ} (h : n < 128 ^ k) : (leadingGroups n).length ≤ k := by
  induction k generalizing n with
  | zero =>
    have hn : n = 0 := by simpa using h
    simp [hn]
  | succ k ih =>
    by_cases hn : n = 0
    · simp [hn]
    · have hdiv : n / 128 < 128 ^ k := by
        rw [pow_succ] at h
        exact Nat.div_lt_of_lt_mul (by rwa [Nat.mul_comm])
      rw [leadingGroups_pos hn, List.length_append, List.length_singleton]
      exact Nat.succ_le_succ (ih hdiv)

end SdidBridge.Codec
