import Mathlib.Data.List.Basic
import Mathlib.Data.List.GetD
import Mathlib.Data.List.Nodup
import Mathlib.Tactic.Common

/-!
# Base64

Bytes as groups of six bits, and the groups as characters of an alphabet. What is encoded is decoded to itself
(`Alphabet.decode_encode`), whatever the alphabet. Padding is left to those who use it.
-/

namespace SdidBridge.Codec

/-! ## Groups of six bits -/

/-- The groups of six bits that bytes are made of. Zeros fill the last one. -/
def sextets : List UInt8 → List ℕ
  | x :: y :: z :: rest =>
    x.toNat / 4 :: (x.toNat % 4 * 16 + y.toNat / 16) :: (y.toNat % 16 * 4 + z.toNat / 64) :: z.toNat % 64 ::
      sextets rest
  | [x, y] => [x.toNat / 4, x.toNat % 4 * 16 + y.toNat / 16, y.toNat % 16 * 4]
  | [x] => [x.toNat / 4, x.toNat % 4 * 16]
  | [] => []

/-- The bytes that groups of six bits make. The bits that fill no byte are dropped. -/
def bytesOfSextets : List ℕ → List UInt8
  | a :: b :: c :: d :: rest =>
    UInt8.ofNat (a * 4 + b / 16) :: UInt8.ofNat (b % 16 * 16 + c / 4) :: UInt8.ofNat (c % 4 * 64 + d) ::
      bytesOfSextets rest
  | [a, b, c] => [UInt8.ofNat (a * 4 + b / 16), UInt8.ofNat (b % 16 * 16 + c / 4)]
  | [a, b] => [UInt8.ofNat (a * 4 + b / 16)]
  | _ => []

/-- A group of six bits is below 64. -/
theorem sextets_lt {bs : List UInt8} : ∀ n ∈ sextets bs, n < 64 := by
  fun_induction sextets bs with
  | case1 x y z rest ih =>
    have hx := x.toNat_lt
    have hy := y.toNat_lt
    have hz := z.toNat_lt
    simp only [List.forall_mem_cons]
    exact ⟨by omega, by omega, by omega, by omega, ih⟩
  | case2 x y =>
    have hx := x.toNat_lt
    have hy := y.toNat_lt
    simp only [List.forall_mem_cons, List.not_mem_nil, false_implies, implies_true, and_true]
    omega
  | case3 x =>
    have hx := x.toNat_lt
    simp only [List.forall_mem_cons, List.not_mem_nil, false_implies, implies_true, and_true]
    omega
  | case4 => simp

/-- A byte is the number that its bits make. -/
theorem eq_ofNat {x : UInt8} {n : ℕ} (h : n = x.toNat) : UInt8.ofNat n = x := by
  rw [h, UInt8.ofNat_toNat]

/-- The bytes of the groups of bytes. -/
theorem bytesOfSextets_sextets (bs : List UInt8) : bytesOfSextets (sextets bs) = bs := by
  fun_induction sextets bs with
  | case1 x y z rest ih =>
    have hx := x.toNat_lt
    have hy := y.toNat_lt
    have hz := z.toNat_lt
    have hfirst : x.toNat / 4 * 4 + (x.toNat % 4 * 16 + y.toNat / 16) / 16 = x.toNat := by omega
    have hsecond : (x.toNat % 4 * 16 + y.toNat / 16) % 16 * 16 + (y.toNat % 16 * 4 + z.toNat / 64) / 4 =
        y.toNat := by omega
    have hthird : (y.toNat % 16 * 4 + z.toNat / 64) % 4 * 64 + z.toNat % 64 = z.toNat := by omega
    rw [bytesOfSextets, eq_ofNat hfirst, eq_ofNat hsecond, eq_ofNat hthird, ih]
  | case2 x y =>
    have hx := x.toNat_lt
    have hy := y.toNat_lt
    have hfirst : x.toNat / 4 * 4 + (x.toNat % 4 * 16 + y.toNat / 16) / 16 = x.toNat := by omega
    have hsecond : (x.toNat % 4 * 16 + y.toNat / 16) % 16 * 16 + y.toNat % 16 * 4 / 4 = y.toNat := by omega
    rw [bytesOfSextets, eq_ofNat hfirst, eq_ofNat hsecond]
  | case3 x =>
    have hx := x.toNat_lt
    have hfirst : x.toNat / 4 * 4 + x.toNat % 4 * 16 / 16 = x.toNat := by omega
    rw [bytesOfSextets, eq_ofNat hfirst]
  | case4 => rfl

/-- How many groups there are, but for the last byte or two bytes. -/
theorem sextets_length (bs : List UInt8) :
    (sextets bs).length = bs.length / 3 * 4 + if bs.length % 3 = 0 then 0 else bs.length % 3 + 1 := by
  fun_induction sextets bs with
  | case1 x y z rest ih =>
    simp only [List.length_cons]
    have hdiv : (rest.length + 1 + 1 + 1) / 3 = rest.length / 3 + 1 := by omega
    have hmod : (rest.length + 1 + 1 + 1) % 3 = rest.length % 3 := by omega
    rw [hdiv, hmod, ih]
    omega
  | case2 x y => simp
  | case3 x => simp
  | case4 => rfl

/-! ## Alphabets -/

/-- A character for each group of six bits. -/
structure Alphabet where
  /-- The characters, in the order of the groups. -/
  symbols : List Char
  /-- There is one for each. -/
  size : symbols.length = 64
  /-- There is no other. -/
  nodup : symbols.Nodup

namespace Alphabet

variable (A : Alphabet)

/-- The character of a group. -/
def symbol (n : ℕ) : Char := A.symbols.getD n 'A'

/-- The group of a character. -/
def value (c : Char) : ℕ := A.symbols.idxOf c

/-- The characters of bytes. -/
def encode (bs : List UInt8) : List Char := (sextets bs).map A.symbol

/-- The bytes of characters. -/
def decode (cs : List Char) : List UInt8 := bytesOfSextets (cs.map A.value)

variable {A}

theorem symbol_mem {n : ℕ} (h : n < 64) : A.symbol n ∈ A.symbols := by
  have hn : n < A.symbols.length := by rw [A.size]; exact h
  unfold symbol
  rw [List.getD_eq_getElem _ _ hn]
  exact List.getElem_mem hn

theorem value_symbol {n : ℕ} (h : n < 64) : A.value (A.symbol n) = n := by
  have hn : n < A.symbols.length := by rw [A.size]; exact h
  unfold value symbol
  rw [List.getD_eq_getElem _ _ hn]
  exact A.nodup.idxOf_getElem n hn

/-- Every character that bytes are encoded to is of the alphabet. -/
theorem encode_mem {bs : List UInt8} : ∀ c ∈ A.encode bs, c ∈ A.symbols := by
  intro c hc
  obtain ⟨n, hn, rfl⟩ := List.mem_map.mp hc
  exact symbol_mem (sextets_lt n hn)

/-- What is encoded is decoded to itself. -/
theorem decode_encode (bs : List UInt8) : A.decode (A.encode bs) = bs := by
  unfold decode encode
  have hgroups : ((sextets bs).map A.symbol).map A.value = sextets bs := by
    rw [List.map_map]
    calc (sextets bs).map (A.value ∘ A.symbol)
        = (sextets bs).map id := List.map_congr_left fun n hn => value_symbol (sextets_lt n hn)
      _ = sextets bs := List.map_id _
  rw [hgroups, bytesOfSextets_sextets]

theorem encode_length (bs : List UInt8) :
    (A.encode bs).length = bs.length / 3 * 4 + if bs.length % 3 = 0 then 0 else bs.length % 3 + 1 := by
  unfold encode
  rw [List.length_map, sextets_length]

end Alphabet

end SdidBridge.Codec
