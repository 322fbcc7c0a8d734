import SdidBridge.Codec.Digits

/-!
# Views of a buffer

A view is a window on a buffer of bytes, and several views share one buffer. A slice of a view is a view of the same
buffer, and reading past the end of a view answers nothing. Slices that follow one another make up the slice from the
start of the first to the end of the last (`bytes_subarray_append`).
-/

namespace SdidBridge.Codec

/-- A window on a buffer of bytes. -/
structure View where
  /-- The buffer. -/
  buffer : List UInt8
  /-- Where the window starts. -/
  byteOffset : ℕ
  /-- How many bytes it has. -/
  byteLength : ℕ
  /-- It ends in the buffer. -/
  inside : byteOffset + byteLength ≤ buffer.length
  deriving DecidableEq

namespace View

/-- A window on the whole buffer. -/
def whole (buffer : List UInt8) : View := ⟨buffer, 0, buffer.length, Nat.le_of_eq (Nat.zero_add _)⟩

/-- The bytes that a view shows. -/
def bytes (v : View) : List UInt8 := (v.buffer.drop v.byteOffset).take v.byteLength

/-- Another window on a buffer, which has to end in it. -/
def reopen (buffer : List UInt8) (byteOffset byteLength : ℕ) : Option View :=
  if h : byteOffset + byteLength ≤ buffer.length then some ⟨buffer, byteOffset, byteLength, h⟩ else none

/-- The window from `start` up to `stop`, both cut off at the end of the view. -/
def subarray (v : View) (start stop : ℕ) : View where
  buffer := v.buffer
  byteOffset := v.byteOffset + min start v.byteLength
  byteLength := min stop v.byteLength - min start v.byteLength
  inside := by
    have hin := v.inside
    omega

/-- The byte at an index. -/
def get? (v : View) (i : ℕ) : Option UInt8 := if i < v.byteLength then v.buffer[v.byteOffset + i]? else none

/-- The number in the `width` bytes from an offset on, if the view has them all. -/
def readBE (v : View) (width offset : ℕ) : Option ℕ :=
  if offset + width ≤ v.byteLength then some (beValue ((v.buffer.drop (v.byteOffset + offset)).take width)) else none

/-- One view shows a part of what another one does. -/
structure Within (v w : View) : Prop where
  buffer : v.buffer = w.buffer
  start : w.byteOffset ≤ v.byteOffset
  stop : v.byteOffset + v.byteLength ≤ w.byteOffset + w.byteLength

variable {v : View} {a b c i : ℕ}

@[simp] theorem bytes_length (v : View) : v.bytes.length = v.byteLength := by
  have hin := v.inside
  unfold bytes
  rw [List.length_take, List.length_drop]
  omega

@[simp] theorem bytes_whole (buffer : List UInt8) : (whole buffer).bytes = buffer := by
  unfold whole bytes
  rw [List.drop_zero, List.take_length]

/-- A second window on the same place is the same view. -/
theorem reopen_self (v : View) : reopen v.buffer v.byteOffset v.byteLength = some v := dif_pos v.inside

theorem get?_eq (v : View) (i : ℕ) : v.get? i = v.bytes[i]? := by
  unfold get? bytes
  rw [List.getElem?_take, List.getElem?_drop]

theorem drop_bytes (v : View) (a : ℕ) :
    v.bytes.drop a = (v.buffer.drop (v.byteOffset + a)).take (v.byteLength - a) := by
  unfold bytes
  rw [List.drop_take, List.drop_drop]

/-- A slice shows the bytes between its ends. -/
theorem bytes_subarray (hab : a ≤ b) (hb : b ≤ v.byteLength) :
    (v.subarray a b).bytes = (v.bytes.drop a).take (b - a) := by
  have ha : min a v.byteLength = a := by omega
  have hb' : min b v.byteLength = b := by omega
  have hle : b - a ≤ v.byteLength - a := by omega
  rw [drop_bytes, List.take_take, Nat.min_eq_left hle]
  unfold subarray bytes
  simp only [ha, hb']

theorem byteLength_subarray (hab : a ≤ b) (hb : b ≤ v.byteLength) : (v.subarray a b).byteLength = b - a := by
  show min b v.byteLength - min a v.byteLength = b - a
  omega

theorem subarray_within (hab : a ≤ b) (hb : b ≤ v.byteLength) : (v.subarray a b).Within v := by
  refine ⟨rfl, Nat.le_add_right _ _, ?_⟩
  show v.byteOffset + min a v.byteLength + (min b v.byteLength - min a v.byteLength) ≤ _
  omega

/-- The whole of a view. -/
theorem bytes_subarray_self (v : View) : (v.subarray 0 v.byteLength).bytes = v.bytes := by
  rw [bytes_subarray (Nat.zero_le _) (Nat.le_refl _), List.drop_zero, Nat.sub_zero, ← bytes_length v, List.take_length]

/-- Two slices that follow one another. -/
theorem bytes_subarray_append (hab : a ≤ b) (hbc : b ≤ c) (hc : c ≤ v.byteLength) :
    (v.subarray a b).bytes ++ (v.subarray b c).bytes = (v.subarray a c).bytes := by
  have hsum : c - a = (b - a) + (c - b) := by omega
  have hdrop : (v.bytes.drop a).drop (b - a) = v.bytes.drop b := by
    rw [List.drop_drop]
    congr 1
    omega
  rw [bytes_subarray hab (by omega), bytes_subarray hbc hc, bytes_subarray (by omega) hc, hsum, List.take_add, hdrop]

/-- A slice of one byte. -/
theorem bytes_subarray_one (hi : i < v.byteLength) {x : UInt8} (hx : v.get? i = some x) :
    (v.subarray i (i + 1)).bytes = [x] := by
  rw [get?_eq] at hx
  obtain ⟨hlt, hget⟩ := List.getElem?_eq_some_iff.mp hx
  rw [bytes_subarray (by omega) (by omega), Nat.add_sub_cancel_left, List.drop_eq_getElem_cons hlt, hget]
  rfl

/-- The bytes that a number was read from are its digits. -/
theorem beBytes_of_readBE {width n : ℕ} (h : v.readBE width a = some n) :
    beBytes width n = (v.subarray a (a + width)).bytes ∧ n < 256 ^ width := by
  unfold readBE at h
  split at h
  · rename_i hin
    have hbytes : (v.subarray a (a + width)).bytes = (v.buffer.drop (v.byteOffset + a)).take width := by
      rw [bytes_subarray (by omega) hin, drop_bytes, List.take_take]
      congr 1
      omega
    have hlength : ((v.buffer.drop (v.byteOffset + a)).take width).length = width := by
      rw [← hbytes, bytes_length, byteLength_subarray (by omega) hin]
      omega
    obtain rfl := Option.some.inj h
    have hdigits := beBytes_beValue ((v.buffer.drop (v.byteOffset + a)).take width)
    have hlt := beValue_lt ((v.buffer.drop (v.byteOffset + a)).take width)
    rw [hlength] at hdigits hlt
    exact ⟨hdigits.trans hbytes.symm, hlt⟩
  · cases h

/-- A number is read where the view has the bytes. -/
theorem readBE_eq {width : ℕ} (h : a + width ≤ v.byteLength) :
    v.readBE width a = some (beValue ((v.bytes.drop a).take width)) := by
  unfold readBE
  rw [if_pos h, drop_bytes, List.take_take, Nat.min_eq_left (by omega)]

end View

end SdidBridge.Codec
