import Mathlib.Tactic.IntervalCases
import Mathlib.Tactic.NormNum
import SdidBridge.Attestation.Der

/-!
# What the DER reader accepts

The reader accepts the encodings of the well-formed trees within its limits, returns the tree, and accepts
nothing else: `readTagNumber` and `readLength` for the octets before a content, `readsNodes` for a node, by
induction on the levels that are left, and `parseDer_eq_ok` for an input.
-/

namespace SdidBridge.Attestation

open Codec

/-! ## Identifiers -/

set_option maxRecDepth 2000 in
theorem constructed_bit : ∀ n < 256, (n &&& 0x20 ≠ 0 ↔ n / 32 % 2 = 1) := by decide

set_option maxRecDepth 2000 in
theorem high_bit : ∀ n < 256, (n &&& 0x80 = 0 ↔ n < 128) := by decide

theorem class_bits (n : ℕ) : n >>> 6 &&& 0x03 = n / 64 % 4 := by
  rw [Nat.and_two_pow_sub_one_eq_mod _ 2, Nat.shiftRight_eq_div_pow]

theorem low_bits (n : ℕ) : n &&& 0x1f = n % 32 := Nat.and_two_pow_sub_one_eq_mod n 5

theorem seven_bits (n : ℕ) : n &&& 0x7f = n % 128 := Nat.and_two_pow_sub_one_eq_mod n 7

/-- The class that an identifier octet says. -/
def classOf (first : UInt8) : DerTagClass := TAG_CLASSES (first.toNat >>> 6 &&& 0x03)

/-- The form that an identifier octet says. -/
def formOf (first : UInt8) : Bool := decide (first.toNat &&& 0x20 ≠ 0)

/-- An identifier octet is made of its class, its form and its low bits. -/
theorem identifierOctet_parts (first : UInt8) :
    first = identifierOctet (classOf first) (formOf first) (first.toNat % 32) := by
  have hlt : first.toNat < 256 := first.toNat_lt
  have hclass : classBits (classOf first) = first.toNat / 64 := by
    have hquarter : first.toNat / 64 < 4 := by omega
    unfold classOf
    rw [class_bits, Nat.mod_eq_of_lt hquarter]
    interval_cases first.toNat / 64 <;> rfl
  have hform : (if formOf first = true then 32 else 0) = first.toNat / 32 % 2 * 32 := by
    have hbit := constructed_bit _ hlt
    unfold formOf
    split_ifs with h
    · have hone := hbit.mp (of_decide_eq_true h)
      omega
    · have hnot : ¬first.toNat / 32 % 2 = 1 := fun hone => h (decide_eq_true (hbit.mpr hone))
      omega
  apply UInt8.toNat_inj.mp
  unfold identifierOctet
  rw [UInt8.toNat_ofNat', hclass, hform]
  omega

theorem identifierOctet_toNat (tagClass : DerTagClass) (constructed : Bool) {low : ℕ} (hlow : low < 32) :
    (identifierOctet tagClass constructed low).toNat =
      classBits tagClass * 64 + (if constructed then 32 else 0) + low := by
  have hclass : classBits tagClass < 4 := by cases tagClass <;> decide
  unfold identifierOctet
  rw [UInt8.toNat_ofNat']
  split_ifs <;> omega

theorem classOf_identifierOctet (tagClass : DerTagClass) (constructed : Bool) {low : ℕ} (hlow : low < 32) :
    classOf (identifierOctet tagClass constructed low) = tagClass := by
  have hquarter : (classBits tagClass * 64 + (if constructed then 32 else 0) + low) / 64 % 4 =
      classBits tagClass := by
    have hclass : classBits tagClass < 4 := by cases tagClass <;> decide
    split_ifs <;> omega
  unfold classOf
  rw [identifierOctet_toNat _ _ hlow, class_bits, hquarter]
  cases tagClass <;> rfl

theorem formOf_identifierOctet (tagClass : DerTagClass) (constructed : Bool) {low : ℕ} (hlow : low < 32) :
    formOf (identifierOctet tagClass constructed low) = constructed := by
  have hlt := (identifierOctet tagClass constructed low).toNat_lt
  have hbit := constructed_bit _ hlt
  rw [identifierOctet_toNat _ _ hlow] at hbit
  have hform : formOf (identifierOctet tagClass constructed low) = true ↔ constructed = true := by
    unfold formOf
    rw [decide_eq_true_eq, identifierOctet_toNat _ _ hlow, hbit]
    cases constructed <;> simp <;> omega
  exact Bool.eq_iff_iff.mpr hform

theorem low_identifierOctet (tagClass : DerTagClass) (constructed : Bool) {low : ℕ} (hlow : low < 32) :
    (identifierOctet tagClass constructed low).toNat % 32 = low := by
  rw [identifierOctet_toNat _ _ hlow]
  split_ifs <;> omega

/-- The octets of a high tag number that are read continue those before. -/
theorem readTagOctets_sound {turns octets value tag : ℕ} {c c' : Cursor} (hc : c.Inside)
    (hoctets : (leadingGroups value).length = octets) (h : readTagOctets turns octets value c = .ok (tag, c')) :
    ∃ tail, varint tag = leadingGroups value ++ tail ∧ tag ≤ 0x0fffffff ∧ c.rest = tail ++ c'.rest ∧
      c' = c.skip tail.length := by
  induction turns generalizing octets value c with
  | zero => cases h
  | succ turns ih =>
    unfold readTagOctets at h
    obtain ⟨b, r, hr, h⟩ := Reader.byte_bind_eq_ok.mp h
    obtain ⟨hpad, h⟩ := Reader.require_bind_eq_ok.mp h
    obtain ⟨hcap, h⟩ := Reader.require_bind_eq_ok.mp h
    have hlt : b.toNat < 256 := b.toNat_lt
    rw [seven_bits] at hcap h
    by_cases hlast : b.toNat < 128
    · rw [if_pos ((high_bit _ hlt).mpr hlast), Nat.mod_eq_of_lt hlast] at h
      obtain ⟨rfl, rfl⟩ := Reader.pure_eq_ok.mp h
      rw [Nat.mod_eq_of_lt hlast] at hcap
      refine ⟨[b], varint_snoc hlast, hcap, ?_, rfl⟩
      rw [Cursor.skip_one_rest hr, hr]
      rfl
    · have hmod : b.toNat % 128 = b.toNat - 128 := by omega
      rw [if_neg (fun h0 => hlast ((high_bit _ hlt).mp h0)), hmod] at h
      obtain ⟨-, h⟩ := Reader.require_bind_eq_ok.mp h
      -- a group with the high bit that comes first is not zero
      have hfirst : value = 0 → b.toNat ≠ 128 := by
        intro hzero h128
        rw [hzero, leadingGroups_zero, List.length_nil] at hoctets
        exact hpad ⟨hoctets.symm, UInt8.toNat_inj.mp h128⟩
      have hgroups := leadingGroups_snoc (by omega) hfirst
      have hlength : (leadingGroups (value * 128 + (b.toNat - 128))).length = octets + 1 := by
        rw [hgroups, List.length_append, List.length_singleton, hoctets]
      obtain ⟨tail, htag, hle, hrest, rfl⟩ := ih (Cursor.skip_one_inside hc hr) hlength h
      refine ⟨b :: tail, ?_, hle, ?_, ?_⟩
      · rw [htag, hgroups, List.append_assoc]
        rfl
      · rw [hr, ← Cursor.skip_one_rest hr, hrest]
        rfl
      · rw [Cursor.skip_skip, List.length_cons, Nat.add_comm]

/-- One turn over a group with the high bit. -/
theorem readTagOctets_more {turns octets value : ℕ} {c : Cursor} {b : UInt8} {r : Bytes} (hr : c.rest = b :: r)
    (hb : 128 ≤ b.toNat) (hpad : ¬(octets = 0 ∧ b = 0x80))
    (hcap : value * 128 + (b.toNat - 128) ≤ 0x0fffffff) (hcount : octets + 1 ≤ 4) :
    readTagOctets (turns + 1) octets value c =
      readTagOctets turns (octets + 1) (value * 128 + (b.toNat - 128)) (c.skip 1) := by
  have hlt : b.toNat < 256 := b.toNat_lt
  have hmod : b.toNat % 128 = b.toNat - 128 := by omega
  have hread : derByte c = .ok (b, c.skip 1) := Reader.byte_eq_ok.mpr ⟨⟨r, hr⟩, rfl⟩
  have hhigh : ¬b.toNat &&& 0x80 = 0 := fun h0 => absurd ((high_bit _ hlt).mp h0) (by omega)
  rw [readTagOctets, Reader.bind_of_ok hread, seven_bits, hmod,
    Reader.bind_of_ok (Reader.require_eq_ok.mpr ⟨hpad, rfl⟩ : _ = Except.ok ((), c.skip 1)),
    Reader.bind_of_ok (Reader.require_eq_ok.mpr ⟨hcap, rfl⟩ : _ = Except.ok ((), c.skip 1)), if_neg hhigh,
    Reader.bind_of_ok (Reader.require_eq_ok.mpr ⟨hcount, rfl⟩ : _ = Except.ok ((), c.skip 1))]

/-- The last turn, over a group without it. -/
theorem readTagOctets_last {turns octets value : ℕ} {c : Cursor} {b : UInt8} {r : Bytes} (hr : c.rest = b :: r)
    (hb : b.toNat < 128) (hcap : value * 128 + b.toNat ≤ 0x0fffffff) :
    readTagOctets (turns + 1) octets value c = .ok (value * 128 + b.toNat, c.skip 1) := by
  have hlt : b.toNat < 256 := b.toNat_lt
  have hread : derByte c = .ok (b, c.skip 1) := Reader.byte_eq_ok.mpr ⟨⟨r, hr⟩, rfl⟩
  have hpad : ¬(octets = 0 ∧ b = 0x80) := by
    rintro ⟨-, rfl⟩
    exact absurd hb (by decide)
  rw [readTagOctets, Reader.bind_of_ok hread, seven_bits, Nat.mod_eq_of_lt hb,
    Reader.bind_of_ok (Reader.require_eq_ok.mpr ⟨hpad, rfl⟩ : _ = Except.ok ((), c.skip 1)),
    Reader.bind_of_ok (Reader.require_eq_ok.mpr ⟨hcap, rfl⟩ : _ = Except.ok ((), c.skip 1)),
    if_pos ((high_bit _ hlt).mpr hb)]
  rfl

/-- The leading groups of a number are read to it, one turn for each. -/
theorem readTagOctets_leading {n : ℕ} (hn : n < 128 ^ 3) {c : Cursor} {r : Bytes}
    (hr : c.rest = leadingGroups n ++ r) :
    ∃ turns, 5 = turns + (leadingGroups n).length ∧ readTagOctets 5 0 0 c =
      readTagOctets turns (leadingGroups n).length n (c.skip (leadingGroups n).length) := by
  induction n using Nat.strong_induction_on generalizing r with
  | _ n ih =>
    by_cases hzero : n = 0
    · refine ⟨5, ?_, ?_⟩
      · rw [hzero, leadingGroups_zero]
        rfl
      · rw [hzero, leadingGroups_zero]
        rfl
    · rw [leadingGroups_pos hzero, List.append_assoc] at hr
      obtain ⟨turns, hturns, hread⟩ := ih (n / 128) (by omega) (by omega) hr
      have hrest := Cursor.skip_rest_of_append hr
      have hlen : (leadingGroups (n / 128)).length ≤ 2 := leadingGroups_length_le (by omega)
      have hgroup : (UInt8.ofNat (128 + n % 128)).toNat = 128 + n % 128 := by
        rw [UInt8.toNat_ofNat']
        omega
      have hback : n / 128 * 128 + ((UInt8.ofNat (128 + n % 128)).toNat - 128) = n := by
        rw [hgroup]
        omega
      have hpad : ¬((leadingGroups (n / 128)).length = 0 ∧ UInt8.ofNat (128 + n % 128) = 0x80) := by
        rintro ⟨hnil, h128⟩
        have hsmall := leadingGroups_eq_nil.mp (List.length_eq_zero_iff.mp hnil)
        have hval := congrArg UInt8.toNat h128
        rw [hgroup] at hval
        have h80 : (0x80 : UInt8).toNat = 128 := rfl
        omega
      obtain ⟨turns, rfl⟩ : ∃ k, turns = k + 1 := ⟨turns - 1, by omega⟩
      refine ⟨turns, ?_, ?_⟩
      · rw [leadingGroups_pos hzero, List.length_append, List.length_singleton]
        omega
      · rw [hread, readTagOctets_more hrest (by omega) hpad (by omega) (by omega), hback, Cursor.skip_skip,
          leadingGroups_pos hzero, List.length_append, List.length_singleton]

/-- The groups of a tag number are read to it. -/
theorem readTagOctets_complete {n : ℕ} (hn : n ≤ 0x0fffffff) {c : Cursor} {r : Bytes}
    (hr : c.rest = varint n ++ r) : readTagOctets 5 0 0 c = .ok (n, c.skip (varint n).length) := by
  unfold varint at hr ⊢
  rw [List.append_assoc] at hr
  have hlen : (leadingGroups (n / 128)).length ≤ 3 := leadingGroups_length_le (by omega)
  obtain ⟨turns, hturns, hread⟩ := readTagOctets_leading (by omega) hr
  have hrest := Cursor.skip_rest_of_append hr
  have hgroup : (UInt8.ofNat (n % 128)).toNat = n % 128 := by
    rw [UInt8.toNat_ofNat']
    omega
  have hback : n / 128 * 128 + (UInt8.ofNat (n % 128)).toNat = n := by
    rw [hgroup]
    omega
  obtain ⟨turns, rfl⟩ : ∃ k, turns = k + 1 := ⟨turns - 1, by omega⟩
  rw [hread, readTagOctets_last hrest (by omega) (by omega), hback, Cursor.skip_skip, List.length_append,
    List.length_singleton]

/-- The tag number that is read after an identifier octet completes the identifier. -/
theorem readTagNumber_sound {first : UInt8} {tag : ℕ} {c c' : Cursor} (hc : c.Inside)
    (h : readTagNumber first c = .ok (tag, c')) :
    ∃ tail, encodeIdentifier (classOf first) (formOf first) tag = first :: tail ∧ tag ≤ 0x0fffffff ∧
      c.rest = tail ++ c'.rest ∧ c' = c.skip tail.length := by
  have hparts := identifierOctet_parts first
  unfold readTagNumber at h
  rw [low_bits] at h
  by_cases hlow : first.toNat % 32 ≠ 0x1f
  · rw [if_pos hlow] at h
    obtain ⟨rfl, rfl⟩ := Reader.pure_eq_ok.mp h
    refine ⟨[], ?_, by omega, rfl, rfl⟩
    unfold encodeIdentifier
    rw [if_pos (by omega), ← hparts]
  · rw [if_neg hlow] at h
    obtain ⟨value, c₁, hvalue, h⟩ := Reader.bind_eq_ok.mp h
    obtain ⟨hmin, h⟩ := Reader.require_bind_eq_ok.mp h
    obtain ⟨rfl, rfl⟩ := Reader.pure_eq_ok.mp h
    obtain ⟨tail, htag, hle, hrest, hskip⟩ := readTagOctets_sound hc (by simp) hvalue
    rw [leadingGroups_zero, List.nil_append] at htag
    rw [not_not.mp hlow] at hparts
    refine ⟨tail, ?_, hle, hrest, hskip⟩
    unfold encodeIdentifier
    rw [if_neg (by omega), ← hparts, htag]

/-- An identifier starts with an octet of its class and form, after which its tag number is read. -/
theorem readTagNumber_complete (tagClass : DerTagClass) (constructed : Bool) {tag : ℕ}
    (htag : tag ≤ 0x0fffffff) :
    ∃ first tail, encodeIdentifier tagClass constructed tag = first :: tail ∧ classOf first = tagClass ∧
      formOf first = constructed ∧ ∀ (c : Cursor) (r : Bytes), c.rest = tail ++ r →
        readTagNumber first c = .ok (tag, c.skip tail.length) := by
  unfold encodeIdentifier
  by_cases hlow : tag < 31
  · rw [if_pos hlow]
    refine ⟨_, [], rfl, classOf_identifierOctet _ _ (by omega), formOf_identifierOctet _ _ (by omega), ?_⟩
    intro c r _
    unfold readTagNumber
    rw [low_bits, low_identifierOctet _ _ (by omega), if_pos (by omega)]
    rfl
  · rw [if_neg hlow]
    refine ⟨_, varint tag, rfl, classOf_identifierOctet _ _ (by omega), formOf_identifierOctet _ _ (by omega),
      ?_⟩
    intro c r hr
    have hmin : 0x1f ≤ tag := by omega
    unfold readTagNumber
    rw [low_bits, low_identifierOctet _ _ (by omega), if_neg (by omega),
      Reader.bind_of_ok (readTagOctets_complete htag hr),
      Reader.bind_of_ok (Reader.require_eq_ok.mpr ⟨hmin, rfl⟩ : _ = Except.ok ((), c.skip (varint tag).length))]
    rfl

/-! ## Lengths -/

/-- `raw` is the length `n` in the base 256, without a leading zero, and too great for the short form. -/
structure LongLength (n : ℕ) (raw : Bytes) : Prop where
  pos : 0 < raw.length
  short : raw.length ≤ 4
  value : beValue raw = n
  leading : raw.head? ≠ some 0
  long : 128 ≤ n

/-- A length without a leading zero is as great as its octets let it be. -/
theorem LongLength.bounds {n : ℕ} {raw : Bytes} (h : LongLength n raw) :
    256 ^ (raw.length - 1) ≤ n ∧ n < 256 ^ raw.length := by
  have hlt := beValue_lt raw
  rw [h.value] at hlt
  refine ⟨?_, hlt⟩
  have hpos := h.pos
  have hleading := h.leading
  have hvalue := h.value
  cases raw with
  | nil => simp at hpos
  | cons b bs =>
    have hb : 1 ≤ b.toNat := by
      by_contra hzero
      have hb0 : b = 0 := UInt8.toNat_inj.mp (by
        rw [UInt8.toNat_zero]
        omega)
      rw [hb0] at hleading
      exact hleading rfl
    rw [beValue_cons] at hvalue
    rw [List.length_cons, Nat.add_sub_cancel]
    calc 256 ^ bs.length
        = 1 * 256 ^ bs.length := (Nat.one_mul _).symm
      _ ≤ b.toNat * 256 ^ bs.length := Nat.mul_le_mul_right _ hb
      _ ≤ n := by omega

theorem LongLength.encode {n : ℕ} {raw : Bytes} (h : LongLength n raw) :
    encodeLength n = UInt8.ofNat (128 + raw.length) :: raw := by
  obtain ⟨hlow, hhigh⟩ := h.bounds
  have hpos := h.pos
  have hshort := h.short
  have hlong := h.long
  have hraw := beBytes_beValue raw
  rw [h.value] at hraw
  have hlen : raw.length = 1 ∨ raw.length = 2 ∨ raw.length = 3 ∨ raw.length = 4 := by omega
  unfold encodeLength
  obtain hlen | hlen | hlen | hlen := hlen
  all_goals
    rw [hlen] at hlow hhigh hraw ⊢
    norm_num at hlow hhigh
    rw [hraw]
    norm_num
    split_ifs <;> first | rfl | omega

/-- A length of four octets that is too great for the short form has a long one. -/
theorem exists_longLength {n : ℕ} (hlong : 128 ≤ n) (hn : n < 2 ^ 32) : ∃ raw, LongLength n raw := by
  have hmake : ∀ w, 0 < w → w ≤ 4 → 256 ^ (w - 1) ≤ n → n < 256 ^ w → LongLength n (beBytes w n) := by
    intro w hpos hshort hlow hhigh
    have hlen := beBytes_length w n
    have hvalue := beValue_beBytes hhigh
    refine ⟨by omega, by omega, hvalue, ?_, hlong⟩
    intro hhead
    cases hraw : beBytes w n with
    | nil =>
      rw [hraw, List.length_nil] at hlen
      omega
    | cons b bs =>
      rw [hraw, List.head?_cons, Option.some.injEq] at hhead
      rw [hraw, beValue_cons, hhead] at hvalue
      rw [hraw, List.length_cons] at hlen
      have hlt := beValue_lt bs
      have hbs : bs.length = w - 1 := by omega
      rw [hbs] at hlt hvalue
      simp only [UInt8.toNat_zero, Nat.zero_mul, Nat.zero_add] at hvalue
      omega
  by_cases h1 : n < 256
  · exact ⟨_, hmake 1 (by norm_num) (by norm_num) (by norm_num; omega) (by omega)⟩
  by_cases h2 : n < 256 ^ 2
  · exact ⟨_, hmake 2 (by norm_num) (by norm_num) (by norm_num; omega) (by omega)⟩
  by_cases h3 : n < 256 ^ 3
  · exact ⟨_, hmake 3 (by norm_num) (by norm_num) (by norm_num; omega) (by omega)⟩
  · exact ⟨_, hmake 4 (by norm_num) (by norm_num) (by norm_num; omega) (by omega)⟩

/-- A length that is read is in its minimal form. -/
theorem readLength_sound {n : ℕ} {c c' : Cursor} (hc : c.Inside) (h : readLength c = .ok (n, c')) :
    n < 2 ^ 32 ∧ c.rest = encodeLength n ++ c'.rest ∧ c' = c.skip (encodeLength n).length := by
  unfold readLength at h
  obtain ⟨first, r, hr, h⟩ := Reader.byte_bind_eq_ok.mp h
  obtain ⟨hindefinite, h⟩ := Reader.require_bind_eq_ok.mp h
  have hlt : first.toNat < 256 := first.toNat_lt
  have hrest := Cursor.skip_one_rest hr
  by_cases hshort : first < 0x80
  · have hfirst : first.toNat < 128 := UInt8.lt_iff_toNat_lt.mp hshort
    rw [if_pos hshort] at h
    obtain ⟨rfl, rfl⟩ := Reader.pure_eq_ok.mp h
    have henc : encodeLength first.toNat = [first] := by
      unfold encodeLength
      rw [if_pos hfirst, UInt8.ofNat_toNat]
    rw [henc, hrest, hr]
    exact ⟨by omega, rfl, rfl⟩
  · rw [if_neg hshort] at h
    have hfirst : 128 ≤ first.toNat := by
      have hnot : ¬first.toNat < 128 := fun hlt' => hshort (UInt8.lt_iff_toNat_lt.mpr hlt')
      omega
    have hne : first.toNat ≠ 128 := fun h128 => hindefinite (UInt8.toNat_inj.mp h128)
    have hmod : first.toNat % 128 = first.toNat - 128 := by omega
    obtain ⟨hcount, h⟩ := Reader.require_bind_eq_ok.mp h
    obtain ⟨raw, c₁, hraw, h⟩ := Reader.bind_eq_ok.mp h
    obtain ⟨hleading, h⟩ := Reader.require_bind_eq_ok.mp h
    obtain ⟨hlong, h⟩ := Reader.require_bind_eq_ok.mp h
    obtain ⟨rfl, rfl⟩ := Reader.pure_eq_ok.mp h
    rw [seven_bits, hmod] at hcount hraw
    obtain ⟨hleft, hbytes, hskip⟩ := (Reader.times_byte_eq_ok (Cursor.skip_one_inside hc hr)).mp hraw
    have hlen : raw.length = first.toNat - 128 := by
      rw [hbytes, List.length_take, Cursor.rest_length]
      omega
    have hlength : LongLength (beValue raw) raw := ⟨by omega, by omega, rfl, hleading, hlong⟩
    have hhead : UInt8.ofNat (128 + raw.length) = first := by
      apply UInt8.toNat_inj.mp
      rw [UInt8.toNat_ofNat', hlen]
      omega
    have henc : encodeLength (beValue raw) = first :: raw := by rw [hlength.encode, hhead]
    have hfold : raw.foldl (fun value b => value * 256 + b.toNat) 0 = beValue raw := rfl
    rw [hfold, henc, hskip, ← hlen]
    refine ⟨?_, ?_, ?_⟩
    · have hbound := beValue_lt raw
      have hpow : 256 ^ raw.length ≤ 256 ^ 4 := Nat.pow_le_pow_right (by norm_num) hlength.short
      omega
    · rw [hlen, Cursor.skip_rest, hrest, hr, List.cons_append, hbytes, hrest, List.take_append_drop]
    · rw [Cursor.skip_skip, List.length_cons, Nat.add_comm]

/-- A length of four octets is read from its minimal form. -/
theorem readLength_complete {n : ℕ} (hn : n < 2 ^ 32) {c : Cursor} {r : Bytes} (hc : c.Inside)
    (hr : c.rest = encodeLength n ++ r) : readLength c = .ok (n, c.skip (encodeLength n).length) := by
  by_cases hshort : n < 128
  · have henc : encodeLength n = [UInt8.ofNat n] := by
      unfold encodeLength
      rw [if_pos hshort]
    have hvalue : (UInt8.ofNat n).toNat = n := by
      rw [UInt8.toNat_ofNat']
      omega
    have hlow : UInt8.ofNat n < 0x80 := by
      rw [UInt8.lt_iff_toNat_lt, hvalue]
      exact hshort
    rw [henc] at hr ⊢
    unfold readLength
    refine Reader.byte_bind_eq_ok.mpr ⟨_, r, hr, Reader.require_bind_eq_ok.mpr ⟨?_, ?_⟩⟩
    · intro h128
      rw [h128] at hlow
      exact absurd hlow (by decide)
    · rw [if_pos hlow, hvalue]
      rfl
  · obtain ⟨raw, hlength⟩ := exists_longLength (by omega) hn
    have hpos := hlength.pos
    have hfour := hlength.short
    have hvalue : (UInt8.ofNat (128 + raw.length)).toNat = 128 + raw.length := by
      rw [UInt8.toNat_ofNat']
      omega
    have hhigh : ¬UInt8.ofNat (128 + raw.length) < 0x80 := by
      rw [UInt8.lt_iff_toNat_lt, hvalue]
      have h80 : (0x80 : UInt8).toNat = 128 := rfl
      omega
    rw [hlength.encode] at hr ⊢
    have hrest : (c.skip 1).rest = raw ++ r := Cursor.skip_one_rest hr
    have hin := Cursor.skip_one_inside hc hr
    have hread : Reader.times derByte raw.length (c.skip 1) = .ok (raw, (c.skip 1).skip raw.length) := by
      have hlen := (c.skip 1).rest_length
      rw [hrest, List.length_append] at hlen
      refine (Reader.times_byte_eq_ok hin).mpr ⟨by omega, ?_, rfl⟩
      rw [hrest, List.take_left]
    have hcount : 128 + raw.length &&& 0x7f = raw.length := by
      rw [seven_bits]
      omega
    have hfold : raw.foldl (fun value b => value * 256 + b.toNat) 0 = n := hlength.value
    unfold readLength
    refine Reader.byte_bind_eq_ok.mpr ⟨_, raw ++ r, hr, Reader.require_bind_eq_ok.mpr ⟨?_, ?_⟩⟩
    · intro h128
      rw [h128] at hvalue
      have h80 : (0x80 : UInt8).toNat = 128 := rfl
      omega
    · rw [if_neg hhigh, hvalue, hcount]
      refine Reader.require_bind_eq_ok.mpr ⟨hfour, Reader.bind_eq_ok.mpr ⟨raw, _, hread, ?_⟩⟩
      refine Reader.require_bind_eq_ok.mpr ⟨hlength.leading, Reader.require_bind_eq_ok.mpr ⟨?_, ?_⟩⟩
      · rw [hfold]
        exact hlength.long
      · rw [hfold, Cursor.skip_skip, List.length_cons, Nat.add_comm 1]
        rfl

/-! ## Nodes -/

/-- How nodes are laid out. -/
def derLayout : Layout DerNode where
  encode := encodeDer
  size := nodeCount
  height := nodeDepth

@[simp] theorem derLayout_encode : derLayout.encode = encodeDer := rfl
@[simp] theorem derLayout_size : derLayout.size = nodeCount := rfl
@[simp] theorem derLayout_height : derLayout.height = nodeDepth := rfl

/-- `item` reads the well-formed trees that lie ahead and nothing else. -/
abbrev ReadsNodes (limits : DerLimits) (bound levels : ℕ) (item : DerReader DerNode) : Prop :=
  derLayout.Reads DerNode.WellFormed limits.maxNodes bound levels id item

theorem encodeDer_pos (node : DerNode) : 0 < (encodeDer node).length := by
  unfold encodeDer encodeIdentifier
  split_ifs <;> simp

theorem nodeCount_pos (node : DerNode) : 0 < nodeCount node := by
  cases node
  rw [nodeCount]
  omega

theorem nodeDepth_lt {tagClass : DerTagClass} {constructed : Bool} {tagNumber levels : ℕ} {content : Bytes}
    {children : List DerNode} : nodeDepth (.mk tagClass constructed tagNumber content children) < levels + 1 ↔
      ∀ child ∈ children, nodeDepth child < levels := by
  have hmax : ∀ l : List ℕ, l.foldr max 0 < levels + 1 ↔ ∀ x ∈ l, x < levels + 1 := by
    intro l
    induction l with
    | nil => simp
    | cons x l ih =>
      rw [List.foldr_cons, List.forall_mem_cons, ← ih]
      omega
  rw [nodeDepth, hmax]
  simp

section Nodes

variable {limits : DerLimits} {bound levels : ℕ} {item : DerReader DerNode} {tagClass : DerTagClass}
  {constructed : Bool} {tagNumber : ℕ} {c c' : Cursor} {node : DerNode}

/-- A tree that lies ahead of `c` but for its identifier. -/
structure Tailed (limits : DerLimits) (levels : ℕ) (c c' : Cursor) (node : DerNode) : Prop where
  wellFormed : node.WellFormed
  rest : c.rest = encodeLength node.content.length ++ node.content ++ c'.rest
  after : c' = (c.skip (encodeLength node.content.length ++ node.content).length).counted (nodeCount node - 1)
  nodes : ((c.count + (nodeCount node - 1) : ℕ) : ℤ) ≤ limits.maxNodes
  depth : nodeDepth node < levels + 1

/-- The children that are read make up the content of a constructed node. -/
theorem readChildren_sound (hitem : ReadsNodes limits bound levels item) (tagClass : DerTagClass)
    {content : Bytes}
    {children : List DerNode} (htag : tagNumber ≤ 0x0fffffff) (hlength : content.length < 2 ^ 32)
    (hcount : (c.count : ℤ) ≤ limits.maxNodes)
    (h : readChildren item constructed content c = .ok (children, c')) :
    (DerNode.mk tagClass constructed tagNumber content children).WellFormed ∧
      c' = c.counted (children.map nodeCount).sum ∧
      ((c.count + (children.map nodeCount).sum : ℕ) : ℤ) ≤ limits.maxNodes ∧
      ∀ child ∈ children, nodeDepth child < levels := by
  unfold readChildren at h
  cases constructed with
  | false =>
    obtain ⟨rfl, rfl⟩ := Reader.pure_eq_ok.mp h
    exact ⟨.primitive htag hlength, rfl, hcount, by simp⟩
  | true =>
    obtain ⟨c₁, hread, rfl⟩ := Reader.within_eq_ok.mp h
    have hinner : (({ buf := content, pos := 0, count := c.count } : Cursor).count : ℤ) ≤ limits.maxNodes :=
      hcount
    obtain ⟨nodes, hnodes, hcontent, hmap, rfl⟩ := Layout.untilEnd_sound hitem (Nat.zero_le _) hinner hread
    rw [List.map_id] at hmap
    subst hmap
    exact ⟨.constructed htag hlength hcontent hnodes.valid, rfl, hnodes.items, hnodes.depth⟩

/-- What `readContent` reads completes a well-formed tree. -/
theorem readContent_sound (hitem : ReadsNodes limits bound levels item) (hc : c.Inside)
    (htag : tagNumber ≤ 0x0fffffff) (hcount : (c.count : ℤ) ≤ limits.maxNodes)
    (h : readContent item tagClass constructed tagNumber c = .ok (node, c')) :
    node.tagClass = tagClass ∧ node.constructed = constructed ∧ node.tagNumber = tagNumber ∧
      Tailed limits levels c c' node := by
  unfold readContent at h
  obtain ⟨length, c₁, hlength, h⟩ := Reader.bind_eq_ok.mp h
  obtain ⟨content, c₂, hcontent, h⟩ := Reader.bind_eq_ok.mp h
  obtain ⟨children, c₃, hchildren, h⟩ := Reader.bind_eq_ok.mp h
  obtain ⟨rfl, rfl⟩ := Reader.pure_eq_ok.mp h
  obtain ⟨hbound, hrest, hskip⟩ := readLength_sound hc hlength
  have hin : c₁.Inside := by
    rw [hskip]
    exact Cursor.skip_inside_of_append hc hrest
  obtain ⟨hleft, hbytes, rfl⟩ := (Reader.bytes_eq_ok hin).mp hcontent
  have hlen : content.length = length := by
    rw [hbytes, List.length_take, Cursor.rest_length]
    omega
  have hcount₂ : ((c₁.skip length).count : ℤ) ≤ limits.maxNodes := by
    rw [hskip]
    exact hcount
  obtain ⟨hwell, rfl, hnodes, hdepth⟩ :=
    readChildren_sound hitem tagClass htag (by rwa [hlen]) hcount₂ hchildren
  refine ⟨rfl, rfl, rfl, hwell, ?_, ?_, ?_, nodeDepth_lt.mpr hdepth⟩
  · rw [Cursor.counted_rest, Cursor.skip_rest, DerNode.content, hlen, List.append_assoc, hbytes,
      List.take_append_drop, ← hrest]
  · rw [hskip, Cursor.skip_skip, DerNode.content, List.length_append, hlen, nodeCount, Nat.add_sub_cancel_left]
  · rw [nodeCount, Nat.add_sub_cancel_left]
    rw [hskip] at hnodes
    exact hnodes

/-- A tree that lies ahead of a cursor. -/
abbrev NodeLies (limits : DerLimits) (levels : ℕ) (c : Cursor) (nodes : List DerNode) : Prop :=
  derLayout.Ahead DerNode.WellFormed limits.maxNodes levels c nodes

/-- The children of a well-formed tree are read from its content. -/
theorem readChildren_complete (hitem : ReadsNodes limits bound levels item) {content : Bytes}
    {children : List DerNode} (hwell : (DerNode.mk tagClass constructed tagNumber content children).WellFormed)
    (hbound : content.length ≤ bound)
    (hnodes : ((c.count + (children.map nodeCount).sum : ℕ) : ℤ) ≤ limits.maxNodes)
    (hdepth : ∀ child ∈ children, nodeDepth child < levels) :
    readChildren item constructed content c = .ok (children, c.counted (children.map nodeCount).sum) := by
  cases hwell with
  | primitive htag hlength => rfl
  | constructed htag hlength hcontent h =>
    let inner : Cursor := { buf := content, pos := 0, count := c.count }
    have hrest : inner.rest = children.flatMap derLayout.encode := hcontent
    have hlies : NodeLies limits levels inner children := ⟨h, ⟨[], by rw [hrest, List.append_nil]⟩, hnodes, hdepth⟩
    have hread := Layout.untilEnd_complete hitem encodeDer_pos (Nat.zero_le _) hbound hlies hrest
      (le_of_eq (Nat.sub_zero _))
    rw [List.map_id] at hread
    exact Reader.within_eq_ok.mpr ⟨_, hread, rfl⟩

/-- What follows the identifier of a well-formed tree is read. -/
theorem readContent_complete (hitem : ReadsNodes limits bound levels item) (hc : c.Inside)
    (hbuf : c.buf.length ≤ bound) {r : Bytes} (hwell : node.WellFormed)
    (hrest : c.rest = encodeLength node.content.length ++ node.content ++ r)
    (hnodes : ((c.count + (nodeCount node - 1) : ℕ) : ℤ) ≤ limits.maxNodes)
    (hdepth : nodeDepth node < levels + 1) :
    readContent item node.tagClass node.constructed node.tagNumber c =
      .ok (node, (c.skip (encodeLength node.content.length ++ node.content).length).counted
        (nodeCount node - 1)) := by
  obtain ⟨tagClass, constructed, tagNumber, content, children⟩ := node
  simp only [DerNode.tagClass, DerNode.constructed, DerNode.tagNumber, DerNode.content] at hrest ⊢
  rw [nodeCount, Nat.add_sub_cancel_left] at hnodes ⊢
  rw [List.append_assoc] at hrest
  have hlength : content.length < 2 ^ 32 := by
    cases hwell with
    | primitive htag hlength => exact hlength
    | constructed htag hlength hcontent h => exact hlength
  have hsize := c.rest_length
  rw [hrest, List.length_append, List.length_append] at hsize
  unfold Cursor.remaining at hsize
  have hread₁ := readLength_complete hlength hc hrest
  have hin := Cursor.skip_inside_of_append hc hrest
  have hrest₁ := Cursor.skip_rest_of_append hrest
  have hlen₁ := (c.skip (encodeLength content.length).length).rest_length
  rw [hrest₁, List.length_append] at hlen₁
  have hread₂ := readChildren_complete (c := (c.skip (encodeLength content.length).length).skip content.length)
    hitem hwell (by omega) hnodes (nodeDepth_lt.mp hdepth)
  unfold readContent
  refine Reader.bind_eq_ok.mpr ⟨_, _, hread₁, Reader.bind_eq_ok.mpr ⟨content, _, ?_,
    Reader.bind_eq_ok.mpr ⟨children, _, hread₂, ?_⟩⟩⟩
  · refine (Reader.bytes_eq_ok hin).mpr ⟨by omega, ?_, rfl⟩
    rw [hrest₁, List.take_left]
  · rw [Cursor.skip_skip, List.length_append]
    rfl

/-- The cursor after a node is that after its identifier and what follows it. -/
theorem after_node {first : UInt8} {tail payload : Bytes} (h : encodeDer node = first :: (tail ++ payload)) :
    ((((c.counted 1).skip 1).skip tail.length).skip payload.length).counted (nodeCount node - 1) =
      derLayout.after c [node] := by
  have hpos := nodeCount_pos node
  have hone : 1 + (nodeCount node - 1) = nodeCount node := by omega
  have hbytes : 1 + tail.length + payload.length = (encodeDer node).length := by
    rw [h, List.length_cons, List.length_append]
    omega
  rw [Layout.after_singleton, derLayout_encode, derLayout_size]
  simp only [Cursor.counted_skip, Cursor.skip_skip, Cursor.counted_counted, hone]
  rw [← hbytes, Nat.add_assoc]

/-- One level up: what `readNode` reads lies ahead. -/
theorem readNode_sound (hitem : ReadsNodes limits bound levels (readNode limits levels)) (hc : c.Inside)
    (h : readNode limits (levels + 1) c = .ok (node, c')) :
    ∃ x, NodeLies limits (levels + 1) c [x] ∧ node = id x ∧ c' = derLayout.after c [x] := by
  unfold readNode at h
  obtain ⟨_, c₁, htally, h⟩ := Reader.bind_eq_ok.mp h
  obtain ⟨hcount, hsame⟩ := Reader.tally_eq_ok.mp htally
  dsimp only at hsame
  subst hsame
  obtain ⟨first, r, hr, h⟩ := Reader.byte_bind_eq_ok.mp h
  obtain ⟨tag, c₂, htag, h⟩ := Reader.bind_eq_ok.mp h
  have hin : ((c.counted 1).skip 1).Inside := Cursor.skip_one_inside hc hr
  obtain ⟨tail, hidentifier, hle, hrest₁, hskip⟩ := readTagNumber_sound hin htag
  have hin₂ : c₂.Inside := by
    rw [hskip]
    exact Cursor.skip_inside_of_append hin hrest₁
  have hcount₂ : (c₂.count : ℤ) ≤ limits.maxNodes := by
    rw [hskip]
    exact hcount
  obtain ⟨hclass, hform, hnumber, hnode⟩ := readContent_sound hitem hin₂ hle hcount₂ h
  have hpos := nodeCount_pos node
  have hone : 1 + (nodeCount node - 1) = nodeCount node := by omega
  have henc : encodeDer node = first :: (tail ++ (encodeLength node.content.length ++ node.content)) := by
    unfold encodeDer
    rw [hclass, hform, hnumber, List.append_assoc]
    exact congrArg (· ++ (encodeLength node.content.length ++ node.content)) hidentifier
  have hrest : c.rest = derLayout.encode node ++ c'.rest := by
    have hr' : c.rest = first :: r := hr
    have hr₁ : r = tail ++ c₂.rest := by
      rw [← Cursor.skip_one_rest hr]
      exact hrest₁
    rw [hr', hr₁, hnode.rest, derLayout_encode, henc]
    simp
  have hnodes : ((c.count + derLayout.size node : ℕ) : ℤ) ≤ limits.maxNodes := by
    have hitems := hnode.nodes
    rw [hskip] at hitems
    simp only [Cursor.skip_count, Cursor.counted_count] at hitems
    rw [derLayout_size]
    omega
  refine ⟨node, Layout.ahead_singleton hnode.wellFormed hrest hnodes hnode.depth, rfl, ?_⟩
  rw [hnode.after, hskip]
  exact after_node henc

/-- One level up: a tree that lies ahead is read. -/
theorem readNode_complete (hitem : ReadsNodes limits bound levels (readNode limits levels)) (hc : c.Inside)
    (hbuf : c.buf.length ≤ bound) (h : NodeLies limits (levels + 1) c [node]) :
    readNode limits (levels + 1) c = .ok (id node, derLayout.after c [node]) := by
  have hwell := h.valid_singleton
  have hnodes : ((c.count + nodeCount node : ℕ) : ℤ) ≤ limits.maxNodes := h.items_singleton
  have hdepth : nodeDepth node < levels + 1 := h.depth_singleton
  have hpos := nodeCount_pos node
  have hone : 1 + (nodeCount node - 1) = nodeCount node := by omega
  obtain ⟨r, hr⟩ : ∃ r, c.rest = encodeDer node ++ r := h.rest_singleton
  have htag : node.tagNumber ≤ 0x0fffffff := by
    cases hwell with
    | primitive htag hlength => exact htag
    | constructed htag hlength hcontent h => exact htag
  obtain ⟨first, tail, hidentifier, hclass, hform, hread⟩ :=
    readTagNumber_complete node.tagClass node.constructed htag
  have henc : encodeDer node = first :: (tail ++ (encodeLength node.content.length ++ node.content)) := by
    unfold encodeDer
    rw [hidentifier, List.append_assoc]
    rfl
  have hr₁ : (c.counted 1).rest =
      first :: (tail ++ (encodeLength node.content.length ++ node.content ++ r)) := by
    rw [Cursor.counted_rest, hr, henc]
    simp
  have hin : ((c.counted 1).skip 1).Inside := Cursor.skip_one_inside hc hr₁
  have hrest₁ := Cursor.skip_one_rest hr₁
  have htally : Reader.tally limits.maxNodes (derError s!"more than {limits.maxNodes} elements") c =
      .ok ((), c.counted 1) :=
    Reader.tally_eq_ok.mpr ⟨by omega, rfl⟩
  have hfirst : derByte (c.counted 1) = .ok (first, (c.counted 1).skip 1) :=
    Reader.byte_eq_ok.mpr ⟨⟨_, hr₁⟩, rfl⟩
  have hnumber := hread _ _ hrest₁
  have hcontent := readContent_complete hitem (Cursor.skip_inside_of_append hin hrest₁) hbuf hwell
    (Cursor.skip_rest_of_append hrest₁)
    (by simp only [Cursor.skip_count, Cursor.counted_count]; omega) hdepth
  have hclass' : TAG_CLASSES (first.toNat >>> 6 &&& 0x03) = node.tagClass := hclass
  have hform' : decide (first.toNat &&& 0x20 ≠ 0) = node.constructed := hform
  rw [readNode, Reader.bind_of_ok htally, Reader.bind_of_ok hfirst, Reader.bind_of_ok hnumber, hclass', hform',
    hcontent, after_node henc]
  rfl

end Nodes

/-- At every level `readNode` reads the trees that lie ahead and nothing else. -/
theorem readsNodes (limits : DerLimits) (bound levels : ℕ) :
    ReadsNodes limits bound levels (readNode limits levels) := by
  induction levels with
  | zero =>
    constructor
    · intro c c' w _ h
      exact (Reader.raise_eq_ok.mp h).elim
    · intro c x _ _ h
      exact absurd h.depth_singleton (Nat.not_lt_zero _)
  | succ levels ih =>
    constructor
    · intro c c' w hc h
      exact readNode_sound ih hc h
    · intro c x hc hbuf h
      exact readNode_complete ih hc hbuf h

/-! ## No access outside of the buffer, and no endless loop -/

/-- The loop of the tag number ends in its five turns. -/
theorem safe_readTagOctets {turns octets : ℕ} (h : turns + octets = 5) (hoctets : octets ≤ 4) (value : ℕ) :
    Safe (readTagOctets turns octets value) := by
  induction turns generalizing octets value with
  | zero => omega
  | succ turns ih =>
    unfold readTagOctets
    refine Safe.bind (Safe.byte _) fun b => Safe.bind (Safe.require _ _) fun _ => ?_
    refine Safe.bind (Safe.require _ _) fun _ => Safe.ite (Safe.pure _) ?_
    -- the check on the octets stops the loop before its turns are over
    exact Safe.require_bind fun hmore => ih (by omega) hmore _

theorem safe_readTagNumber (first : UInt8) : Safe (readTagNumber first) := by
  unfold readTagNumber
  refine Safe.ite (Safe.pure _) (Safe.bind (safe_readTagOctets rfl (by norm_num) 0) fun value => ?_)
  exact Safe.bind (Safe.require _ _) fun _ => Safe.pure _

theorem safe_readLength : Safe readLength := by
  unfold readLength
  refine Safe.bind (Safe.byte _) fun first => Safe.bind (Safe.require _ _) fun _ => ?_
  refine Safe.ite (Safe.pure _) (Safe.bind (Safe.require _ _) fun _ => ?_)
  refine Safe.bind (Safe.times (Safe.byte _) _) fun bytes => Safe.bind (Safe.require _ _) fun _ => ?_
  exact Safe.bind (Safe.require _ _) fun _ => Safe.pure _

/-- The loop over the children ends: each of them takes a byte. -/
theorem safe_readNode (limits : DerLimits) (levels : ℕ) : Safe (readNode limits levels) := by
  induction levels with
  | zero => exact Safe.raise _
  | succ levels ih =>
    have hprogress : ∀ c node c', c.Inside → readNode limits levels c = .ok (node, c') →
        c'.remaining < c.remaining := by
      intro c node c' hc h
      obtain ⟨x, hx, -, rfl⟩ := (readsNodes limits 0 levels).sound hc h
      obtain ⟨r, hr⟩ := hx.rest
      have hpos := encodeDer_pos x
      have hlen := c.rest_length
      have hlen' := (derLayout.after c [x]).rest_length
      rw [hr, List.length_append, List.flatMap_singleton, derLayout_encode] at hlen
      rw [Layout.after_rest hr] at hlen'
      omega
    have hchildren : ∀ constructed content, Safe (readChildren (readNode limits levels) constructed content) := by
      intro constructed content
      unfold readChildren
      refine Safe.ite (Safe.within fun n => ?_) (Safe.pure _)
      exact Safe.untilEnd ih hprogress (Nat.zero_le _) (le_of_eq (Nat.sub_zero _))
    unfold readNode
    refine Safe.bind (Safe.tally _ _) fun _ => Safe.bind (Safe.byte _) fun first => ?_
    refine Safe.bind (safe_readTagNumber first) fun tag => ?_
    unfold readContent
    refine Safe.bind safe_readLength fun length => Safe.bind (Safe.bytes _ _) fun content => ?_
    exact Safe.bind (hchildren _ content) fun children => Safe.pure _

/-! ## The parser -/

section Parser

variable {input : Uint8Array} {limits : PartialDerLimits} {node : DerNode}

/-- The parser never reads outside of its input, and it ends. -/
theorem parseDer_ne_fault : parseDer input limits ≠ .error .fault := by
  have hsafe : Safe (readElement limits.effective) := by
    refine Safe.bind (safe_readNode _ _) fun node => Safe.bind ?_ fun _ => Safe.pure _
    exact Safe.bind Safe.remaining fun left => Safe.require _ _
  unfold parseDer
  split_ifs
  · simp
  · exact hsafe.run_ne_fault input.bytes

/-- To parse is to read one node, with nothing left. -/
theorem parseDer_eq_ok_iff_read :
    parseDer input limits = .ok node ↔ (input.bytes.length : ℤ) ≤ limits.effective.maxBytes ∧
      ∃ c, readNode limits.effective (limits.effective.maxDepth + 1).toNat (Cursor.start input.bytes) =
        .ok (node, c) ∧ c.remaining = 0 := by
  unfold parseDer
  by_cases hlimit : (input.bytes.length : ℤ) ≤ limits.effective.maxBytes
  · rw [if_neg (by omega), Reader.run_eq_ok]
    unfold readElement derRequireEnd
    simp only [Reader.bind_eq_ok, Reader.remaining_eq_ok, Reader.require_eq_ok, Reader.pure_eq_ok,
      Prod.mk.injEq]
    constructor
    · rintro ⟨c, node', c₁, hread, _, c₂, ⟨left, c₃, ⟨rfl, rfl⟩, hend, hsame⟩, rfl, rfl⟩
      exact ⟨hlimit, c₃, hread, hend⟩
    · rintro ⟨-, c, hread, hend⟩
      exact ⟨c, node, c, hread, (), c, ⟨_, c, ⟨rfl, rfl⟩, hend, rfl⟩, rfl, rfl⟩
  · rw [if_pos (by omega)]
    simp [hlimit]

/-- The parser returns a tree exactly for the encoding of that tree, when it is well formed and within the
limits. -/
theorem parseDer_eq_ok : parseDer input limits = .ok node ↔
    node.WellFormed ∧ DerFits limits.effective node ∧ encodeDer node = input.bytes := by
  have hreads := readsNodes limits.effective input.bytes.length (limits.effective.maxDepth + 1).toNat
  rw [parseDer_eq_ok_iff_read]
  constructor
  · rintro ⟨hbytes, c, hread, hend⟩
    obtain ⟨x, hx, hnode, rfl⟩ := hreads.sound (Cursor.start_inside _) hread
    obtain rfl : node = x := hnode
    obtain ⟨r, hr⟩ := hx.rest
    have hnil : r = [] := by
      have hlen := (derLayout.after (Cursor.start input.bytes) [node]).rest_length
      rw [Layout.after_rest hr, hend] at hlen
      exact List.length_eq_zero_iff.mp hlen
    have hinput : encodeDer node = input.bytes := by
      rw [Cursor.start_rest, hnil] at hr
      simpa using hr.symm
    have hitems := hx.items_singleton
    have hdepth : nodeDepth node < (limits.effective.maxDepth + 1).toNat := hx.depth_singleton
    refine ⟨hx.valid_singleton, ⟨?_, ?_, by omega⟩, hinput⟩
    · rw [hinput]
      exact hbytes
    · simpa using hitems
  · rintro ⟨hwell, hfits, henc⟩
    have hdepth := hfits.depth
    have hlevels : nodeDepth node < (limits.effective.maxDepth + 1).toNat := by omega
    have hrest : (Cursor.start input.bytes).rest = derLayout.encode node ++ [] := by
      rw [Cursor.start_rest, derLayout_encode, henc, List.append_nil]
    have hlies : NodeLies limits.effective (limits.effective.maxDepth + 1).toNat (Cursor.start input.bytes)
        [node] :=
      Layout.ahead_singleton hwell hrest (by simpa using hfits.nodes) hlevels
    have hbytes := hfits.bytes
    rw [henc] at hbytes
    refine ⟨hbytes, _, hreads.complete (Cursor.start_inside _) le_rfl hlies, ?_⟩
    have hend : (derLayout.after (Cursor.start input.bytes) [node]).rest = [] :=
      Layout.after_rest (by simp [henc])
    rw [← Cursor.rest_length, hend]
    rfl

/-- No two well-formed trees have one encoding. -/
theorem encodeDer_injective {node' : DerNode} (hwell : node.WellFormed) (hwell' : node'.WellFormed)
    (henc : encodeDer node = input.bytes) (henc' : encodeDer node' = input.bytes) : node = node' := by
  let limits : PartialDerLimits :=
    { maxDepth := some (nodeDepth node + nodeDepth node')
      maxNodes := some (nodeCount node + nodeCount node')
      maxBytes := some input.bytes.length }
  have hparse : parseDer input limits = .ok node := by
    refine parseDer_eq_ok.mpr ⟨hwell, ⟨?_, ?_, ?_⟩, henc⟩
    · rw [henc]
      exact le_rfl
    · simp [limits, PartialDerLimits.effective]
    · simp [limits, PartialDerLimits.effective]
  have hparse' : parseDer input limits = .ok node' := by
    refine parseDer_eq_ok.mpr ⟨hwell', ⟨?_, ?_, ?_⟩, henc'⟩
    · rw [henc']
      exact le_rfl
    · simp [limits, PartialDerLimits.effective]
    · simp [limits, PartialDerLimits.effective]
  rw [hparse, Except.ok.injEq] at hparse'
  exact hparse'

/-- A tree is returned exactly from its encoding, and every input that is no encoding within the limits is
refused with a `DerError`. -/
theorem parseDer_bijection :
    (∀ (limits : PartialDerLimits) (input : Uint8Array) (node : DerNode), parseDer input limits = .ok node ↔
      node.WellFormed ∧ DerFits limits.effective node ∧ encodeDer node = input.bytes) ∧
    ∀ (limits : PartialDerLimits) (input : Uint8Array),
      (∀ node : DerNode, node.WellFormed → DerFits limits.effective node → encodeDer node ≠ input.bytes) →
      ∃ e, parseDer input limits = .error (.raised e) := by
  constructor
  · intro limits input node
    exact parseDer_eq_ok
  · intro limits input hnone
    cases h : parseDer input limits with
    | ok node =>
      obtain ⟨hwell, hfits, henc⟩ := parseDer_eq_ok.mp h
      exact absurd henc (hnone node hwell hfits)
    | error e =>
      cases e with
      | raised e => exact ⟨e, rfl⟩
      | fault => exact absurd h parseDer_ne_fault

end Parser

end SdidBridge.Attestation
