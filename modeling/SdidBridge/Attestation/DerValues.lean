import Mathlib.Data.Nat.Log
import SdidBridge.Attestation.DerExact

/-!
# Typed values of DER nodes

The accessors of `der.ts` for integers, Booleans, strings and object identifiers. Those for octet and bit
strings refuse a constructed node, and a Boolean has no room for one; the others do not look at the form of
the node, so that a value of theirs has a second encoding wherever its content can also be read as nodes.
-/

namespace SdidBridge.Attestation

open Codec

/-! ## The accessors -/

/-- The name of a class in an error. -/
def DerTagClass.name : DerTagClass → String
  | .universal => "universal"
  | .application => "application"
  | .context => "context"
  | .privateUse => "private"

/-- The universal tag numbers of the accessors. -/
def DER_BOOLEAN : ℕ := 1

/-- `INTEGER`. -/
def DER_INTEGER : ℕ := 2

/-- `BIT STRING`. -/
def DER_BIT_STRING : ℕ := 3

/-- `OCTET STRING`. -/
def DER_OCTET_STRING : ℕ := 4

/-- `OBJECT IDENTIFIER`. -/
def DER_OID : ℕ := 6

/-- `ENUMERATED`. -/
def DER_ENUMERATED : ℕ := 10

/-- `if (!ok) throw new DerError(message)`. -/
def derCheck (ok : Prop) [Decidable ok] (message : String) : Except DerError Unit :=
  if ok then pure () else throw (derError message)

/-- `derExpect`. -/
def derExpect (node : DerNode) (tagClass : DerTagClass) (tagNumber : ℕ) (what : String) :
    Except DerError Unit :=
  derCheck (node.tagClass = tagClass ∧ node.tagNumber = tagNumber)
    s!"{what}: expected {tagClass.name} tag {tagNumber}, got {node.tagClass.name} {node.tagNumber}"

/-- `decodeTwosComplement`. -/
def decodeTwosComplement (content : Bytes) (what : String) : Except DerError ℤ := do
  derCheck (content.length ≠ 0) s!"{what}: empty integer"
  let first := (content.getD 0 0).toNat
  let second := (content.getD 1 0).toNat
  derCheck (¬(1 < content.length ∧
      ((first = 0x00 ∧ second &&& 0x80 = 0) ∨ (first = 0xff ∧ second &&& 0x80 ≠ 0))))
    s!"{what}: non-minimal integer encoding"
  let value := content.foldl (fun value byte => value <<< 8 ||| byte.toNat) 0
  pure (if first &&& 0x80 ≠ 0 then (value : ℤ) - 1 <<< (8 * content.length) else value)

/-- `derInteger`. -/
def derInteger (node : DerNode) (what : String) : Except DerError ℤ := do
  derExpect node .universal DER_INTEGER what
  decodeTwosComplement node.content what

/-- `derEnumerated`. -/
def derEnumerated (node : DerNode) (what : String) : Except DerError ℤ := do
  derExpect node .universal DER_ENUMERATED what
  let value ← decodeTwosComplement node.content what
  derCheck (0 ≤ value ∧ value ≤ 0xffff) s!"{what}: enumerated out of range"
  pure value

/-- `derBoolean`. -/
def derBoolean (node : DerNode) (what : String) : Except DerError Bool := do
  derExpect node .universal DER_BOOLEAN what
  derCheck (node.content.length = 1) s!"{what}: BOOLEAN must be one octet"
  let b := node.content.getD 0 0
  derCheck (b = 0x00 ∨ b = 0xff) s!"{what}: non-DER BOOLEAN encoding"
  pure (b = 0xff)

/-- `derOctetString`. -/
def derOctetString (node : DerNode) (what : String) : Except DerError Bytes := do
  derExpect node .universal DER_OCTET_STRING what
  derCheck (node.constructed = false) s!"{what}: constructed OCTET STRING is not DER"
  pure node.content

/-- `derBitString`. -/
def derBitString (node : DerNode) (what : String) : Except DerError Bytes := do
  derExpect node .universal DER_BIT_STRING what
  derCheck (node.constructed = false) s!"{what}: constructed BIT STRING is not DER"
  derCheck (1 ≤ node.content.length) s!"{what}: empty BIT STRING"
  let unused := node.content.getD 0 0
  derCheck (unused = 0) s!"{what}: {unused.toNat} unused bit(s) not supported"
  pure (node.content.drop 1)

/-! ## Numbers of the language

`Number(bigint)` rounds to a double: to 53 significant bits, ties to even. `String(number)` writes the
fewest decimal digits that are read back as the double, the nearest of these, and from `10 ^ 21` on with an
exponent. -/

/-- `Number(n)` for a bigint that is not negative. -/
def toNumber (n : ℕ) : ℕ :=
  if n < 2 ^ 53 then n
  else
    let unit := 2 ^ (Nat.log 2 n - 52)
    if n % unit < unit / 2 ∨ (n % unit = unit / 2 ∧ n / unit % 2 = 0) then n / unit * unit
    else (n / unit + 1) * unit

/-- The nearest to `x` of the multiples of `10 ^ zeros` on both sides of it that are read back as `x`, and the
even one of two that are as near. -/
def roundTrip (x zeros : ℕ) : Option ℕ :=
  let unit := 10 ^ zeros
  let below := x / unit * unit
  let above := below + unit
  let near :=
    if x - below < above - x ∨ (x - below = above - x ∧ x / unit % 2 = 0) then [below, above]
    else [above, below]
  near.find? fun y => toNumber y = x

/-- The shortest decimal that is read back as the double `x`, and how many zeros it ends with. -/
def shortestDecimal (x : ℕ) : ℕ → ℕ × ℕ
  | 0 => (x, 0)
  | zeros + 1 =>
    match roundTrip x (zeros + 1) with
    | some y => (y, zeros + 1)
    | none => shortestDecimal x zeros

/-- `String(x)` for a double that is an integer and not negative. -/
def numberToString (x : ℕ) : String :=
  if x < 2 ^ 53 then toString x
  else
    let (y, zeros) := shortestDecimal x (Nat.log 10 x + 1)
    if y < 10 ^ 21 then toString y
    else
      let digits := toString (y / 10 ^ zeros)
      let mantissa :=
        if digits.length = 1 then digits
        else (digits.take 1).toString ++ "." ++ (digits.drop 1).toString
      s!"{mantissa}e+{Nat.log 10 y}"

/-! ## Object identifiers -/

/-- The variables of the loop of `derOid`. -/
structure OidState where
  /-- The arcs so far. -/
  parts : List String
  /-- The sub-identifier that is read. -/
  value : ℕ
  /-- Whether an octet of it was read. -/
  started : Bool
  /-- Whether it is the first. -/
  first : Bool

/-- The two arcs in the first sub-identifier. -/
def firstArcs (value : ℕ) : List String :=
  let v := toNumber value
  let a1 := if 80 ≤ v then 2 else v / 40
  [toString a1, numberToString (toNumber (v - a1 * 40))]

/-- A turn of the loop of `derOid`. -/
def oidStep (what : String) (st : OidState) (b : UInt8) : Except DerError OidState := do
  derCheck (¬(st.started = false ∧ b = 0x80)) s!"{what}: non-minimal OID arc"
  let value := st.value <<< 7 ||| (b.toNat &&& 0x7f)
  derCheck (value ≤ 1 <<< 128) s!"{what}: OID arc too large"
  if b.toNat &&& 0x80 = 0 then
    pure
      { parts := st.parts ++ if st.first then firstArcs value else [toString value]
        value := 0
        started := false
        first := false }
  else pure { st with value, started := true }

/-- `derOid`. -/
def derOid (node : DerNode) (what : String) : Except DerError String := do
  derExpect node .universal DER_OID what
  derCheck (node.content.length ≠ 0) s!"{what}: empty OID"
  derCheck ((node.content.getLastD 0).toNat &&& 0x80 = 0) s!"{what}: truncated OID"
  let st ← node.content.foldlM (oidStep what) { parts := [], value := 0, started := false, first := true }
  pure (".".intercalate st.parts)

/-! ## What the accessors look at -/

theorem derCheck_bind_eq_ok {α : Type} {p : Prop} [Decidable p] {message : String}
    {f : Unit → Except DerError α} {a : α} : (derCheck p message >>= f) = .ok a ↔ p ∧ f () = .ok a := by
  unfold derCheck
  split_ifs with h
  · simp [h, bind, Except.bind, pure, Except.pure]
  · simp [h, bind, Except.bind, throw, throwThe, MonadExceptOf.throw]

theorem except_bind_eq_ok {ε α β : Type} {x : Except ε α} {f : α → Except ε β} {b : β} :
    (x >>= f) = .ok b ↔ ∃ a, x = .ok a ∧ f a = .ok b := by
  cases x with
  | error e => simp [bind, Except.bind]
  | ok a => simp [bind, Except.bind]

theorem except_pure_eq_ok {ε α : Type} {a a' : α} : (pure a : Except ε α) = .ok a' ↔ a' = a := by
  simp only [pure, Except.pure, Except.ok.injEq]
  exact eq_comm

/-- Whether the first identifier octet says that the content is made of nodes. -/
def formBit : Bytes → Bool
  | [] => false
  | first :: _ => formOf first

theorem formBit_encodeDer (node : DerNode) : formBit (encodeDer node) = node.constructed := by
  unfold encodeDer encodeIdentifier
  split_ifs with h
  · exact formOf_identifierOctet _ _ (by omega)
  · exact formOf_identifierOctet _ _ (by norm_num)

/-- Nodes of one tag and one content have one encoding exactly when they are of one form. -/
theorem encodeDer_eq_iff {node₁ node₂ : DerNode} (hclass : node₁.tagClass = node₂.tagClass)
    (hnumber : node₁.tagNumber = node₂.tagNumber) (hcontent : node₁.content = node₂.content) :
    encodeDer node₁ = encodeDer node₂ ↔ node₁.constructed = node₂.constructed := by
  constructor
  · intro h
    rw [← formBit_encodeDer node₁, ← formBit_encodeDer node₂, h]
  · intro h
    unfold encodeDer
    rw [hclass, hnumber, hcontent, h]

theorem derExpect_bind_eq_ok {α : Type} {node : DerNode} {tagClass : DerTagClass} {tagNumber : ℕ}
    {what : String} {f : Unit → Except DerError α} {a : α} :
    (derExpect node tagClass tagNumber what >>= f) = .ok a ↔
      (node.tagClass = tagClass ∧ node.tagNumber = tagNumber) ∧ f () = .ok a :=
  derCheck_bind_eq_ok

/-! ## Two's complement -/

/-- The number that octets are in two's complement. -/
def signedValue (content : Bytes) : ℤ :=
  if 128 ≤ (content.getD 0 0).toNat then (beValue content : ℤ) - 256 ^ content.length else beValue content

/-- The first of several octets is not a mere continuation of the sign. -/
def MinimalSigned (content : Bytes) : Prop :=
  content ≠ [] ∧ ¬(1 < content.length ∧
    (((content.getD 0 0).toNat = 0 ∧ (content.getD 1 0).toNat < 128) ∨
      ((content.getD 0 0).toNat = 255 ∧ 128 ≤ (content.getD 1 0).toNat)))

theorem decodeTwosComplement_spec {content : Bytes} {what : String} {v : ℤ}
    (h : decodeTwosComplement content what = .ok v) : MinimalSigned content ∧ v = signedValue content := by
  have hfirst : (content.getD 0 0).toNat < 256 := (content.getD 0 0).toNat_lt
  have hsecond : (content.getD 1 0).toNat < 256 := (content.getD 1 0).toNat_lt
  have hbit₀ := high_bit _ hfirst
  have hbit₁ := high_bit _ hsecond
  unfold decodeTwosComplement at h
  obtain ⟨hne, h⟩ := derCheck_bind_eq_ok.mp h
  obtain ⟨hminimal, h⟩ := derCheck_bind_eq_ok.mp h
  have hv := except_pure_eq_ok.mp h
  constructor
  · refine ⟨fun hnil => hne (by rw [hnil]; rfl), ?_⟩
    rintro ⟨hlen, ⟨h0, hlow⟩ | ⟨hff, hhigh⟩⟩
    · exact hminimal ⟨hlen, .inl ⟨h0, hbit₁.mpr hlow⟩⟩
    · exact hminimal ⟨hlen, .inr ⟨hff, fun hzero => absurd (hbit₁.mp hzero) (by omega)⟩⟩
  · rw [hv, foldl_shiftLeft_or]
    unfold signedValue
    have hpow : ((1 <<< (8 * content.length) : ℕ) : ℤ) = 256 ^ content.length := by
      rw [Nat.shiftLeft_eq, Nat.one_mul, pow_mul]
      norm_num
    by_cases hsign : 128 ≤ (content.getD 0 0).toNat
    · rw [if_pos (fun hzero => absurd (hbit₀.mp hzero) (by omega)), if_pos hsign, hpow]
    · rw [if_neg (fun hnot => hnot (hbit₀.mpr (by omega))), if_neg hsign]

/-- Octets hold the numbers that their width has room for. -/
theorem signedValue_bounds (b : UInt8) (bs : Bytes) :
    -(128 * 256 ^ bs.length : ℤ) ≤ signedValue (b :: bs) ∧ signedValue (b :: bs) < 128 * 256 ^ bs.length := by
  have hb : b.toNat < 256 := b.toNat_lt
  have hbs := beValue_lt bs
  have hbound : (beValue bs : ℤ) < 256 ^ bs.length := by exact_mod_cast hbs
  have hvalue : (beValue (b :: bs) : ℤ) = b.toNat * 256 ^ bs.length + beValue bs := by
    rw [beValue_cons]
    push_cast
    ring
  have hpow : (256 : ℤ) ^ (b :: bs).length = 256 * 256 ^ bs.length := by
    rw [List.length_cons, pow_succ]
    ring
  have hpos : (0 : ℤ) < 256 ^ bs.length := by positivity
  unfold signedValue
  rw [hvalue, hpow, List.getD_cons_zero]
  generalize (256 : ℤ) ^ bs.length = P at *
  have hlow : (0 : ℤ) ≤ beValue bs := by omega
  split_ifs with hsign
  · have hleast : 128 * P ≤ b.toNat * P := mul_le_mul_of_nonneg_right (by omega) hpos.le
    have hmost : b.toNat * P ≤ 255 * P := mul_le_mul_of_nonneg_right (by omega) hpos.le
    constructor <;> linarith
  · have hleast : 0 * P ≤ b.toNat * P := mul_le_mul_of_nonneg_right (by omega) hpos.le
    have hmost : b.toNat * P ≤ 127 * P := mul_le_mul_of_nonneg_right (by omega) hpos.le
    constructor <;> linarith

/-- Octets that are as few as their number takes hold no number of a lesser width. -/
theorem signedValue_large {b d : UInt8} {bs : Bytes} (h : MinimalSigned (b :: d :: bs)) :
    signedValue (b :: d :: bs) < -(128 * 256 ^ bs.length : ℤ) ∨
      128 * 256 ^ bs.length ≤ signedValue (b :: d :: bs) := by
  obtain ⟨-, hminimal⟩ := h
  have hb : b.toNat < 256 := b.toNat_lt
  have hd : d.toNat < 256 := d.toNat_lt
  have hbs := beValue_lt bs
  have hbound : (beValue bs : ℤ) < 256 ^ bs.length := by exact_mod_cast hbs
  have hvalue : (beValue (b :: d :: bs) : ℤ) =
      b.toNat * (256 * 256 ^ bs.length) + d.toNat * 256 ^ bs.length + beValue bs := by
    rw [beValue_cons, beValue_cons, List.length_cons, pow_succ]
    push_cast
    ring
  have hpow : (256 : ℤ) ^ (b :: d :: bs).length = 256 * (256 * 256 ^ bs.length) := by
    rw [List.length_cons, List.length_cons, pow_succ, pow_succ]
    ring
  have hpos : (0 : ℤ) < 256 ^ bs.length := by positivity
  simp only [List.length_cons, List.getD_cons_zero, List.getD_cons_succ] at hminimal
  unfold signedValue
  rw [hvalue, hpow, List.getD_cons_zero]
  generalize (256 : ℤ) ^ bs.length = P at *
  have hlow : (0 : ℤ) ≤ beValue bs := by omega
  have hwide : (0 : ℤ) ≤ 256 * P := by linarith
  have hsecond₀ : 0 * P ≤ d.toNat * P := mul_le_mul_of_nonneg_right (by omega) hpos.le
  have hsecond₁ : d.toNat * P ≤ 255 * P := mul_le_mul_of_nonneg_right (by omega) hpos.le
  split_ifs with hsign
  · left
    by_cases hff : b.toNat = 255
    · have hsmall : d.toNat * P ≤ 127 * P := mul_le_mul_of_nonneg_right (by omega) hpos.le
      rw [hff]
      push_cast
      linarith
    · have hmost : b.toNat * (256 * P) ≤ 254 * (256 * P) := mul_le_mul_of_nonneg_right (by omega) hwide
      linarith
  · right
    by_cases hzero : b.toNat = 0
    · have hlarge : 128 * P ≤ d.toNat * P := mul_le_mul_of_nonneg_right (by omega) hpos.le
      rw [hzero]
      push_cast
      linarith
    · have hleast : 1 * (256 * P) ≤ b.toNat * (256 * P) := mul_le_mul_of_nonneg_right (by omega) hwide
      linarith

/-- Of two widths the greater holds no number that the lesser does. -/
theorem signedValue_ne_of_lt {b d e : UInt8} {bs es : Bytes} (hlen : bs.length ≤ es.length)
    (h : MinimalSigned (d :: e :: es)) : signedValue (b :: bs) ≠ signedValue (d :: e :: es) := by
  obtain ⟨hlow, hhigh⟩ := signedValue_bounds b bs
  have hpow : (256 : ℤ) ^ bs.length ≤ 256 ^ es.length := pow_le_pow_right₀ (by norm_num) hlen
  intro heq
  obtain hneg | hpos := signedValue_large h
  · linarith
  · linarith

/-- Minimal octets are determined by their number. -/
theorem signedValue_injective {content₁ content₂ : Bytes} (h₁ : MinimalSigned content₁)
    (h₂ : MinimalSigned content₂) (h : signedValue content₁ = signedValue content₂) : content₁ = content₂ := by
  have hlen : content₁.length = content₂.length := by
    obtain hlt | heq | hgt := Nat.lt_trichotomy content₁.length content₂.length
    · match content₁, content₂, h₁.1, hlt with
      | b :: bs, d :: e :: es, _, hlt =>
        simp only [List.length_cons] at hlt
        exact absurd h (signedValue_ne_of_lt (by omega) h₂)
      | b :: bs, [d], _, hlt =>
        simp only [List.length_cons, List.length_nil] at hlt
        omega
    · exact heq
    · match content₁, content₂, h₂.1, hgt with
      | d :: e :: es, b :: bs, _, hgt =>
        simp only [List.length_cons] at hgt
        exact absurd h.symm (signedValue_ne_of_lt (by omega) h₁)
      | [d], b :: bs, _, hgt =>
        simp only [List.length_cons, List.length_nil] at hgt
        omega
  have hlt₁ : (beValue content₁ : ℤ) < 256 ^ content₁.length := by exact_mod_cast beValue_lt content₁
  have hlt₂ : (beValue content₂ : ℤ) < 256 ^ content₁.length := by
    rw [hlen]
    exact_mod_cast beValue_lt content₂
  have hvalue : beValue content₁ = beValue content₂ := by
    unfold signedValue at h
    rw [← hlen] at h
    generalize (256 : ℤ) ^ content₁.length = modulus at *
    -- of a negative number and one that is not, only the first is below zero
    split_ifs at h <;> omega
  exact beValue_injective hlen hvalue

/-! ## Sub-identifiers -/

/-- The parts of the dotted form of sub-identifiers. -/
def dottedParts : List ℕ → List String
  | [] => []
  | v :: vs => firstArcs v ++ vs.map toString

theorem dottedParts_cons (v : ℕ) (vs : List ℕ) : dottedParts (v :: vs) = firstArcs v ++ vs.map toString := rfl

/-- The last of the leading groups of a number has the high bit. -/
theorem leadingGroups_getLastD {n : ℕ} (h : n ≠ 0) (bs : Bytes) :
    128 ≤ ((bs ++ leadingGroups n).getLastD 0).toNat := by
  rw [leadingGroups_pos h, ← List.append_assoc, List.getLastD_concat, UInt8.toNat_ofNat']
  omega

/-- What the loop of `derOid` has read: whole sub-identifiers, and groups of one more. -/
structure OidRead (subs : List ℕ) (read : Bytes) (st : OidState) : Prop where
  parts : st.parts = dottedParts subs
  first : st.first = subs.isEmpty
  read : read = subs.flatMap varint ++ leadingGroups st.value
  started : st.started = true ↔ st.value ≠ 0

theorem shiftLeft_or_group (n : ℕ) (b : UInt8) : n <<< 7 ||| (b.toNat &&& 0x7f) = n * 128 + b.toNat % 128 := by
  have hb : b.toNat % 128 < 2 ^ 7 := Nat.mod_lt _ (by norm_num)
  rw [seven_bits, ← Nat.shiftLeft_add_eq_or_of_lt hb, Nat.shiftLeft_eq]

theorem dottedParts_snoc (subs : List ℕ) (v : ℕ) : dottedParts subs ++
    (if subs.isEmpty then firstArcs v else [toString v]) = dottedParts (subs ++ [v]) := by
  cases subs with
  | nil => simp [dottedParts]
  | cons u us => simp [dottedParts]

theorem oidStep_read {what : String} {subs : List ℕ} {read : Bytes} {st st' : OidState} {b : UInt8}
    (hst : OidRead subs read st) (h : oidStep what st b = .ok st') :
    ∃ subs', OidRead subs' (read ++ [b]) st' := by
  have hlt : b.toNat < 256 := b.toNat_lt
  have hbit := high_bit _ hlt
  unfold oidStep at h
  obtain ⟨hpad, h⟩ := derCheck_bind_eq_ok.mp h
  obtain ⟨hcap, h⟩ := derCheck_bind_eq_ok.mp h
  rw [shiftLeft_or_group] at h
  by_cases hlast : b.toNat < 128
  · rw [if_pos (hbit.mpr hlast), Nat.mod_eq_of_lt hlast] at h
    have hst' := except_pure_eq_ok.mp h
    subst hst'
    refine ⟨subs ++ [st.value * 128 + b.toNat], ⟨?_, by simp, ?_, by simp⟩⟩
    · dsimp only
      rw [hst.parts, hst.first, dottedParts_snoc]
    · dsimp only
      rw [hst.read, leadingGroups_zero, List.append_nil, List.flatMap_append, List.flatMap_singleton,
        varint_snoc hlast, List.append_assoc]
  · have hmod : b.toNat % 128 = b.toNat - 128 := by omega
    rw [if_neg (fun h0 => hlast (hbit.mp h0)), hmod] at h
    have hst' := except_pure_eq_ok.mp h
    subst hst'
    -- a group with the high bit that comes first is not zero
    have hfirst : st.value = 0 → b.toNat ≠ 128 := by
      intro hzero h128
      have hnot : st.started = false := by
        rw [Bool.eq_false_iff]
        exact fun hs => hst.started.mp hs hzero
      exact hpad ⟨hnot, UInt8.toNat_inj.mp h128⟩
    refine ⟨subs, ⟨hst.parts, hst.first, ?_, ?_⟩⟩
    · dsimp only
      rw [leadingGroups_snoc (by omega) hfirst, hst.read, List.append_assoc]
    · dsimp only
      refine ⟨fun _ => ?_, fun _ => rfl⟩
      intro hzero
      exact hfirst (by omega) (by omega)

theorem oidSteps_read {what : String} {content read : Bytes} {subs : List ℕ} {st st' : OidState}
    (hst : OidRead subs read st) (h : content.foldlM (oidStep what) st = .ok st') :
    ∃ subs', OidRead subs' (read ++ content) st' := by
  induction content generalizing read subs st with
  | nil =>
    rw [List.foldlM_nil] at h
    rw [except_pure_eq_ok.mp h, List.append_nil]
    exact ⟨subs, hst⟩
  | cons b content ih =>
    rw [List.foldlM_cons] at h
    obtain ⟨st₁, h₁, h⟩ := except_bind_eq_ok.mp h
    obtain ⟨subs₁, hst₁⟩ := oidStep_read hst h₁
    obtain ⟨subs', hst'⟩ := ih hst₁ h
    refine ⟨subs', ?_⟩
    rwa [List.append_assoc] at hst'

/-- An object identifier is read from the groups of its sub-identifiers. -/
theorem derOid_spec {node : DerNode} {what s : String} (h : derOid node what = .ok s) :
    (node.tagClass = .universal ∧ node.tagNumber = DER_OID) ∧
      ∃ v vs, node.content = (v :: vs).flatMap varint ∧ s = ".".intercalate (dottedParts (v :: vs)) := by
  unfold derOid at h
  obtain ⟨htag, h⟩ := derExpect_bind_eq_ok.mp h
  obtain ⟨hne, h⟩ := derCheck_bind_eq_ok.mp h
  obtain ⟨hlast, h⟩ := derCheck_bind_eq_ok.mp h
  obtain ⟨st, hst, h⟩ := except_bind_eq_ok.mp h
  have hs := except_pure_eq_ok.mp h
  have hinit : OidRead [] [] { parts := [], value := 0, started := false, first := true } :=
    ⟨rfl, rfl, by simp, by simp⟩
  obtain ⟨subs, hread⟩ := oidSteps_read hinit hst
  have hlt : (node.content.getLastD 0).toNat < 256 := (node.content.getLastD 0).toNat_lt
  have hvalue : st.value = 0 := by
    by_contra hpending
    have hhigh := leadingGroups_getLastD hpending (subs.flatMap varint)
    rw [← hread.read, List.nil_append] at hhigh
    have hlow := (high_bit _ hlt).mp hlast
    omega
  have hcontent := hread.read
  rw [hvalue, leadingGroups_zero, List.append_nil, List.nil_append] at hcontent
  refine ⟨htag, ?_⟩
  cases subs with
  | nil =>
    rw [hcontent] at hne
    exact absurd rfl hne
  | cons v vs => exact ⟨v, vs, hcontent, by rw [hs, hread.parts]⟩

/-- The first sub-identifier in the groups of an object identifier, after the number `value` of the groups
before. -/
def leadingSubidentifier : ℕ → Bytes → ℕ
  | value, [] => value
  | value, b :: bs =>
    if b.toNat < 128 then value * 128 + b.toNat
    else leadingSubidentifier (value * 128 + (b.toNat - 128)) bs

theorem leadingSubidentifier_groups (n : ℕ) (r : Bytes) :
    leadingSubidentifier 0 (leadingGroups n ++ r) = leadingSubidentifier n r := by
  induction n using Nat.strong_induction_on generalizing r with
  | _ n ih =>
    by_cases hzero : n = 0
    · rw [hzero, leadingGroups_zero, List.nil_append]
    · have hgroup : (UInt8.ofNat (128 + n % 128)).toNat = 128 + n % 128 := by
        rw [UInt8.toNat_ofNat']
        omega
      have hback : n / 128 * 128 + (128 + n % 128 - 128) = n := by omega
      rw [leadingGroups_pos hzero, List.append_assoc, ih (n / 128) (by omega), List.singleton_append,
        leadingSubidentifier, hgroup, if_neg (by omega), hback]

theorem leadingSubidentifier_varint (n : ℕ) (r : Bytes) : leadingSubidentifier 0 (varint n ++ r) = n := by
  have hgroup : (UInt8.ofNat (n % 128)).toNat = n % 128 := by
    rw [UInt8.toNat_ofNat']
    omega
  unfold varint
  rw [List.append_assoc, leadingSubidentifier_groups, List.singleton_append, leadingSubidentifier, hgroup,
    if_pos (by omega)]
  omega

/-! ## The dotted form -/

theorem toString_injective {m n : ℕ} (h : toString m = toString n) : m = n := by
  have hlist := congrArg String.toList h
  rw [Nat.toString_eq_repr, Nat.toString_eq_repr, Nat.toList_repr, Nat.toList_repr] at hlist
  have hback := congrArg (fun ds => Nat.ofDigitChars 10 ds 0) hlist
  simpa only [Nat.ofDigitChars_ten_toDigits] using hback

theorem dot_notMem_toString (n : ℕ) : '.' ∉ (toString n).toList := by
  rw [Nat.toString_eq_repr, Nat.toList_repr]
  intro h
  have hdigit := Nat.isDigit_of_mem_toDigits (by decide) (by decide) h
  exact absurd hdigit (by decide)

/-- Parts without a dot are found again in their dotted form. -/
theorem dotted_injective {l l' : List String} (hl : ∀ s ∈ l, '.' ∉ s.toList) (hl' : ∀ s ∈ l', '.' ∉ s.toList)
    (hne : l ≠ []) (hne' : l' ≠ []) (h : ".".intercalate l = ".".intercalate l') : l = l' := by
  have hlist := congrArg String.toList h
  rw [String.toList_intercalate, String.toList_intercalate, show ".".toList = ['.'] from rfl] at hlist
  have hdots : ∀ cs ∈ l.map String.toList, '.' ∉ cs := by
    intro cs hcs
    obtain ⟨s, hs, rfl⟩ := List.mem_map.mp hcs
    exact hl s hs
  have hdots' : ∀ cs ∈ l'.map String.toList, '.' ∉ cs := by
    intro cs hcs
    obtain ⟨s, hs, rfl⟩ := List.mem_map.mp hcs
    exact hl' s hs
  have hmaps : l.map String.toList = l'.map String.toList := by
    rw [← List.splitOn_intercalate '.' hdots (by simpa using hne), hlist,
      List.splitOn_intercalate '.' hdots' (by simpa using hne')]
  exact List.map_injective_iff.mpr (fun s t => String.toList_injective) hmaps

theorem map_toString_dotless (vs : List ℕ) : ∀ s ∈ vs.map toString, '.' ∉ s.toList := by
  intro s hs
  obtain ⟨v, -, rfl⟩ := List.mem_map.mp hs
  exact dot_notMem_toString v

theorem firstArcs_ne_nil (v : ℕ) : firstArcs v ≠ [] := by
  unfold firstArcs
  simp

/-- After one first sub-identifier the dotted form determines the others. -/
theorem dotted_tail_injective {v : ℕ} {vs vs' : List ℕ}
    (h : ".".intercalate (dottedParts (v :: vs)) = ".".intercalate (dottedParts (v :: vs'))) : vs = vs' := by
  have hlonger : ∀ u us, ".".intercalate (firstArcs v) ≠
      ".".intercalate (firstArcs v ++ (u :: us : List ℕ).map toString) := by
    intro u us heq
    rw [String.intercalate_append_of_ne_nil (firstArcs_ne_nil v) (by simp), String.append_assoc] at heq
    have hlen := congrArg String.length heq
    have hdot : ".".length = 1 := rfl
    rw [String.length_append, String.length_append, hdot] at hlen
    omega
  rw [dottedParts_cons, dottedParts_cons] at h
  cases vs with
  | nil =>
    cases vs' with
    | nil => rfl
    | cons u us =>
      rw [List.map_nil, List.append_nil] at h
      exact absurd h (hlonger u us)
  | cons w ws =>
    cases vs' with
    | nil =>
      rw [List.map_nil, List.append_nil] at h
      exact absurd h.symm (hlonger w ws)
    | cons u us =>
      rw [String.intercalate_append_of_ne_nil (firstArcs_ne_nil v) (by simp),
        String.intercalate_append_of_ne_nil (firstArcs_ne_nil v) (by simp)] at h
      have htail := (String.append_right_inj _).mp h
      have hmap := dotted_injective (map_toString_dotless (w :: ws)) (map_toString_dotless (u :: us)) (by simp)
        (by simp) htail
      exact List.map_injective_iff.mpr (fun m n => toString_injective) hmap

/-- The two arcs of a first sub-identifier that is a safe integer. -/
theorem firstArcs_safe {v : ℕ} (h : v < 2 ^ 53) :
    ∃ a1 a2, firstArcs v = [toString a1, toString a2] ∧ v = a1 * 40 + a2 := by
  have hv : toNumber v = v := by
    unfold toNumber
    rw [if_pos h]
  have ha1 : (if 80 ≤ v then 2 else v / 40) * 40 ≤ v := by
    split_ifs <;> omega
  have hrest : v - (if 80 ≤ v then 2 else v / 40) * 40 < 2 ^ 53 := by omega
  have hv' : toNumber (v - (if 80 ≤ v then 2 else v / 40) * 40) = v - (if 80 ≤ v then 2 else v / 40) * 40 := by
    unfold toNumber
    rw [if_pos hrest]
  refine ⟨if 80 ≤ v then 2 else v / 40, v - (if 80 ≤ v then 2 else v / 40) * 40, ?_, by omega⟩
  unfold firstArcs
  dsimp only
  rw [hv, hv']
  unfold numberToString
  rw [if_pos hrest]

/-- Safe first sub-identifiers are determined by the dotted form. -/
theorem dotted_head_injective {v v' : ℕ} {vs vs' : List ℕ} (hv : v < 2 ^ 53) (hv' : v' < 2 ^ 53)
    (h : ".".intercalate (dottedParts (v :: vs)) = ".".intercalate (dottedParts (v' :: vs'))) : v = v' := by
  obtain ⟨a1, a2, harcs, hsum⟩ := firstArcs_safe hv
  obtain ⟨a1', a2', harcs', hsum'⟩ := firstArcs_safe hv'
  have hmaps : ∀ a a2 (us : List ℕ), [toString a, toString a2] ++ us.map toString =
      (a :: a2 :: us).map toString := fun a a2 us => rfl
  rw [dottedParts_cons, dottedParts_cons, harcs, harcs', hmaps, hmaps] at h
  have hparts := dotted_injective (map_toString_dotless _) (map_toString_dotless _) (by simp) (by simp) h
  have harcs_eq := List.map_injective_iff.mpr (fun m n => toString_injective) hparts
  simp only [List.cons.injEq] at harcs_eq
  obtain ⟨rfl, rfl, -⟩ := harcs_eq
  rw [hsum, hsum']

/-! ## One value, one encoding -/

/-- The accessor reads the value `v` in the node that `b` is parsed to. -/
def ReadsAs {α : Type} (accessor : DerNode → String → Except DerError α) (b : Uint8Array) (node : DerNode)
    (v : α) : Prop :=
  ∃ limits what, parseDer b limits = .ok node ∧ accessor node what = .ok v

section Accessors

variable {b₁ b₂ : Uint8Array} {node₁ node₂ : DerNode}

/-- Inputs whose nodes have one tag and one content are equal exactly when they say one form. -/
theorem bytes_eq_iff {limits₁ limits₂ : PartialDerLimits} (h₁ : parseDer b₁ limits₁ = .ok node₁)
    (h₂ : parseDer b₂ limits₂ = .ok node₂) (hclass : node₁.tagClass = node₂.tagClass)
    (hnumber : node₁.tagNumber = node₂.tagNumber) (hcontent : node₁.content = node₂.content) :
    b₁.bytes = b₂.bytes ↔ formBit b₁.bytes = formBit b₂.bytes := by
  obtain ⟨-, -, henc₁⟩ := parseDer_eq_ok.mp h₁
  obtain ⟨-, -, henc₂⟩ := parseDer_eq_ok.mp h₂
  rw [← henc₁, ← henc₂, formBit_encodeDer, formBit_encodeDer]
  exact encodeDer_eq_iff hclass hnumber hcontent

/-- A constructed node has no content of one octet. -/
theorem not_constructed_of_length {node : DerNode} (hwell : node.WellFormed) (hlen : node.content.length = 1) :
    node.constructed = false := by
  cases hwell with
  | primitive htag hlength => rfl
  | constructed htag hlength hcontent h =>
    rename_i tagClass tagNumber content children
    have hlen' : content.length = 1 := hlen
    have hlong : ∀ child : DerNode, 2 ≤ (encodeDer child).length := by
      intro child
      have hidentifier : 1 ≤ (encodeIdentifier child.tagClass child.constructed child.tagNumber).length := by
        unfold encodeIdentifier
        split_ifs <;> simp
      have hoctets : 1 ≤ (encodeLength child.content.length).length := by
        unfold encodeLength
        split_ifs <;> simp
      unfold encodeDer
      rw [List.length_append, List.length_append]
      omega
    cases children with
    | nil =>
      rw [hcontent] at hlen'
      simp at hlen'
    | cons child children =>
      have htwo := hlong child
      rw [hcontent, List.flatMap_cons, List.length_append] at hlen'
      omega

theorem derInteger_encodings {v : ℤ} (h₁ : ReadsAs derInteger b₁ node₁ v) (h₂ : ReadsAs derInteger b₂ node₂ v) :
    b₁.bytes = b₂.bytes ↔ formBit b₁.bytes = formBit b₂.bytes := by
  obtain ⟨limits₁, what₁, hparse₁, hread₁⟩ := h₁
  obtain ⟨limits₂, what₂, hparse₂, hread₂⟩ := h₂
  obtain ⟨⟨hclass₁, htag₁⟩, hvalue₁⟩ := derExpect_bind_eq_ok.mp hread₁
  obtain ⟨⟨hclass₂, htag₂⟩, hvalue₂⟩ := derExpect_bind_eq_ok.mp hread₂
  obtain ⟨hminimal₁, hv₁⟩ := decodeTwosComplement_spec hvalue₁
  obtain ⟨hminimal₂, hv₂⟩ := decodeTwosComplement_spec hvalue₂
  exact bytes_eq_iff hparse₁ hparse₂ (hclass₁.trans hclass₂.symm) (htag₁.trans htag₂.symm)
    (signedValue_injective hminimal₁ hminimal₂ (hv₁.symm.trans hv₂))

theorem derEnumerated_encodings {v : ℤ} (h₁ : ReadsAs derEnumerated b₁ node₁ v)
    (h₂ : ReadsAs derEnumerated b₂ node₂ v) :
    b₁.bytes = b₂.bytes ↔ formBit b₁.bytes = formBit b₂.bytes := by
  have hvalue : ∀ {node : DerNode} {what : String}, derEnumerated node what = .ok v →
      (node.tagClass = .universal ∧ node.tagNumber = DER_ENUMERATED) ∧ MinimalSigned node.content ∧
        v = signedValue node.content := by
    intro node what h
    obtain ⟨htag, h⟩ := derExpect_bind_eq_ok.mp h
    obtain ⟨w, hw, h⟩ := except_bind_eq_ok.mp h
    obtain ⟨-, h⟩ := derCheck_bind_eq_ok.mp h
    obtain ⟨hminimal, hw⟩ := decodeTwosComplement_spec hw
    exact ⟨htag, hminimal, (except_pure_eq_ok.mp h).trans hw⟩
  obtain ⟨limits₁, what₁, hparse₁, hread₁⟩ := h₁
  obtain ⟨limits₂, what₂, hparse₂, hread₂⟩ := h₂
  obtain ⟨⟨hclass₁, htag₁⟩, hminimal₁, hv₁⟩ := hvalue hread₁
  obtain ⟨⟨hclass₂, htag₂⟩, hminimal₂, hv₂⟩ := hvalue hread₂
  exact bytes_eq_iff hparse₁ hparse₂ (hclass₁.trans hclass₂.symm) (htag₁.trans htag₂.symm)
    (signedValue_injective hminimal₁ hminimal₂ (hv₁.symm.trans hv₂))

theorem derBoolean_encodings {v : Bool} (h₁ : ReadsAs derBoolean b₁ node₁ v) (h₂ : ReadsAs derBoolean b₂ node₂ v) :
    b₁.bytes = b₂.bytes := by
  have hvalue : ∀ {node : DerNode} {what : String}, derBoolean node what = .ok v →
      (node.tagClass = .universal ∧ node.tagNumber = DER_BOOLEAN) ∧ node.content.length = 1 ∧
        node.content = [if v then 0xff else 0x00] := by
    intro node what h
    obtain ⟨htag, h⟩ := derExpect_bind_eq_ok.mp h
    obtain ⟨hlen, h⟩ := derCheck_bind_eq_ok.mp h
    obtain ⟨hoctet, h⟩ := derCheck_bind_eq_ok.mp h
    have hv := except_pure_eq_ok.mp h
    obtain ⟨b, hb⟩ := List.length_eq_one_iff.mp hlen
    rw [hb, List.getD_cons_zero] at hoctet hv
    refine ⟨htag, hlen, ?_⟩
    rw [hb, hv]
    obtain rfl | rfl := hoctet <;> rfl
  obtain ⟨limits₁, what₁, hparse₁, hread₁⟩ := h₁
  obtain ⟨limits₂, what₂, hparse₂, hread₂⟩ := h₂
  obtain ⟨⟨hclass₁, htag₁⟩, hlen₁, hcontent₁⟩ := hvalue hread₁
  obtain ⟨⟨hclass₂, htag₂⟩, hlen₂, hcontent₂⟩ := hvalue hread₂
  obtain ⟨hwell₁, -, henc₁⟩ := parseDer_eq_ok.mp hparse₁
  obtain ⟨hwell₂, -, henc₂⟩ := parseDer_eq_ok.mp hparse₂
  rw [← henc₁, ← henc₂, encodeDer_eq_iff (hclass₁.trans hclass₂.symm) (htag₁.trans htag₂.symm)
    (hcontent₁.trans hcontent₂.symm), not_constructed_of_length hwell₁ hlen₁,
    not_constructed_of_length hwell₂ hlen₂]

/-- Primitive nodes of one tag and one content are of one input. -/
theorem bytes_eq_of_primitive {limits₁ limits₂ : PartialDerLimits} (h₁ : parseDer b₁ limits₁ = .ok node₁)
    (h₂ : parseDer b₂ limits₂ = .ok node₂) (hclass : node₁.tagClass = node₂.tagClass)
    (hnumber : node₁.tagNumber = node₂.tagNumber) (hcontent : node₁.content = node₂.content)
    (hform₁ : node₁.constructed = false) (hform₂ : node₂.constructed = false) : b₁.bytes = b₂.bytes := by
  obtain ⟨-, -, henc₁⟩ := parseDer_eq_ok.mp h₁
  obtain ⟨-, -, henc₂⟩ := parseDer_eq_ok.mp h₂
  rw [← henc₁, ← henc₂, encodeDer_eq_iff hclass hnumber hcontent, hform₁, hform₂]

theorem derOctetString_encodings {v : Bytes} (h₁ : ReadsAs derOctetString b₁ node₁ v)
    (h₂ : ReadsAs derOctetString b₂ node₂ v) : b₁.bytes = b₂.bytes := by
  obtain ⟨limits₁, what₁, hparse₁, hread₁⟩ := h₁
  obtain ⟨limits₂, what₂, hparse₂, hread₂⟩ := h₂
  obtain ⟨⟨hclass₁, htag₁⟩, hread₁⟩ := derExpect_bind_eq_ok.mp hread₁
  obtain ⟨⟨hclass₂, htag₂⟩, hread₂⟩ := derExpect_bind_eq_ok.mp hread₂
  obtain ⟨hform₁, hread₁⟩ := derCheck_bind_eq_ok.mp hread₁
  obtain ⟨hform₂, hread₂⟩ := derCheck_bind_eq_ok.mp hread₂
  have hcontent : node₁.content = node₂.content :=
    (except_pure_eq_ok.mp hread₁).symm.trans (except_pure_eq_ok.mp hread₂)
  exact bytes_eq_of_primitive hparse₁ hparse₂ (hclass₁.trans hclass₂.symm) (htag₁.trans htag₂.symm) hcontent
    hform₁ hform₂

theorem derBitString_encodings {v : Bytes} (h₁ : ReadsAs derBitString b₁ node₁ v)
    (h₂ : ReadsAs derBitString b₂ node₂ v) : b₁.bytes = b₂.bytes := by
  have hvalue : ∀ {node : DerNode} {what : String}, derBitString node what = .ok v →
      (node.tagClass = .universal ∧ node.tagNumber = DER_BIT_STRING) ∧ node.constructed = false ∧
        node.content = 0 :: v := by
    intro node what h
    obtain ⟨htag, h⟩ := derExpect_bind_eq_ok.mp h
    obtain ⟨hform, h⟩ := derCheck_bind_eq_ok.mp h
    obtain ⟨hlen, h⟩ := derCheck_bind_eq_ok.mp h
    obtain ⟨hunused, h⟩ := derCheck_bind_eq_ok.mp h
    have hv := except_pure_eq_ok.mp h
    refine ⟨htag, hform, ?_⟩
    cases hcontent : node.content with
    | nil =>
      rw [hcontent, List.length_nil] at hlen
      omega
    | cons b bs =>
      rw [hcontent] at hunused hv
      rw [List.getD_cons_zero] at hunused
      rw [hunused, hv]
      rfl
  obtain ⟨limits₁, what₁, hparse₁, hread₁⟩ := h₁
  obtain ⟨limits₂, what₂, hparse₂, hread₂⟩ := h₂
  obtain ⟨⟨hclass₁, htag₁⟩, hform₁, hcontent₁⟩ := hvalue hread₁
  obtain ⟨⟨hclass₂, htag₂⟩, hform₂, hcontent₂⟩ := hvalue hread₂
  exact bytes_eq_of_primitive hparse₁ hparse₂ (hclass₁.trans hclass₂.symm) (htag₁.trans htag₂.symm)
    (hcontent₁.trans hcontent₂.symm) hform₁ hform₂

theorem derOid_encodings {v : String} (h₁ : ReadsAs derOid b₁ node₁ v) (h₂ : ReadsAs derOid b₂ node₂ v) :
    (b₁.bytes = b₂.bytes ↔ formBit b₁.bytes = formBit b₂.bytes ∧
      leadingSubidentifier 0 node₁.content = leadingSubidentifier 0 node₂.content) ∧
    (leadingSubidentifier 0 node₁.content < 2 ^ 53 → leadingSubidentifier 0 node₂.content < 2 ^ 53 →
      leadingSubidentifier 0 node₁.content = leadingSubidentifier 0 node₂.content) := by
  obtain ⟨limits₁, what₁, hparse₁, hread₁⟩ := h₁
  obtain ⟨limits₂, what₂, hparse₂, hread₂⟩ := h₂
  obtain ⟨⟨hclass₁, htag₁⟩, u₁, us₁, hcontent₁, hv₁⟩ := derOid_spec hread₁
  obtain ⟨⟨hclass₂, htag₂⟩, u₂, us₂, hcontent₂, hv₂⟩ := derOid_spec hread₂
  have hlead₁ : leadingSubidentifier 0 node₁.content = u₁ := by
    rw [hcontent₁, List.flatMap_cons, leadingSubidentifier_varint]
  have hlead₂ : leadingSubidentifier 0 node₂.content = u₂ := by
    rw [hcontent₂, List.flatMap_cons, leadingSubidentifier_varint]
  have hsame := hv₁.symm.trans hv₂
  constructor
  · constructor
    · intro h
      obtain ⟨hwell₁, -, henc₁⟩ := parseDer_eq_ok.mp hparse₁
      obtain ⟨hwell₂, -, henc₂⟩ := parseDer_eq_ok.mp hparse₂
      have hnode : node₁ = node₂ := encodeDer_injective hwell₁ hwell₂ henc₁ (henc₂.trans h.symm)
      exact ⟨by rw [h], by rw [hnode]⟩
    · rintro ⟨hform, hlead⟩
      rw [hlead₁, hlead₂] at hlead
      subst hlead
      have htail := dotted_tail_injective hsame
      have hcontent : node₁.content = node₂.content := by rw [hcontent₁, hcontent₂, htail]
      exact (bytes_eq_iff hparse₁ hparse₂ (hclass₁.trans hclass₂.symm) (htag₁.trans htag₂.symm) hcontent).mpr hform
  · intro hlt₁ hlt₂
    rw [hlead₁] at hlt₁ ⊢
    rw [hlead₂] at hlt₂ ⊢
    exact dotted_head_injective hlt₁ hlt₂ hsame

end Accessors

/-- When two inputs have one typed value. For integers and enumerated values the inputs are equal exactly when
their identifier octets say the same form; for Booleans, octet strings and bit strings always; and for object
identifiers exactly when they say the same form and the first sub-identifiers are equal, as those below
`2 ^ 53` are. -/
theorem derValues_encodings (b₁ b₂ : Uint8Array) (node₁ node₂ : DerNode) :
    (∀ v, ReadsAs derInteger b₁ node₁ v → ReadsAs derInteger b₂ node₂ v →
      (b₁.bytes = b₂.bytes ↔ formBit b₁.bytes = formBit b₂.bytes)) ∧
    (∀ v, ReadsAs derEnumerated b₁ node₁ v → ReadsAs derEnumerated b₂ node₂ v →
      (b₁.bytes = b₂.bytes ↔ formBit b₁.bytes = formBit b₂.bytes)) ∧
    (∀ v, ReadsAs derBoolean b₁ node₁ v → ReadsAs derBoolean b₂ node₂ v → b₁.bytes = b₂.bytes) ∧
    (∀ v, ReadsAs derOctetString b₁ node₁ v → ReadsAs derOctetString b₂ node₂ v → b₁.bytes = b₂.bytes) ∧
    (∀ v, ReadsAs derBitString b₁ node₁ v → ReadsAs derBitString b₂ node₂ v → b₁.bytes = b₂.bytes) ∧
    ∀ v, ReadsAs derOid b₁ node₁ v → ReadsAs derOid b₂ node₂ v →
      (b₁.bytes = b₂.bytes ↔ formBit b₁.bytes = formBit b₂.bytes ∧
        leadingSubidentifier 0 node₁.content = leadingSubidentifier 0 node₂.content) ∧
      (leadingSubidentifier 0 node₁.content < 2 ^ 53 → leadingSubidentifier 0 node₂.content < 2 ^ 53 →
        leadingSubidentifier 0 node₁.content = leadingSubidentifier 0 node₂.content) :=
  ⟨fun _ => derInteger_encodings, fun _ => derEnumerated_encodings, fun _ => derBoolean_encodings,
    fun _ => derOctetString_encodings, fun _ => derBitString_encodings, fun _ => derOid_encodings⟩

/-- The content `05 00`, which is also a node, under the universal tag `tag` in either form. -/
def sampleElement (constructed : Bool) (tag : UInt8) : Uint8Array where
  bytes := [(if constructed then 0x20 else 0) + tag, 0x02, 0x05, 0x00]
  bound := by simp [MAX_SAFE_INTEGER]

/-- No limit of the caller's. -/
def defaultDerLimits : PartialDerLimits := { maxDepth := none, maxNodes := none, maxBytes := none }

/-- The node of `sampleElement`. -/
def sampleNode (constructed : Bool) (tag : ℕ) : DerNode :=
  .mk .universal constructed tag [0x05, 0x00] (if constructed then [.mk .universal false 5 [] []] else [])

/-- A primitive and a constructed input have one integer, one enumerated value, and one identifier. -/
theorem derValues_two_encodings :
    (¬∀ b₁ b₂ node₁ node₂ v, ReadsAs derInteger b₁ node₁ v → ReadsAs derInteger b₂ node₂ v →
      b₁.bytes = b₂.bytes) ∧
    (¬∀ b₁ b₂ node₁ node₂ v, ReadsAs derEnumerated b₁ node₁ v → ReadsAs derEnumerated b₂ node₂ v →
      b₁.bytes = b₂.bytes) ∧
    ¬∀ b₁ b₂ node₁ node₂ v, ReadsAs derOid b₁ node₁ v → ReadsAs derOid b₂ node₂ v → b₁.bytes = b₂.bytes := by
  refine ⟨?_, ?_, ?_⟩
  · intro h
    have hsame := h (sampleElement false 2) (sampleElement true 2) (sampleNode false 2) (sampleNode true 2) 1280
      ⟨defaultDerLimits, "", rfl, rfl⟩ ⟨defaultDerLimits, "", rfl, rfl⟩
    exact absurd hsame (by decide)
  · intro h
    have hsame := h (sampleElement false 10) (sampleElement true 10) (sampleNode false 10) (sampleNode true 10)
      1280 ⟨defaultDerLimits, "", rfl, rfl⟩ ⟨defaultDerLimits, "", rfl, rfl⟩
    exact absurd hsame (by decide)
  · intro h
    have hsame := h (sampleElement false 6) (sampleElement true 6) (sampleNode false 6) (sampleNode true 6)
      (".".intercalate (dottedParts [5, 0])) ⟨defaultDerLimits, "", rfl, rfl⟩ ⟨defaultDerLimits, "", rfl, rfl⟩
    exact absurd hsame (by decide)

end SdidBridge.Attestation
