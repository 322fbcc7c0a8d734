import SdidBridge.Attestation.Texts
import SdidBridge.Codec.Runs

/-!
# Label values

`unsafeLabelReason` of `observability/metrics.registry.ts` refuses a label value by its shape. A uuid, a long hexadecimal
number and 16 digits in a row are always refused. The base64url of 16 bytes or more is refused unless it is short and
has a character that labels use as a separator, or no digit (`unsafeLabelReason_base64Url`).
-/

namespace SdidBridge.Observability

open Codec Attestation

/-! ## Shapes -/

def MAX_LABEL_VALUE_LENGTH : ℕ := 40

def BLOB_SUSPICION_LENGTH : ℕ := 20

def REJECTED_LABEL_VALUE : String := "__rejected__"

/-- `[0-9a-fA-F]`. -/
def isHexChar (c : Char) : Bool := (hexValue c).isSome

/-- `RAW_NID_SHAPE`. -/
def hasNidShape (cs : List Char) : Bool := decide (HasRun Char.isDigit 16 cs)

/-- `LONG_HEX_SHAPE`. -/
def isLongHex (cs : List Char) : Bool := decide (24 ≤ cs.length) && cs.all isHexChar

/-- `UUID_SHAPE`. -/
def isUuidShape (cs : List Char) : Bool :=
  decide ((cs.splitOn '-').map List.length = [8, 4, 4, 4, 12]) && cs.all fun c => c == '-' || isHexChar c

/-- `HAS_SEPARATOR`, of one character. -/
def isLabelSeparator (c : Char) : Bool := decide (c ∈ ['_', '.', ':', '+', '/', '-'])

/-- `ALLOWED_CHARS`, of one character. -/
def isAllowedChar (c : Char) : Bool := c.isAlphanum || isLabelSeparator c

/-- `unsafeLabelReason`. -/
def unsafeLabelReason (value : String) : Option String :=
  let cs := value.toList
  if value = "" then none
  else if MAX_LABEL_VALUE_LENGTH < utf16Length value then
    some ("longer than " ++ toString MAX_LABEL_VALUE_LENGTH ++ " characters")
  else if cs.all isAllowedChar = false then some "contains characters outside the enum vocabulary"
  else if hasNidShape cs then some "contains a 16-digit NID-shaped run"
  else if isUuidShape cs then some "looks like a uuid (citizen/binding/rp identifier)"
  else if isLongHex cs then some "looks like a hash or pseudo-NID"
  else if BLOB_SUSPICION_LENGTH ≤ utf16Length value ∧ cs.any isLabelSeparator = false ∧
      cs.any Char.isDigit = true then
    some "looks like an opaque token/nonce/pairwise subject"
  else none

/-- What a value that is not refused is like. -/
theorem unsafeLabelReason_eq_none {value : String} (hne : value ≠ "") :
    unsafeLabelReason value = none ↔
      utf16Length value ≤ MAX_LABEL_VALUE_LENGTH ∧ (∀ c ∈ value.toList, isAllowedChar c = true) ∧
        hasNidShape value.toList = false ∧ isUuidShape value.toList = false ∧ isLongHex value.toList = false ∧
          (BLOB_SUSPICION_LENGTH ≤ utf16Length value →
            (∃ c ∈ value.toList, isLabelSeparator c = true) ∨ ∀ c ∈ value.toList, c.isDigit = false) := by
  unfold unsafeLabelReason
  dsimp only
  rw [if_neg hne]
  constructor
  · intro h
    split_ifs at h with hlong hchars hnid huuid hhex hblob
    rw [Bool.not_eq_false, List.all_eq_true] at hchars
    refine ⟨not_lt.mp hlong, hchars, Bool.eq_false_iff.mpr hnid, Bool.eq_false_iff.mpr huuid,
      Bool.eq_false_iff.mpr hhex, fun hsuspicious => ?_⟩
    by_cases hseparator : ∃ c ∈ value.toList, isLabelSeparator c = true
    · exact .inl hseparator
    · refine .inr fun c hc => Bool.eq_false_iff.mpr fun hdigit => ?_
      rw [← List.any_eq_true, Bool.not_eq_true] at hseparator
      exact hblob ⟨hsuspicious, hseparator, List.any_eq_true.mpr ⟨c, hc, hdigit⟩⟩
  · rintro ⟨hlength, hchars, hnid, huuid, hhex, hblob⟩
    have hall : ¬value.toList.all isAllowedChar = false := Bool.not_eq_false _ ▸ List.all_eq_true.mpr hchars
    rw [if_neg (not_lt.mpr hlength), if_neg hall, if_neg (Bool.eq_false_iff.mp hnid),
      if_neg (Bool.eq_false_iff.mp huuid), if_neg (Bool.eq_false_iff.mp hhex), if_neg]
    rintro ⟨hsuspicious, hseparator, hany⟩
    obtain ⟨c, hc, hdigit⟩ := List.any_eq_true.mp hany
    rcases hblob hsuspicious with hfound | hdigitless
    · rw [List.any_eq_true.mpr hfound] at hseparator
      cases hseparator
    · rw [hdigitless c hc] at hdigit
      cases hdigit

/-! ## Identifiers -/

/-- A text of hexadecimal digits of either case. -/
def HexText (cs : List Char) : Prop := ∀ c ∈ cs, isHexChar c = true

instance (cs : List Char) : Decidable (HexText cs) := List.decidableBAll _ _

/-- The text of a uuid: 32 hexadecimal digits in five groups. -/
def IsUuidText (s : String) : Prop :=
  ∃ a b c d e : List Char, s.toList = a ++ '-' :: (b ++ '-' :: (c ++ '-' :: (d ++ '-' :: e))) ∧
    (a.length = 8 ∧ b.length = 4 ∧ c.length = 4 ∧ d.length = 4 ∧ e.length = 12) ∧
      HexText a ∧ HexText b ∧ HexText c ∧ HexText d ∧ HexText e

/-- The shapes of what identifies. -/
inductive IdentifierShape : String → Prop
  | base64Url {bs : Bytes} (h : 16 ≤ bs.length) : IdentifierShape (toBase64Url bs)
  | uuid {s : String} (h : IsUuidText s) : IdentifierShape s
  | hex {s : String} (hlength : 24 ≤ s.toList.length) (h : HexText s.toList) : IdentifierShape s
  | digits {s : String} (h : HasRun Char.isDigit 16 s.toList) : IdentifierShape s

/-- The base64url of bytes is taken for an enum: it is short, of no other shape, and has a separator or no digit. -/
def LooksLikeEnum (bs : Bytes) : Prop :=
  bs.length ≤ 30 ∧ hasNidShape (base64Url.encode bs) = false ∧ isUuidShape (base64Url.encode bs) = false ∧
    isLongHex (base64Url.encode bs) = false ∧
      ('-' ∈ base64Url.encode bs ∨ '_' ∈ base64Url.encode bs ∨ ∀ c ∈ base64Url.encode bs, c.isDigit = false)

theorem length_encode (bs : Bytes) :
    (base64Url.encode bs).length = bs.length / 3 * 4 + if bs.length % 3 = 0 then 0 else bs.length % 3 + 1 := by
  unfold Alphabet.encode
  rw [List.length_map, sextets_length]

/-- The base64url of 16 bytes or more is refused unless it looks like an enum. -/
theorem unsafeLabelReason_base64Url {bs : Bytes} (h : 16 ≤ bs.length) :
    unsafeLabelReason (toBase64Url bs) = none ↔ LooksLikeEnum bs := by
  have hchars : (toBase64Url bs).toList = base64Url.encode bs := String.toList_ofList
  have hlength := length_encode bs
  have hutf16 := utf16Length_toBase64Url bs
  have hne : toBase64Url bs ≠ "" := by
    intro hempty
    have hnil : base64Url.encode bs = [] := by rw [← hchars, hempty]; rfl
    rw [hnil, List.length_nil] at hlength
    omega
  have hallowed : ∀ c ∈ base64Url.encode bs, isAllowedChar c = true := by
    have hsymbols : ∀ c ∈ base64Url.symbols, isAllowedChar c = true := List.all_eq_true.mp (by decide)
    exact fun c hc => hsymbols c (Alphabet.encode_mem c hc)
  have hseparator : (∃ c ∈ base64Url.encode bs, isLabelSeparator c = true) ↔
      '-' ∈ base64Url.encode bs ∨ '_' ∈ base64Url.encode bs := by
    have hsymbols : ∀ c ∈ base64Url.symbols, isLabelSeparator c = true → c = '-' ∨ c = '_' :=
      List.all_iff_forall_prop.mp (by decide)
    constructor
    · rintro ⟨c, hc, hsep⟩
      rcases hsymbols c (Alphabet.encode_mem c hc) hsep with rfl | rfl
      · exact .inl hc
      · exact .inr hc
    · rintro (hc | hc)
      · exact ⟨_, hc, by decide⟩
      · exact ⟨_, hc, by decide⟩
  have hshort : utf16Length (toBase64Url bs) ≤ MAX_LABEL_VALUE_LENGTH ↔ bs.length ≤ 30 := by
    rw [hutf16, hlength]
    unfold MAX_LABEL_VALUE_LENGTH
    split_ifs <;> omega
  have hsuspicious : BLOB_SUSPICION_LENGTH ≤ utf16Length (toBase64Url bs) := by
    rw [hutf16, hlength]
    unfold BLOB_SUSPICION_LENGTH
    split_ifs <;> omega
  rw [unsafeLabelReason_eq_none hne, hshort, hchars, hseparator, or_assoc]
  unfold LooksLikeEnum
  constructor
  · rintro ⟨hbytes, -, hnid, huuid, hhex, hblob⟩
    exact ⟨hbytes, hnid, huuid, hhex, hblob hsuspicious⟩
  · rintro ⟨hbytes, hnid, huuid, hhex, hblob⟩
    exact ⟨hbytes, hallowed, hnid, huuid, hhex, fun _ => hblob⟩

theorem ne_empty_of_length {s : String} (h : s.toList.length ≠ 0) : s ≠ "" := by
  rintro rfl
  exact h rfl

/-- A hexadecimal digit is no hyphen. -/
theorem hexText_ne_hyphen {cs : List Char} (h : HexText cs) : '-' ∉ cs := by
  intro hmem
  exact absurd (h '-' hmem) (by decide)

/-- A uuid is refused. -/
theorem unsafeLabelReason_uuid {s : String} (h : IsUuidText s) : unsafeLabelReason s ≠ none := by
  obtain ⟨a, b, c, d, e, hs, ⟨ha, hb, hc, hd, he⟩, hexA, hexB, hexC, hexD, hexE⟩ := h
  have hsplit : s.toList.splitOn '-' = [a, b, c, d, e] := by
    have hplain : ∀ {part : List Char}, HexText part → ∀ x ∈ part, (x == '-') = false := by
      intro part hpart x hx
      refine beq_eq_false_iff_ne.mpr ?_
      rintro rfl
      exact hexText_ne_hyphen hpart hx
    have hpart : ∀ {part rest : List Char}, HexText part →
        (part ++ '-' :: rest).splitOn '-' = part :: rest.splitOn '-' := by
      intro part rest hpart
      exact List.splitOnP_append_cons_of_forall_mem (hplain hpart) '-' (by simp) rest
    have hlast : e.splitOn '-' = [e] := List.splitOnP_eq_singleton (hplain hexE)
    rw [hs, hpart hexA, hpart hexB, hpart hexC, hpart hexD, hlast]
  have hshape : isUuidShape s.toList = true := by
    unfold isUuidShape
    rw [Bool.and_eq_true, decide_eq_true_iff, List.all_eq_true]
    refine ⟨?_, fun x hx => ?_⟩
    · rw [hsplit]
      simp only [List.map_cons, List.map_nil, ha, hb, hc, hd, he]
    · rw [Bool.or_eq_true, beq_iff_eq, or_iff_not_imp_left]
      intro hne
      rw [hs] at hx
      simp only [List.mem_append, List.mem_cons] at hx
      rcases hx with hx | hx | hx | hx | hx | hx | hx | hx | hx
      · exact hexA x hx
      · exact absurd hx hne
      · exact hexB x hx
      · exact absurd hx hne
      · exact hexC x hx
      · exact absurd hx hne
      · exact hexD x hx
      · exact absurd hx hne
      · exact hexE x hx
  have hne : s ≠ "" := ne_empty_of_length (by rw [hs]; simp)
  intro hnone
  rw [((unsafeLabelReason_eq_none hne).mp hnone).2.2.2.1] at hshape
  cases hshape

/-- A hexadecimal number of 24 digits or more is refused. -/
theorem unsafeLabelReason_hex {s : String} (hlength : 24 ≤ s.toList.length) (h : HexText s.toList) :
    unsafeLabelReason s ≠ none := by
  have hshape : isLongHex s.toList = true := by
    unfold isLongHex
    rw [Bool.and_eq_true, decide_eq_true_iff, List.all_eq_true]
    exact ⟨hlength, h⟩
  have hne : s ≠ "" := ne_empty_of_length (by omega)
  intro hnone
  rw [((unsafeLabelReason_eq_none hne).mp hnone).2.2.2.2.1] at hshape
  cases hshape

/-- So is a text with 16 digits in a row. -/
theorem unsafeLabelReason_digits {s : String} (h : HasRun Char.isDigit 16 s.toList) : unsafeLabelReason s ≠ none := by
  have hshape : hasNidShape s.toList = true := decide_eq_true h
  have hlength := h.le_length
  have hne : s ≠ "" := ne_empty_of_length (by omega)
  intro hnone
  rw [((unsafeLabelReason_eq_none hne).mp hnone).2.2.1] at hshape
  cases hshape

/-- An identifier that is not refused is base64url that looks like an enum. -/
theorem looksLikeEnum_of_safe {s : String} (hshape : IdentifierShape s) (hsafe : unsafeLabelReason s = none) :
    ∃ bs : Bytes, 16 ≤ bs.length ∧ s = toBase64Url bs ∧ LooksLikeEnum bs := by
  cases hshape with
  | @base64Url bs h => exact ⟨bs, h, rfl, (unsafeLabelReason_base64Url h).mp hsafe⟩
  | uuid h => exact absurd hsafe (unsafeLabelReason_uuid h)
  | hex hlength h => exact absurd hsafe (unsafeLabelReason_hex hlength h)
  | digits h => exact absurd hsafe (unsafeLabelReason_digits h)

/-- A short text has no identifier's shape. -/
theorem not_identifierShape_of_short {s : String} (hlength : s.toList.length < 16) : ¬IdentifierShape s := by
  intro h
  cases h with
  | @base64Url bs h =>
    have hchars : (toBase64Url bs).toList = base64Url.encode bs := String.toList_ofList
    rw [hchars, length_encode] at hlength
    split_ifs at hlength <;> omega
  | uuid h =>
    obtain ⟨a, b, c, d, e, hs, ⟨ha, hb, hc, hd, he⟩, -⟩ := h
    rw [hs] at hlength
    simp only [List.length_append, List.length_cons] at hlength
    omega
  | hex hlong h => omega
  | digits h =>
    have hlong := h.le_length
    omega

end SdidBridge.Observability
