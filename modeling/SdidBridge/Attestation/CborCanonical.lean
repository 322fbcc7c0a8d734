import Mathlib.Data.List.Nodup
import SdidBridge.Attestation.CborExact

/-!
# One value, one encoding

A text decoder that keeps a byte-order mark returns the value that the input is the shortest form of, so
that shortest forms determine their values (`encodeCbor_injective`). The decoder in use drops a mark that
a text begins with: it gives back its input, re-encoded, exactly when no text of it begins with one.
-/

namespace SdidBridge.Attestation

open Codec

/-! ## Values whose texts are rewritten -/

theorem keyMapText_id (k : CborKey) : k.mapText id = k := by
  cases k <;> rfl

theorem mapText_id (v : CborValue) : v.mapText id = v := by
  induction v using CborValue.inductOn with
  | array items ih =>
    rw [CborValue.mapText, List.map_congr_left ih, List.map_id']
  | map entries ih =>
    have hentry : ∀ e ∈ entries, (e.1.mapText id, e.2.mapText id) = e := by
      intro e he
      rw [ih e he, keyMapText_id]
    rw [CborValue.mapText, List.map_congr_left hentry, List.map_id']
  | _ =>
    rw [CborValue.mapText]
    try rfl

theorem reading_keep : ({ ignoreBOM := true } : TextDecoder).reading = id := rfl

theorem reading_utf8Decoder : utf8Decoder.reading = dropMark := rfl

/-- Dropping the mark changes exactly the texts that begin with it. -/
theorem dropMark_eq_self {s : String} : dropMark s = s ↔ marked s = false := by
  unfold dropMark
  cases hm : marked s with
  | false => simp
  | true =>
    simp only [if_true, Bool.true_eq_false, iff_false]
    intro h
    have hlen := congrArg (fun t => t.toList.length) h
    simp only [String.toList_ofList, List.length_tail] at hlen
    unfold marked at hm
    cases hlist : s.toList with
    | nil =>
      rw [hlist] at hm
      simp at hm
    | cons x xs =>
      rw [hlist, List.length_cons] at hlen
      omega

theorem map_eq_self_iff {α : Type} {f : α → α} {l : List α} : l.map f = l ↔ ∀ x ∈ l, f x = x := by
  constructor
  · intro h x hx
    have hmap : l.map f = l.map id := by rw [h, List.map_id]
    exact List.map_inj_left.mp hmap x hx
  · intro h
    rw [List.map_congr_left h, List.map_id']

/-- The reading of a value is the value itself exactly when no text of it begins with the mark. -/
theorem mapText_dropMark_eq_self (v : CborValue) : v.mapText dropMark = v ↔ Unmarked v := by
  induction v using CborValue.inductOn with
  | number n => simp [CborValue.mapText, Unmarked.number]
  | bigint n => simp [CborValue.mapText, Unmarked.bigint]
  | text s =>
    rw [CborValue.mapText, CborValue.text.injEq, dropMark_eq_self]
    constructor
    · exact .text
    · intro h
      cases h with
      | text h => exact h
  | bytes b => simp [CborValue.mapText, Unmarked.bytes]
  | bool b => simp [CborValue.mapText, Unmarked.bool]
  | null => simp [CborValue.mapText, Unmarked.null]
  | undefined => simp [CborValue.mapText, Unmarked.undefined]
  | array items ih =>
    rw [CborValue.mapText, CborValue.array.injEq, map_eq_self_iff]
    constructor
    · exact fun h => .array fun v hv => (ih v hv).mp (h v hv)
    · intro h
      cases h with
      | array h => exact fun v hv => (ih v hv).mpr (h v hv)
  | map entries ih =>
    have hkey : ∀ k : CborKey, k.mapText dropMark = k ↔ ∀ s, k = .text s → marked s = false := by
      intro k
      cases k with
      | text s => simp [CborKey.mapText, dropMark_eq_self]
      | number n => simp [CborKey.mapText]
    have hentry : ∀ e ∈ entries, ((e.1.mapText dropMark, e.2.mapText dropMark) = e ↔
        (∀ s, e.1 = .text s → marked s = false) ∧ Unmarked e.2) := by
      intro e he
      rw [Prod.ext_iff, hkey, ih e he]
    rw [CborValue.mapText, CborValue.map.injEq, map_eq_self_iff]
    constructor
    · intro h
      exact .map (fun e he => ((hentry e he).mp (h e he)).1) (fun e he => ((hentry e he).mp (h e he)).2)
    · intro h
      cases h with
      | map hkeys h => exact fun e he => (hentry e he).mpr ⟨hkeys e he, h e he⟩

/-- Numbers and bigints of one value have one encoding. -/
theorem encodeCbor_byValue (v : CborValue) : encodeCbor (byValue v) = encodeCbor v := by
  induction v using CborValue.inductOn with
  | array items ih =>
    have hitems : (items.map byValue).flatMap encodeCbor = items.flatMap encodeCbor := by
      rw [List.flatMap_map]
      exact List.flatMap_congr ih
    rw [byValue, encodeCbor, encodeCbor, hitems, List.length_map]
  | map entries ih =>
    have hentries : (entries.map fun e => (e.1, byValue e.2)).flatMap
        (fun e => encodeKey e.1 ++ encodeCbor e.2) =
        entries.flatMap fun e => encodeKey e.1 ++ encodeCbor e.2 := by
      rw [List.flatMap_map]
      refine List.flatMap_congr ?_
      intro e he
      dsimp only
      rw [ih e he]
    rw [byValue, encodeCbor, encodeCbor, hentries, List.length_map]
  | bigint n => rw [byValue, encodeCbor, encodeCbor]
  | _ => rw [byValue]

/-! ## Shortest forms determine their values -/

/-- A value of a supported reading is supported. -/
theorem supported_of_mapText {f : String → String} {v : CborValue} (h : Supported (v.mapText f)) :
    Supported v := by
  induction v using CborValue.inductOn with
  | number n => rwa [CborValue.mapText] at h
  | bigint n => rwa [CborValue.mapText] at h
  | text s => exact .text s
  | bytes b => exact .bytes b
  | bool b => exact .bool b
  | null => exact .null
  | undefined => exact .undefined
  | array items ih => exact .array fun v hv => ih v hv (supported_array.mp h v hv)
  | map entries ih =>
    rw [CborValue.mapText] at h
    cases h with
    | map hkeys hdistinct h =>
      refine .map ?_ ?_ ?_
      · intro e he
        have hk := hkeys _ (List.mem_map_of_mem he)
        cases hkey : e.1 with
        | text s => trivial
        | number n =>
          dsimp only at hk
          rwa [hkey] at hk
      · rw [List.map_map] at hdistinct
        have hcomp : (Prod.fst ∘ fun e : CborKey × CborValue => (e.1.mapText f, e.2.mapText f)) =
            CborKey.mapText f ∘ Prod.fst := rfl
        rw [hcomp, ← List.map_map] at hdistinct
        exact List.Nodup.of_map _ hdistinct
      · exact fun e he => ih e he (h _ (List.mem_map_of_mem he))

/-- A decoder that keeps the mark reads the value itself, wherever it lies. -/
theorem keep_reads {v : CborValue} (limits : CborLimits) (levels : ℕ) (hv : Supported v)
    (hbound : (encodeCbor v).length ≤ MAX_SAFE_INTEGER) (hitems : (itemCount v : ℤ) ≤ limits.maxItems)
    (hdepth : nesting v < levels) :
    ∃ c, readValue { ignoreBOM := true } limits levels (Cursor.start (encodeCbor v)) = .ok (v, c) := by
  have hsupported : Supported (v.mapText ({ ignoreBOM := true } : TextDecoder).reading) := by
    rwa [reading_keep, mapText_id]
  have hrest : (Cursor.start (encodeCbor v)).rest = cborLayout.encode v ++ [] := by simp
  have hlies : Lies { ignoreBOM := true } limits levels (Cursor.start (encodeCbor v)) [v] :=
    Layout.ahead_singleton hsupported hrest (by simpa using hitems) hdepth
  have hread := (readsValues _ limits levels).complete (Cursor.start_inside _) hbound hlies
  rw [reading_keep, mapText_id] at hread
  exact ⟨_, hread⟩

/-- No two supported values have one shortest form. -/
theorem encodeCbor_injective {v v' : CborValue} (hv : Supported v) (hv' : Supported v')
    (hbound : (encodeCbor v).length ≤ MAX_SAFE_INTEGER) (h : encodeCbor v = encodeCbor v') : v = v' := by
  let limits : CborLimits :=
    { maxDepth := 0, maxItems := itemCount v + itemCount v', maxBytes := 0 }
  obtain ⟨c, hread⟩ := keep_reads limits (nesting v + nesting v' + 1) hv hbound (by simp [limits]) (by omega)
  obtain ⟨c', hread'⟩ := keep_reads limits (nesting v + nesting v' + 1) hv' (h ▸ hbound)
    (by simp [limits]) (by omega)
  rw [← h, hread, Except.ok.injEq, Prod.mk.injEq] at hread'
  exact hread'.1

/-! ## The decoder in use -/

/-- No text in the bytes begins with a byte-order mark. -/
def MarkFree (b : Bytes) : Prop := ∀ v, Supported v → encodeCbor v = b → Unmarked v

theorem markFree_encodeCbor {v : CborValue} (hv : Supported v)
    (hbound : (encodeCbor v).length ≤ MAX_SAFE_INTEGER) : MarkFree (encodeCbor v) ↔ Unmarked v := by
  constructor
  · exact fun h => h v hv rfl
  · intro h u hu henc
    rw [encodeCbor_injective hu hv (henc ▸ hbound) henc]
    exact h

/-- What is decoded, encoded again, is the input exactly when no text of the input begins with a mark. -/
theorem encode_decodeCbor_iff {input : Uint8Array} {limits : PartialCborLimits} {w : CborValue}
    (h : decodeCbor input limits = .ok w) : encodeCbor w = input.bytes ↔ MarkFree input.bytes := by
  obtain ⟨v, hread, hfits, henc, rfl⟩ := (decodeWith_eq_ok input.bound).mp h
  have hv := supported_of_mapText hread
  have hbound : (encodeCbor v).length ≤ MAX_SAFE_INTEGER := henc ▸ input.bound
  rw [← henc, markFree_encodeCbor hv hbound, ← mapText_dropMark_eq_self, reading_utf8Decoder]
  rw [reading_utf8Decoder] at hread
  constructor
  · intro heq
    exact encodeCbor_injective hread hv (heq ▸ hbound) heq
  · intro heq
    rw [heq]

/-- The decoder is canonical on the inputs without a text that begins with a mark, and on no others: there
the bytes of what is decoded are the input, so that two of them with one value are one input. -/
theorem decodeCbor_canonical (b₁ : Uint8Array) (limits₁ : PartialCborLimits) (w₁ : CborValue)
    (h₁ : decodeCbor b₁ limits₁ = .ok w₁) :
    (encodeCbor w₁ = b₁.bytes ↔ MarkFree b₁.bytes) ∧
    ∀ (b₂ : Uint8Array) (limits₂ : PartialCborLimits) (w₂ : CborValue), decodeCbor b₂ limits₂ = .ok w₂ →
      MarkFree b₁.bytes → MarkFree b₂.bytes → byValue w₁ = byValue w₂ → b₁.bytes = b₂.bytes := by
  constructor
  · exact encode_decodeCbor_iff h₁
  · intro b₂ limits₂ w₂ h₂ hfree₁ hfree₂ hsame
    calc b₁.bytes
        = encodeCbor w₁ := ((encode_decodeCbor_iff h₁).mpr hfree₁).symm
      _ = encodeCbor (byValue w₁) := (encodeCbor_byValue w₁).symm
      _ = encodeCbor (byValue w₂) := by rw [hsame]
      _ = encodeCbor w₂ := encodeCbor_byValue w₂
      _ = b₂.bytes := (encode_decodeCbor_iff h₂).mpr hfree₂

/-- No limit of the caller's. -/
def defaultLimits : PartialCborLimits := { maxDepth := none, maxItems := none, maxBytes := none }

/-- The empty text. -/
def emptyText : Uint8Array where
  bytes := [0x60]
  bound := by decide

/-- A text that is a byte-order mark. -/
def markText : Uint8Array where
  bytes := [0x63, 0xEF, 0xBB, 0xBF]
  bound := by decide

theorem decode_text {s : String} {input : Uint8Array} (henc : encodeCbor (.text s) = input.bytes)
    (hlen : input.bytes.length ≤ 1024) :
    decodeCbor input defaultLimits = .ok (.text (dropMark s)) := by
  refine (decodeWith_eq_ok input.bound).mpr ⟨.text s, ?_, ⟨?_, ?_, ?_⟩, henc, ?_⟩
  · rw [CborValue.mapText]
    exact .text _
  · rw [henc]
    simp only [defaultLimits, PartialCborLimits.effective, DEFAULT_CBOR_LIMITS, Option.getD_none]
    omega
  · simp [itemCount, defaultLimits, PartialCborLimits.effective, DEFAULT_CBOR_LIMITS]
  · simp [nesting, defaultLimits, PartialCborLimits.effective, DEFAULT_CBOR_LIMITS]
  · rw [CborValue.mapText, reading_utf8Decoder]

theorem decode_emptyText : decodeCbor emptyText defaultLimits = .ok (.text "") := by
  have henc : encodeCbor (.text "") = emptyText.bytes := by
    rw [encodeCbor]
    decide
  have hdrop : dropMark "" = "" := by decide
  rw [decode_text henc (by decide), hdrop]

theorem decode_markText : decodeCbor markText defaultLimits = .ok (.text "") := by
  have henc : encodeCbor (.text "\uFEFF") = markText.bytes := by
    rw [encodeCbor]
    decide
  have hdrop : dropMark "\uFEFF" = "" := by decide
  rw [decode_text henc (by decide), hdrop]

/-- Two inputs are read as the empty text. -/
theorem decodeCbor_not_canonical :
    ¬∀ (b₁ b₂ : Uint8Array) (w₁ w₂ : CborValue), decodeCbor b₁ defaultLimits = .ok w₁ →
      decodeCbor b₂ defaultLimits = .ok w₂ → byValue w₁ = byValue w₂ → b₁.bytes = b₂.bytes := by
  intro h
  have hsame := h emptyText markText _ _ decode_emptyText decode_markText rfl
  exact absurd hsame (by decide)

theorem decodeCbor_canonical_emptyText : encodeCbor (.text "") = emptyText.bytes ↔ MarkFree emptyText.bytes :=
  (decodeCbor_canonical emptyText defaultLimits _ decode_emptyText).1

/-! ## Exactly the supported subset -/

/-- A value of the subset without a marked text is what its shortest form is decoded to, within the limits;
an input that is no shortest form within the limits is refused with a `CborError`; and no input has the
decoder read outside of it. -/
theorem decodeCbor_exact :
    (∀ (limits : PartialCborLimits) (v : CborValue) (input : Uint8Array), Supported v → Unmarked v →
      Fits limits.effective v → input.bytes = encodeCbor v → decodeCbor input limits = .ok v) ∧
    (∀ (limits : PartialCborLimits) (input : Uint8Array),
      (∀ v, Supported v → Fits limits.effective v → input.bytes ≠ encodeCbor v) →
      ∃ e, decodeCbor input limits = .error (.raised e)) ∧
    ∀ (limits : PartialCborLimits) (input : Uint8Array), decodeCbor input limits ≠ .error .fault := by
  refine ⟨?_, ?_, fun limits input => decodeWith_ne_fault⟩
  · intro limits v input hv hunmarked hfits henc
    have hself : v.mapText dropMark = v := (mapText_dropMark_eq_self v).mpr hunmarked
    refine (decodeWith_eq_ok input.bound).mpr ⟨v, ?_, hfits, henc.symm, ?_⟩
    · rwa [reading_utf8Decoder, hself]
    · rw [reading_utf8Decoder, hself]
  · intro limits input hnone
    cases h : decodeCbor input limits with
    | ok w =>
      obtain ⟨v, hread, hfits, henc, -⟩ := (decodeWith_eq_ok input.bound).mp h
      exact absurd henc.symm (hnone v (supported_of_mapText hread) hfits)
    | error e =>
      cases e with
      | raised e => exact ⟨e, rfl⟩
      | fault => exact absurd h decodeWith_ne_fault

theorem decodeCbor_exact_emptyText : decodeCbor emptyText defaultLimits = .ok (.text "") :=
  decodeCbor_exact.1 defaultLimits (.text "") emptyText (.text "") (.text (by decide))
    ⟨by rw [encodeCbor]; decide, by rw [itemCount] <;> simp [defaultLimits, PartialCborLimits.effective, DEFAULT_CBOR_LIMITS], by
      rw [nesting] <;> simp [defaultLimits, PartialCborLimits.effective, DEFAULT_CBOR_LIMITS]⟩
    (by rw [encodeCbor]; decide)

end SdidBridge.Attestation
